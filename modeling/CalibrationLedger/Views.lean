import CalibrationLedger.Consistency
import CalibrationLedger.Proofs
import CalibrationLedger.Verify

set_option autoImplicit false

-- The views read back by the verifier: what is shown of a row carries the fields
-- the row commits to.
namespace CalibrationLedger

open JsonText Digest HashTree

theorem subscript_dict (key : String) (members : List (String × Json)) (value : Json)
    (found : (members.find? fun entry => entry.1 = key).map Prod.snd = some value) :
    subscript key (.obj (dict members)) = .ok value := by
  rw [subscript, member_dict, found]

theorem get_item_dict (key : String) (members : List (String × Json)) :
    getItem key (dict members) = ((members.find? fun entry => entry.1 = key).map Prod.snd).getD .null := by
  rw [getItem, member_dict]

theorem decode_hash_hex (data : Bytes) (field : String) (width : data.length = 32) :
    decodeHash (string (hex data)) field = .ok data := by
  rw [string, decodeHash, fromhex_hex]
  simp [width]

-- datetime.fromisoformat undoes isoformat at this instant.
def Readable (rt : Runtime) (instant : Instant) : Prop :=
  rt.fromisoformat (isoformat instant) = some ⟨instant, some 0⟩

section

variable (rt : Runtime)

theorem timestamp_read (instant : Instant) (readable : Readable rt instant) :
    timestampText rt (.json (.str (utcText instant))) = .ok (utcText instant) := by
  rw [timestampText, replace_utc_text, readable]
  exact isoformat_utc_text instant

def Event.shown (event : Event) : List (String × Json) :=
  ("sequence", .int event.sequence) :: (event.commitment rt).tail ++ [("leaf_hash", string event.leafHash)]

def Checkpoint.shown (checkpoint : Checkpoint) : List (String × Json) :=
  checkpoint.payload rt ++ [("signature", string checkpoint.signature)]

theorem event_view_shown (event : Event) : eventView rt event = .ok (dict (event.shown rt)) := by
  have other : ∀ name : String, name ≠ "schema_version" → text name ≠ text "schema_version" :=
    fun name different same => different (text_injective _ _ same)
  rw [eventView, event_commitment_row]
  simp [Event.shown, Event.commitment, commitmentMembers, dict, other, pure, Except.pure, bind, Except.bind]

theorem checkpoint_view_shown (checkpoint : Checkpoint) :
    checkpointView rt checkpoint = .ok (dict (checkpoint.shown rt)) := by
  rw [checkpointView, checkpoint_payload_row]
  simp [Checkpoint.shown, dict, pure, Except.pure, bind, Except.bind]

theorem shown_commitment (event : Event) :
    commitmentMembers rt (jsonFields "occurred_at" (dict (event.shown rt))) (utcText event.occurredAt) =
      event.commitment rt := by
  have optional_twice := optional_str rt
  simp [Event.commitment, commitmentMembers, Event.shown, jsonFields, get_item_dict, Event.fields,
    string, pyStr, optional_twice]

theorem shown_payload (checkpoint : Checkpoint) :
    payloadMembers rt (jsonFields "created_at" (dict (checkpoint.shown rt))) (utcText checkpoint.createdAt) =
      checkpoint.payload rt := by
  have optional_twice := optional_str rt
  simp [Checkpoint.payload, payloadMembers, Checkpoint.shown, jsonFields, get_item_dict,
    Checkpoint.fields, string, pyStr, optional_twice]

theorem plain_shallow (value : Json) (simple : plain value = true) : value.depth = 0 := by
  cases value <;> first | rfl | cases simple

theorem str_of_plain (value : Json) (simple : plain value = true) :
    strOf rt value = .ok (pyStr rt value) := by
  have shallow := plain_shallow value simple
  rw [strOf, rt.strFits value (by omega)]
  rfl

theorem named_plain (data : Dict) (keys : List String)
    (simple : ∀ key ∈ keys, plain (getItem key data) = true) :
    named rt data keys = .ok () := by
  rw [named, if_neg]
  intro some
  obtain ⟨key, listed, exhausts⟩ := List.any_eq_true.mp some
  have shallow := plain_shallow _ (simple key listed)
  rw [rt.strFits _ (by omega)] at exhausts
  cases exhausts

theorem dumped_plain (members : List (String × Json)) (simple : ∀ entry ∈ members, plain entry.2 = true) :
    dumped rt (.obj (dict members)) = canonicalJson rt (.obj (dict members)) := by
  have flat : membersDepth (dict members) ≤ 0 := by
    refine (members_depth_le _ 0).mpr fun entry inside => ?_
    obtain ⟨source, listed, rfl⟩ := List.mem_map.mp inside
    exact (plain_shallow _ (simple source listed)).le
  have shallow : (Value.obj (dict members) : Json).depth ≤ rt.nesting := by
    have roomy := rt.roomy
    rw [Value.depth]
    omega
  rw [dumped, rt.dumpsFits false true _ shallow]
  rfl

theorem shown_event_commitment (event : Event) (readable : Readable rt event.occurredAt) :
    eventCommitment rt (jsonFields "occurred_at" (dict (event.shown rt))) =
      .ok (dict (event.commitment rt)) := by
  have time : (jsonFields "occurred_at" (dict (event.shown rt))).time =
      .json (.str (utcText event.occurredAt)) := by
    simp [jsonFields, get_item_dict, Event.shown, Event.commitment, commitmentMembers]
  rw [eventCommitment, time, timestamp_read rt _ readable]
  show Except.ok (dict (commitmentMembers rt _ (utcText event.occurredAt))) = _
  rw [shown_commitment]

theorem shown_event_commits (event : Event) (readable : Readable rt event.occurredAt) :
    eventCommitmentBytes rt (jsonFields "occurred_at" (dict (event.shown rt))) = .ok (event.bytes rt) := by
  rw [eventCommitmentBytes, shown_event_commitment rt event readable]
  exact bytes_of_encodable rt _ (commitment_encodable rt event)

theorem shown_event_parsed (event : Event) (readable : Readable rt event.occurredAt) :
    parsedEventBytes rt (dict (event.shown rt)) = .ok (event.bytes rt) := by
  have simple : ∀ key ∈ ["event_id", "record_id", "previous_event_id"],
      plain (getItem key (dict (event.shown rt))) = true := by
    simp [get_item_dict, Event.shown, Event.commitment, commitmentMembers, Event.fields, optional_str,
      optional_plain]
  rw [parsedEventBytes, shown_event_commitment rt event readable]
  refine (bind_ok _ _ _).mpr ⟨_, rfl, (bind_ok _ _ _).mpr ⟨(), named_plain rt _ _ simple, ?_⟩⟩
  rw [dumped_plain rt _ (commitment_plain rt event)]
  exact bytes_of_encodable rt _ (commitment_encodable rt event)

theorem parsed_event_ok (event : Dict) (data : Bytes) (written : parsedEventBytes rt event = .ok data) :
    eventCommitmentBytes rt (jsonFields "occurred_at" event) = .ok data := by
  obtain ⟨commitment, made, written⟩ := (bind_ok _ _ _).mp written
  obtain ⟨_, _, written⟩ := (bind_ok _ _ _).mp written
  rw [dumped] at written
  split at written
  · cases written
  · exact (bind_ok _ _ _).mpr ⟨commitment, made, written⟩

theorem parsed_checkpoint_ok (checkpoint : Dict) (data : Bytes)
    (written : parsedCheckpointBytes rt checkpoint = .ok data) :
    checkpointSigningBytes rt (jsonFields "created_at" checkpoint) = .ok data := by
  obtain ⟨payload, made, written⟩ := (bind_ok _ _ _).mp written
  obtain ⟨_, _, written⟩ := (bind_ok _ _ _).mp written
  rw [dumped] at written
  split at written
  · cases written
  · exact (bind_ok _ _ _).mpr ⟨payload, made, written⟩

theorem shown_checkpoint_parsed (checkpoint : Checkpoint) (readable : Readable rt checkpoint.createdAt) :
    parsedCheckpointBytes rt (dict (checkpoint.shown rt)) = .ok (checkpoint.bytes rt) := by
  have time : (jsonFields "created_at" (dict (checkpoint.shown rt))).time =
      .json (.str (utcText checkpoint.createdAt)) := by
    simp [jsonFields, get_item_dict, Checkpoint.shown, Checkpoint.payload, payloadMembers]
  have simple : ∀ key ∈ ["checkpoint_id", "previous_checkpoint_id"],
      plain (getItem key (dict (checkpoint.shown rt))) = true := by
    simp [get_item_dict, Checkpoint.shown, Checkpoint.payload, payloadMembers, Checkpoint.fields,
      optional_str, optional_plain]
  have made : checkpointPayload rt (jsonFields "created_at" (dict (checkpoint.shown rt))) =
      .ok (dict (checkpoint.payload rt)) := by
    rw [checkpointPayload, time, timestamp_read rt _ readable]
    show Except.ok (dict (payloadMembers rt _ (utcText checkpoint.createdAt))) = _
    rw [shown_payload]
  rw [parsedCheckpointBytes, made]
  refine (bind_ok _ _ _).mpr ⟨_, rfl, (bind_ok _ _ _).mpr ⟨(), named_plain rt _ _ simple, ?_⟩⟩
  rw [dumped_plain rt _ (payload_plain rt checkpoint)]
  exact bytes_of_encodable rt _ (payload_encodable rt checkpoint)

-- A row whose signature the keyring can check.
structure Signed (keyring : Keyring) (checkpoint : Checkpoint) : Prop where
  readable : Readable rt checkpoint.createdAt
  genuine : ∃ key, keyring.lookup (text checkpoint.keyVersion) = some key ∧
    checkpoint.signature = signCheckpoint rt.toHashFunction (checkpoint.bytes rt) key

theorem shown_checkpoint_fields (checkpoint : Checkpoint) (keyring : Keyring) (key : Bytes)
    (readable : Readable rt checkpoint.createdAt)
    (held : keyring.lookup (text checkpoint.keyVersion) = some key) :
    signedCheckpointFields rt (.obj (dict (checkpoint.shown rt))) keyring =
      .ok (text checkpoint.signature, key, checkpoint.bytes rt) := by
  have version : subscript "key_version" (.obj (dict (checkpoint.shown rt))) =
      .ok (string checkpoint.keyVersion) :=
    subscript_dict _ _ _ (by simp [Checkpoint.shown, Checkpoint.payload, payloadMembers, Checkpoint.fields])
  have stored : subscript "signature" (.obj (dict (checkpoint.shown rt))) =
      .ok (string checkpoint.signature) :=
    subscript_dict _ _ _ (by simp [Checkpoint.shown, Checkpoint.payload, payloadMembers])
  have required : requireKey keyring (pyStr rt (string checkpoint.keyVersion)) = .ok key := by
    rw [string, pyStr, requireKey, held]
  refine (bind_ok _ _ _).mpr ⟨_, version, (bind_ok _ _ _).mpr ⟨_, str_of_plain rt _ rfl, ?_⟩⟩
  refine (bind_ok _ _ _).mpr ⟨_, stored, (bind_ok _ _ _).mpr ⟨_, str_of_plain rt _ rfl, ?_⟩⟩
  exact (bind_ok _ _ _).mpr
    ⟨key, required, (bind_ok _ _ _).mpr ⟨_, shown_checkpoint_parsed rt checkpoint readable, rfl⟩⟩

theorem shown_checkpoint_verifies (checkpoint : Checkpoint) (keyring : Keyring)
    (signed : Signed rt keyring checkpoint) :
    verifySignedCheckpoint rt (.obj (dict (checkpoint.shown rt))) keyring = .ok () := by
  obtain ⟨readable, key, held, signature⟩ := signed
  have fields := shown_checkpoint_fields rt checkpoint keyring key readable held
  refine (bind_ok _ _ _).mpr ⟨_, congrArg (translating _) fields, (bind_ok _ _ _).mpr ⟨true, ?_, rfl⟩⟩
  show verifyCheckpointSignature _ _ (text checkpoint.signature) key = _
  rw [signature]
  exact signature_accepted _ _ _

theorem read_steps_shown (start : Nat) (path : List InclusionStep)
    (widths : ∀ step ∈ path, step.hash.length = 32) :
    readSteps start (path.map stepView) =
      .ok (path.map fun step => (string (sideName step.side), step.hash)) := by
  induction path generalizing start with
  | nil => rfl
  | cons step rest ih =>
      have side : subscript "side" (stepView step) = .ok (string (sideName step.side)) :=
        subscript_dict _ _ _ (by simp)
      have hash : subscript "hash" (stepView step) = .ok (string (hex step.hash)) :=
        subscript_dict _ _ _ (by simp)
      exact (bind_ok _ _ _).mpr ⟨_, side, (bind_ok _ _ _).mpr ⟨_, hash, (bind_ok _ _ _).mpr
        ⟨_, decode_hash_hex step.hash _ (widths step List.mem_cons_self), (bind_ok _ _ _).mpr
          ⟨_, ih (start + 1) fun other later => widths other (List.mem_cons_of_mem _ later), rfl⟩⟩⟩⟩

theorem read_sides_shown (path : List InclusionStep) :
    readSides (path.map fun step => (string (sideName step.side), step.hash)) = .ok path := by
  induction path with
  | nil => rfl
  | cons step rest ih =>
      obtain ⟨side, hash⟩ := step
      have stands : readSide (string (sideName side)) = .ok side := by cases side <;> decide
      exact (bind_ok _ _ _).mpr ⟨side, stands, (bind_ok _ _ _).mpr ⟨rest, ih, rfl⟩⟩

theorem read_hashes_shown (start : Nat) (hashes : List Bytes) (widths : ∀ item ∈ hashes, item.length = 32) :
    readHashes start (hashes.map fun item => string (hex item)) = .ok hashes := by
  induction hashes generalizing start with
  | nil => rfl
  | cons item rest ih =>
      exact (bind_ok _ _ _).mpr
        ⟨item, decode_hash_hex item _ (widths item List.mem_cons_self), (bind_ok _ _ _).mpr
        ⟨rest, ih (start + 1) fun other later => widths other (List.mem_cons_of_mem _ later), rfl⟩⟩

theorem read_event_shown (event : Event) (receipt : Dict) (status : Json)
    (shown : subscript "event" (.obj receipt) = .ok (.obj (dict (event.shown rt))))
    (stands : subscript "witness_status" (.obj receipt) = .ok status)
    (readable : Readable rt event.occurredAt)
    (stored : event.leafHash = hex (leafHash rt.toHashFunction (event.bytes rt))) :
    readEvent rt receipt =
      .ok ⟨status, leafHash rt.toHashFunction (event.bytes rt),
        leafHash rt.toHashFunction (event.bytes rt)⟩ := by
  have leaf : subscript "leaf_hash" (.obj (dict (event.shown rt))) = .ok (string event.leafHash) :=
    subscript_dict _ _ _ (by simp [Event.shown, Event.commitment, commitmentMembers])
  have decoded : decodeHash (string event.leafHash) "event.leaf_hash" =
      .ok (leafHash rt.toHashFunction (event.bytes rt)) := by
    rw [stored]
    exact decode_hash_hex _ _ (rt.digest_length _)
  exact (bind_ok _ _ _).mpr
    ⟨_, shown, (bind_ok _ _ _).mpr ⟨_, stands, (bind_ok _ _ _).mpr ⟨_, leaf, (bind_ok _ _ _).mpr
    ⟨_, decoded, (bind_ok _ _ _).mpr ⟨_, shown_event_parsed rt event readable, rfl⟩⟩⟩⟩⟩

section

variable (keyring : Keyring) (checkpoint : Checkpoint) (leaves : List Bytes)

-- The tree a checkpoint was signed over.
structure Rooted : Prop where
  widths : ∀ leaf ∈ leaves, leaf.length = 32
  count : leaves.length = checkpoint.leafCount
  root : checkpoint.rootHash = hex (merkleRoot rt.toHashFunction leaves)

-- The consistency part of a receipt is the one its checkpoint's row asks for.
def Preceded (consistency : Json) : Prop :=
  match checkpoint.previousCheckpointId with
  | none => checkpoint.previousRootHash = none ∧ consistency = .null
  | some previousId => ∃ previous hashes, previous.checkpointId = previousId ∧
      checkpoint.previousRootHash = some previous.rootHash ∧ Signed rt keyring previous ∧
      previous.rootHash = hex (merkleRoot rt.toHashFunction (leaves.take previous.leafCount)) ∧
      consistencyProof rt.toHashFunction leaves previous.leafCount = some hashes ∧
      consistency = bundle checkpoint previous (dict (previous.shown rt)) hashes

theorem shown_item (key : String) (value : Json)
    (found : ((checkpoint.shown rt).find? fun entry => entry.1 = key).map Prod.snd = some value) :
    subscript key (.obj (dict (checkpoint.shown rt))) = .ok value ∧
    getItem key (dict (checkpoint.shown rt)) = value :=
  ⟨subscript_dict key _ value found, by rw [get_item_dict, found, Option.getD_some]⟩

theorem shown_root (rooted : Rooted rt checkpoint leaves) (field : String) :
    decodeHash (string checkpoint.rootHash) field = .ok (merkleRoot rt.toHashFunction leaves) := by
  rw [rooted.root]
  exact decode_hash_hex _ _ (merkle_root_length rt.toHashFunction leaves rooted.widths)

theorem read_inclusion_shown (event : Dict) (index : Nat) (leaf : Bytes) (consistency : Json)
    (signed : Signed rt keyring checkpoint) (rooted : Rooted rt checkpoint leaves)
    (inside : leaves[index]? = some leaf) :
    readInclusion rt (receiptOf event (dict (checkpoint.shown rt)) index checkpoint.leafCount
        (walk rt.toHashFunction leaves index) consistency) keyring leaf =
      .ok ⟨.obj (dict (checkpoint.shown rt)), merkleRoot rt.toHashFunction leaves, true⟩ := by
  have root := (shown_item rt checkpoint "root_hash" (string checkpoint.rootHash)
    (by simp [Checkpoint.shown, Checkpoint.payload, payloadMembers, Checkpoint.fields])).1
  have count := (shown_item rt checkpoint "leaf_count" (.int checkpoint.leafCount)
    (by simp [Checkpoint.shown, Checkpoint.payload, payloadMembers, Checkpoint.fields])).1
  have widths := walk_widths rt.toHashFunction leaves index rooted.widths
  have accepted := inclusion_accepts rt.toHashFunction leaves rooted.widths index leaf inside
  rw [rooted.count] at accepted
  refine (bind_ok _ _ _).mpr ⟨.obj (dict (checkpoint.shown rt)), subscript_dict _ _ _ (by simp), ?_⟩
  refine (bind_ok _ _ _).mpr
    ⟨.obj (dict [("leaf_index", .int index), ("tree_size", .int checkpoint.leafCount),
    ("path", .arr ((walk rt.toHashFunction leaves index).map stepView))]), subscript_dict _ _ _ (by simp), ?_⟩
  refine (bind_ok _ _ _).mpr ⟨(), shown_checkpoint_verifies rt checkpoint keyring signed, ?_⟩
  refine (bind_ok _ _ _).mpr ⟨_, root, (bind_ok _ _ _).mpr ⟨_, shown_root rt checkpoint leaves rooted _, ?_⟩⟩
  refine (bind_ok _ _ _).mpr
    ⟨.arr ((walk rt.toHashFunction leaves index).map stepView), subscript_dict _ _ _ (by simp), ?_⟩
  refine (bind_ok _ _ _).mpr ⟨_, rfl, (bind_ok _ _ _).mpr ⟨_, read_steps_shown 0 _ widths, ?_⟩⟩
  refine (bind_ok _ _ _).mpr ⟨_, read_sides_shown _, ?_⟩
  refine (bind_ok _ _ _).mpr
    ⟨.int checkpoint.leafCount, subscript_dict _ _ _ (by simp), (bind_ok _ _ _).mpr ⟨_, rfl, ?_⟩⟩
  refine (bind_ok _ _ _).mpr
    ⟨_, count, (bind_ok _ _ _).mpr ⟨_, rfl, (bind_ok _ _ _).mpr ⟨(), by simp [ensure], ?_⟩⟩⟩
  refine (bind_ok _ _ _).mpr ⟨.int index, subscript_dict _ _ _ (by simp), (bind_ok _ _ _).mpr ⟨_, rfl, ?_⟩⟩
  rw [accepted]
  rfl

theorem read_consistency_shown (previous : Checkpoint) (hashes : List Bytes) (previousId : Json)
    (signed : Signed rt keyring previous) (rooted : Rooted rt checkpoint leaves)
    (link : pyStr rt previousId = text previous.checkpointId.toText)
    (rootLink : checkpoint.previousRootHash = some previous.rootHash)
    (root : previous.rootHash = hex (merkleRoot rt.toHashFunction (leaves.take previous.leafCount)))
    (built : consistencyProof rt.toHashFunction leaves previous.leafCount = some hashes) :
    readConsistency rt (.obj (dict (checkpoint.shown rt)))
      (bundle checkpoint previous (dict (previous.shown rt)) hashes)
      previousId keyring (merkleRoot rt.toHashFunction leaves) = .ok true := by
  have id : ∀ row : Checkpoint, subscript "checkpoint_id" (.obj (dict (row.shown rt))) =
      .ok (string row.checkpointId.toText) := fun row => (shown_item rt row _ _
    (by simp [Checkpoint.shown, Checkpoint.payload, payloadMembers, Checkpoint.fields, pyStr, string])).1
  have count : ∀ row : Checkpoint, subscript "leaf_count" (.obj (dict (row.shown rt))) = .ok
      (.int row.leafCount) :=
    fun row => (shown_item rt row _ _
      (by simp [Checkpoint.shown, Checkpoint.payload, payloadMembers, Checkpoint.fields])).1
  obtain ⟨oldRoot, oldRootItem⟩ := shown_item rt previous "root_hash" (string previous.rootHash)
    (by simp [Checkpoint.shown, Checkpoint.payload, payloadMembers, Checkpoint.fields])
  obtain ⟨_, linkItem⟩ := shown_item rt checkpoint "previous_root_hash" (string previous.rootHash)
    (by simp [Checkpoint.shown, Checkpoint.payload, payloadMembers, Checkpoint.fields, rootLink, optional])
  have oldWidths : ∀ leaf ∈ leaves.take previous.leafCount, leaf.length = 32 :=
    fun leaf member => rooted.widths leaf (List.mem_of_mem_take member)
  have decoded : decodeHash (string previous.rootHash) "old_checkpoint.root_hash" =
      .ok (merkleRoot rt.toHashFunction (leaves.take previous.leafCount)) := by
    rw [root]
    exact decode_hash_hex _ _ (merkle_root_length rt.toHashFunction _ oldWidths)
  have adjacent : pyStr rt (string previous.checkpointId.toText) = pyStr rt previousId := link.symm
  have accepted := consistency_accepts rt.toHashFunction leaves rooted.widths previous.leafCount hashes built
  rw [rooted.count] at accepted
  refine (bind_ok _ _ _).mpr ⟨.obj (dict (previous.shown rt)), subscript_dict _ _ _ (by simp), ?_⟩
  refine (bind_ok _ _ _).mpr ⟨(), shown_checkpoint_verifies rt previous keyring signed, ?_⟩
  refine (bind_ok _ _ _).mpr ⟨_, id previous, (bind_ok _ _ _).mpr ⟨(), by simp [ensure, adjacent], ?_⟩⟩
  refine (bind_ok _ _ _).mpr ⟨(), ?_, ?_⟩
  · show ensure (pyEq (getItem "previous_root_hash" (dict (checkpoint.shown rt)))
        (getItem "root_hash" (dict (previous.shown rt)))) _ = _
    rw [linkItem, oldRootItem]
    simp [ensure, string, pyEq]
  refine (bind_ok _ _ _).mpr ⟨string checkpoint.checkpointId.toText, subscript_dict _ _ _ (by simp), ?_⟩
  refine (bind_ok _ _ _).mpr ⟨_, str_of_plain rt _ rfl, ?_⟩
  refine (bind_ok _ _ _).mpr ⟨_, id checkpoint, ?_⟩
  refine (bind_ok _ _ _).mpr ⟨(), by simp [ensure], ?_⟩
  refine (bind_ok _ _ _).mpr
    ⟨.arr (hashes.map fun item => string (hex item)), subscript_dict _ _ _ (by simp), ?_⟩
  refine (bind_ok _ _ _).mpr ⟨_, rfl, ?_⟩
  refine (bind_ok _ _ _).mpr ⟨_, read_hashes_shown 0 hashes ?_, ?_⟩
  · exact consistency_widths rt.toHashFunction leaves rooted.widths previous.leafCount hashes built
  refine (bind_ok _ _ _).mpr
    ⟨.int previous.leafCount, subscript_dict _ _ _ (by simp), (bind_ok _ _ _).mpr ⟨_, rfl, ?_⟩⟩
  refine (bind_ok _ _ _).mpr
    ⟨.int checkpoint.leafCount, subscript_dict _ _ _ (by simp), (bind_ok _ _ _).mpr ⟨_, rfl, ?_⟩⟩
  refine (bind_ok _ _ _).mpr
    ⟨_, count previous, (bind_ok _ _ _).mpr ⟨_, rfl, (bind_ok _ _ _).mpr ⟨(), by simp [ensure], ?_⟩⟩⟩
  refine (bind_ok _ _ _).mpr
    ⟨_, count checkpoint, (bind_ok _ _ _).mpr ⟨_, rfl, (bind_ok _ _ _).mpr ⟨(), by simp [ensure], ?_⟩⟩⟩
  refine (bind_ok _ _ _).mpr ⟨_, oldRoot, (bind_ok _ _ _).mpr ⟨_, decoded, ?_⟩⟩
  rw [accepted]
  rfl

theorem predecessor_shown (receipt : Dict) (consistency : Json) (rooted : Rooted rt checkpoint leaves)
    (item : getItem "consistency_proof" receipt = consistency)
    (preceded : Preceded rt keyring checkpoint leaves consistency) :
    verifyPredecessor rt receipt keyring (.obj (dict (checkpoint.shown rt)))
      (merkleRoot rt.toHashFunction leaves) = .ok () := by
  have idItem := (shown_item rt checkpoint "previous_checkpoint_id"
    (optional (checkpoint.previousCheckpointId.map Uuid.toText))
    (by simp [Checkpoint.shown, Checkpoint.payload, payloadMembers, Checkpoint.fields, optional_str])).2
  have rootItem := (shown_item rt checkpoint "previous_root_hash" (optional checkpoint.previousRootHash)
    (by simp [Checkpoint.shown, Checkpoint.payload, payloadMembers, Checkpoint.fields])).2
  rw [verifyPredecessor]
  show (if getItem "previous_checkpoint_id" (dict (checkpoint.shown rt)) = .null then _ else _) = _
  rw [Preceded] at preceded
  cases link : checkpoint.previousCheckpointId with
  | none =>
      rw [link] at preceded idItem
      obtain ⟨rootLink, rfl⟩ := preceded
      rw [rootLink] at rootItem
      have absent : getItem "previous_checkpoint_id" (dict (checkpoint.shown rt)) = .null := idItem
      rw [if_pos absent]
      refine (bind_ok _ _ _).mpr ⟨(), ?_, ?_⟩
      · show ensure (getItem "previous_root_hash" (dict (checkpoint.shown rt)) = .null) _ = _
        rw [rootItem]
        rfl
      · rw [item]
        rfl
  | some previousId =>
      rw [link] at preceded idItem
      obtain ⟨previous, hashes, rfl, rootLink, signed, root, built, rfl⟩ := preceded
      have present : getItem "previous_checkpoint_id" (dict (checkpoint.shown rt)) ≠ .null := by
        rw [idItem]
        simp [optional, string]
      have passed := read_consistency_shown rt keyring checkpoint leaves previous hashes
        (getItem "previous_checkpoint_id" (dict (checkpoint.shown rt))) signed rooted
          (by rw [idItem]; rfl) rootLink root
        built
      rw [if_neg present, item]
      exact (bind_ok _ _ _).mpr ⟨true, congrArg (translating _) passed, rfl⟩

theorem sealed_receipt_accepted (event : Event) (index : Nat) (consistency : Json)
    (readable : Readable rt event.occurredAt)
    (stored : event.leafHash = hex (leafHash rt.toHashFunction (event.bytes rt)))
    (signed : Signed rt keyring checkpoint) (rooted : Rooted rt checkpoint leaves)
    (inside : leaves[index]? = some (leafHash rt.toHashFunction (event.bytes rt)))
    (preceded : Preceded rt keyring checkpoint leaves consistency) :
    verifyReceipt rt
      (receiptOf (dict (event.shown rt)) (dict (checkpoint.shown rt)) index checkpoint.leafCount
        (walk rt.toHashFunction leaves index) consistency) keyring =
      .ok ⟨true, true, some (text checkpoint.checkpointId.toText)⟩ := by
  have id := (shown_item rt checkpoint "checkpoint_id" (string checkpoint.checkpointId.toText)
    (by simp [Checkpoint.shown, Checkpoint.payload, payloadMembers, Checkpoint.fields, pyStr, string])).1
  have read := read_event_shown rt event (receiptOf (dict (event.shown rt)) (dict (checkpoint.shown rt)) index
    checkpoint.leafCount (walk rt.toHashFunction leaves index) consistency) (string "sealed")
    (subscript_dict _ _ _ (by simp)) (subscript_dict _ _ _ (by simp)) readable stored
  have included :=
    read_inclusion_shown rt keyring checkpoint leaves (dict (event.shown rt)) index _ consistency signed
    rooted inside
  refine (bind_ok _ _ _).mpr
    ⟨_, congrArg (translating _) read, (bind_ok _ _ _).mpr ⟨(), by simp [ensure], ?_⟩⟩
  have other : string "sealed" ≠ string "pending" := by decide
  rw [if_neg other, if_pos rfl]
  refine (bind_ok _ _ _).mpr ⟨_, congrArg (translating _) included, (bind_ok _ _ _).mpr ⟨(), rfl, ?_⟩⟩
  refine (bind_ok _ _ _).mpr
    ⟨(), predecessor_shown rt keyring checkpoint leaves _ consistency rooted ?_ preceded, ?_⟩
  · rw [receiptOf, get_item_dict]
    simp
  · exact (bind_ok _ _ _).mpr ⟨_, id, rfl⟩

end

theorem pending_receipt_accepted (event : Event) (keyring : Keyring) (readable : Readable rt event.occurredAt)
    (stored : event.leafHash = hex (leafHash rt.toHashFunction (event.bytes rt))) :
    verifyReceipt rt (pendingReceipt (dict (event.shown rt))) keyring = .ok ⟨true, false, none⟩ := by
  have read := read_event_shown rt event (pendingReceipt (dict (event.shown rt))) (string "pending")
    (subscript_dict _ _ _ (by simp)) (subscript_dict _ _ _ (by simp)) readable stored
  refine (bind_ok _ _ _).mpr
    ⟨_, congrArg (translating _) read, (bind_ok _ _ _).mpr ⟨(), by simp [ensure], ?_⟩⟩
  rw [if_pos rfl]
  refine (bind_ok _ _ _).mpr ⟨(), ?_, rfl⟩
  rw [pendingReceipt, get_item_dict, get_item_dict]
  simp [ensure]

end

end CalibrationLedger
