import CalibrationLedger.Calendar
import CalibrationLedger.Soundness

set_option autoImplicit false

-- A sealed receipt in which one of the fields its event is displayed with is replaced.
namespace CalibrationLedger

open JsonText Digest HashTree Interleaving

def eventViewFields : List String :=
  ["sequence", "event_id", "record_id", "event_type", "business_key", "content_fingerprint",
    "instrument_id", "operator_id", "report_digest", "previous_event_id", "reason", "occurred_at",
    "leaf_hash"]

def replaceMember (key : String) (value : Json) (members : Dict) : Dict :=
  members.map fun entry => if entry.1 = text key then (entry.1, value) else entry

def withEventField (receipt : Dict) (field : String) (value : Json) : Dict :=
  replaceMember "event" (.obj (replaceMember field value (dictOf (getItem "event" receipt)))) receipt

theorem member_replaced (key other : String) (value : Json) (members : Dict) :
    member (text other) (replaceMember key value members) =
      if other = key then (member (text key) members).map fun _ =>
        value else member (text other) members := by
  have kept : ((fun entry : Text × Json => decide (entry.1 = text other)) ∘
      fun entry => if entry.1 = text key then (entry.1, value) else entry) =
          fun entry => decide (entry.1 = text other) := by
    funext entry
    by_cases same : entry.1 = text key <;> simp [same]
  rw [member, member, member, replaceMember, List.find?_map, kept]
  by_cases asked : other = key
  · subst asked
    rw [if_pos rfl]
    cases found : members.find? fun entry => decide (entry.1 = text other) with
    | none => rfl
    | some entry =>
        have named : entry.1 = text other := by simpa using List.find?_some found
        simp [named]
  · rw [if_neg asked]
    cases found : members.find? fun entry => decide (entry.1 = text other) with
    | none => rfl
    | some entry =>
        have named : entry.1 = text other := by simpa using List.find?_some found
        have apart : text other ≠ text key := fun same => asked (text_injective _ _ same)
        simp [named, apart]

section

variable (rt : Runtime)

-- The instant a value of occurred_at stands for.
def instantOf : Json → Py Instant
  | .str content =>
      match rt.fromisoformat (replace "Z" "+00:00" content) with
      | some value => value.toUtc
      | none => .error .valueError
  | _ => .error .attributeError

-- Two values of a displayed field stand for the same number, bytes, instant or string.
def SameValue (field : String) (a b : Json) : Prop :=
  match field with
  | "sequence" => pyEq a b = true
  | "leaf_hash" => ∃ left right data, a = .str left ∧ b = .str right ∧ fromhex left = some data ∧
      fromhex right = some data
  | "occurred_at" => ∃ instant, instantOf rt a = .ok instant ∧ instantOf rt b = .ok instant
  | "event_id" => pyStr rt a = pyStr rt b
  | "record_id" => pyStr rt a = pyStr rt b
  | "previous_event_id" => optionalStr rt a = optionalStr rt b
  | _ => a = b

-- The byte strings the verifier hashes of the event itself.
def eventInputs (receipt : Dict) : List Bytes :=
  match eventCommitmentBytes rt (receiptEvent receipt) with
  | .ok data => [0 :: data]
  | .error _ => []

theorem timestamp_instant (value : Json) :
    timestampText rt (.json value) = instantOf rt value >>= fun instant => .ok (utcText instant) := by
  cases value with
  | str content =>
      rw [timestampText, instantOf]
      cases rt.fromisoformat (replace "Z" "+00:00" content) with
      | none => rfl
      | some read =>
          change isoformatUtc read = read.toUtc >>= _
          rw [isoformatUtc]
          cases read.toUtc with
          | error error => rfl
          | ok instant =>
              exact congrArg Except.ok (replace_from_absent _ _ _ _ _ (digits_absent instant '+' (.inl rfl)))
  | _ => rfl

section

variable (event : Event) (field : String) (value : Json)

def replacedView : Dict := replaceMember field value (dict (event.shown rt))

theorem shown_fields (key : String) (shown : key ∈ eventViewFields) :
    ∃ held, member (text key) (dict (event.shown rt)) = some held := by
  refine Option.isSome_iff_exists.mp ?_
  rw [member_dict]
  simp only [eventViewFields, List.mem_cons, List.not_mem_nil, or_false] at shown
  rcases shown with rfl | rfl | rfl | rfl | rfl | rfl | rfl | rfl | rfl | rfl | rfl | rfl | rfl <;>
    simp [Event.shown, Event.commitment, commitmentMembers]

theorem replaced_item (key : String) (shown : field ∈ eventViewFields) :
    getItem key (replacedView rt event field value) = if key =
      field then value else getItem key (dict (event.shown rt)) := by
  obtain ⟨held, found⟩ := shown_fields rt event field shown
  rw [getItem, replacedView, member_replaced, found, getItem]
  split <;> rfl

theorem replaced_subscript (key : String) (other : key ≠ field) :
    subscript key (.obj (replacedView rt event field value)) =
      subscript key (.obj (dict (event.shown rt))) := by
  rw [subscript, subscript, replacedView, member_replaced, if_neg other]

theorem uncommitted_replaced (uncommitted : field = "sequence" ∨ field = "leaf_hash") :
    eventCommitmentBytes rt (jsonFields "occurred_at" (replacedView rt event field value)) =
      eventCommitmentBytes rt (jsonFields "occurred_at" (dict (event.shown rt))) := by
  have shown : field ∈ eventViewFields := by rcases uncommitted with rfl | rfl <;> decide
  have item := fun key => replaced_item rt event field value key shown
  rw [eventCommitmentBytes, eventCommitmentBytes, eventCommitment, eventCommitment]
  rcases uncommitted with rfl | rfl <;> simp [jsonFields, commitmentMembers, item]

theorem sequence_unread :
    parsedEventBytes rt (replacedView rt event "sequence" value) =
      parsedEventBytes rt (dict (event.shown rt)) := by
  have item := fun key => replaced_item rt event "sequence" value key (by decide)
  simp [parsedEventBytes, eventCommitment, named, jsonFields, commitmentMembers, item]

theorem shown_instant (readable : Readable rt event.occurredAt) :
    instantOf rt (getItem "occurred_at" (dict (event.shown rt))) = .ok event.occurredAt := by
  have item : getItem "occurred_at" (dict (event.shown rt)) = .str (utcText event.occurredAt) := by
    simp [get_item_dict, Event.shown, Event.commitment, commitmentMembers]
  have bound := event.occurredAt.bound
  rw [item, instantOf, replace_utc_text, readable]
  simp [DateTime.toUtc, bound]

theorem committed_same (shown : field ∈ eventViewFields) (counted : field ≠ "sequence")
    (hashed : field ≠ "leaf_hash") (readable : Readable rt event.occurredAt)
    (same : eventCommitment rt (jsonFields "occurred_at" (replacedView rt event field value)) =
      eventCommitment rt event.fields) :
    SameValue rt field value (getItem field (dict (event.shown rt))) := by
  have item := fun key => replaced_item rt event field value key shown
  rw [event_commitment_row] at same
  obtain ⟨occurred, read, shape⟩ := (bind_ok _ _ _).mp same
  have members := (dict_injective _ _ (Except.ok.inj shape)).trans (shown_commitment rt event).symm
  simp only [commitmentMembers, jsonFields, item, List.cons.injEq, Prod.mk.injEq, true_and, and_true,
    Value.str.injEq] at members read
  simp only [eventViewFields, List.mem_cons, List.not_mem_nil, or_false] at shown
  rcases shown with rfl | rfl | rfl | rfl | rfl | rfl | rfl | rfl | rfl | rfl | rfl | rfl | rfl
  case inr.inr.inr.inr.inr.inr.inr.inr.inr.inr.inr.inl =>
    obtain ⟨_, _, _, _, _, _, _, _, _, _, written⟩ := members
    rw [if_pos rfl, timestamp_instant] at read
    obtain ⟨instant, stands, texts⟩ := (bind_ok _ _ _).mp read
    have equal := utc_text_injective instant event.occurredAt ((Except.ok.inj texts).trans written)
    exact ⟨event.occurredAt, by rw [stands, equal], shown_instant rt event readable⟩
  all_goals first | exact absurd rfl counted | exact absurd rfl hashed | skip
  all_goals
    simp at members
    exact members.1

end

theorem verified_claim (receipt : Dict) (keyring : Keyring) (result : Verification)
    (verified : verifyReceipt rt receipt keyring = .ok result) :
    ∃ data, eventCommitmentBytes rt (receiptEvent receipt) = .ok data ∧
      decodeHash (getItem "leaf_hash" (dictOf (getItem "event" receipt))) "event.leaf_hash" =
        .ok (leafHash rt.toHashFunction data) := by
  obtain ⟨stage, read, verified⟩ := (bind_ok _ _ _).mp verified
  obtain ⟨passed, claims, _⟩ := (bind_ok _ _ _).mp verified
  have claimed : stage.claimedLeaf = stage.calculatedLeaf := by simpa using ensure_ok _ _ _ claims
  obtain ⟨event, found, read⟩ := (bind_ok _ _ _).mp (translating_ok _ _ _ read)
  obtain ⟨_, _, read⟩ := (bind_ok _ _ _).mp read
  obtain ⟨leaf, foundLeaf, read⟩ := (bind_ok _ _ _).mp read
  obtain ⟨claim, decoded, read⟩ := (bind_ok _ _ _).mp read
  obtain ⟨data, written, whole⟩ := (bind_ok _ _ _).mp read
  cases whole
  have item : getItem "event" receipt = event := subscript_item "event" (.obj receipt) event found
  refine ⟨data, by rw [receiptEvent, item]; exact parsed_event_ok rt _ data written, ?_⟩
  rw [item, subscript_item "leaf_hash" event leaf foundLeaf, decoded]
  exact congrArg Except.ok claimed

section

variable (event : Event) (field : String) (value : Json) (view : Dict) (index leafCount : Nat)
  (path : List InclusionStep) (consistency : Json)

theorem event_replaced :
    withEventField (receiptOf (dict (event.shown rt)) view index leafCount path consistency) field value =
    receiptOf (replacedView rt event field value) view index leafCount path consistency := by
  have other : ∀ name : String, name ≠ "event" → text name ≠ text "event" := fun name different same =>
    different (text_injective _ _ same)
  rw [withEventField, receiptOf, get_item_dict]
  simp [replaceMember, replacedView, dict, dictOf, receiptOf, other]

theorem receipt_event (shown : Dict) :
    getItem "event" (receiptOf shown view index leafCount path consistency) = .obj shown := by
  rw [receiptOf, get_item_dict]
  simp

theorem replaced_refused (shown : field ∈ eventViewFields) (counted : field ≠ "sequence")
    (other : ¬ SameValue rt field value (getItem field (dict (event.shown rt))))
    (readable : Readable rt event.occurredAt) (stored : event.leafHash = hex (rowLeaf rt event))
    (free : CollisionFree rt.toHashFunction
      (eventInputs rt (receiptOf (dict (event.shown rt)) view index leafCount path consistency) ++
      eventInputs rt (receiptOf (replacedView rt event field value) view index leafCount path consistency)))
    (keyring : Keyring) (result : Verification) :
    verifyReceipt rt
        (receiptOf (replacedView rt event field value) view index leafCount path consistency) keyring ≠
          .ok result := by
  intro verified
  obtain ⟨data, written, claimed⟩ := verified_claim rt _ keyring result verified
  rw [receipt_event, dictOf, replaced_item rt event field value "leaf_hash" shown] at claimed
  have own : getItem "leaf_hash" (dict (event.shown rt)) = string event.leafHash := by
    simp [get_item_dict, Event.shown, Event.commitment, commitmentMembers]
  have written' := written
  rw [receiptEvent, receipt_event, dictOf] at written'
  by_cases hashed : "leaf_hash" = field
  · subst hashed
    rw [uncommitted_replaced rt event "leaf_hash" value (.inr rfl),
      shown_event_commits rt event readable] at written'
    cases written'
    rw [if_pos rfl] at claimed
    obtain ⟨_, content, rfl, decoded⟩ := decode_hash_ok _ _ _ claimed
    refine other ⟨content, text event.leafHash, _, rfl, own, decoded, ?_⟩
    rw [stored, fromhex_hex]
    rfl
  · rw [if_neg hashed, own, stored] at claimed
    have leaf : rowLeaf rt event = leafHash rt.toHashFunction data := by
      rw [decode_hash_hex (rowLeaf rt event) _ (rt.digest_length _)] at claimed
      exact Except.ok.inj claimed
    have original : eventInputs rt
        (receiptOf (dict (event.shown rt)) view index leafCount path consistency) =
          [0 :: event.bytes rt] := by
      rw [eventInputs, receiptEvent, receipt_event, dictOf, shown_event_commits rt event readable]
    have tampered : eventInputs rt
      (receiptOf (replacedView rt event field value) view index leafCount path consistency) =
        [0 :: data] := by rw [eventInputs, written]
    rw [original, tampered] at free
    have equal := free (0 :: event.bytes rt) (by simp) (0 :: data) (by simp) leaf
    rw [← (List.cons.inj equal).2] at written'
    exact other (committed_same rt event field value shown counted (Ne.symm hashed) readable
        (event_bytes_pin rt _ event written'))

theorem member_beside (shown : Dict) (key : String) (other : key ≠ "event") :
    member (text key) (receiptOf shown view index leafCount path consistency) =
      member (text key) (receiptOf [] view index leafCount path consistency) := by
  rw [receiptOf, receiptOf, member_dict, member_dict]
  simp [Ne.symm other]

theorem read_event_parts (shown : Dict) :
    readEvent rt (receiptOf shown view index leafCount path consistency) = do
      let claimedLeaf ← decodeHash (← subscript "leaf_hash" (.obj shown)) "event.leaf_hash"
      let data ← parsedEventBytes rt shown
      return ⟨string "sealed", claimedLeaf, leafHash rt.toHashFunction data⟩ := by
  have found : subscript "event" (.obj (receiptOf shown view index leafCount path consistency)) =
      .ok (.obj shown) :=
    subscript_dict _ _ _ (by simp)
  have status : subscript "witness_status"
      (.obj (receiptOf shown view index leafCount path consistency)) = .ok (string "sealed") :=
    subscript_dict _ _ _ (by simp)
  rw [readEvent, found, status]
  rfl

theorem resequenced (keyring : Keyring) :
    verifyReceipt rt
      (receiptOf (replacedView rt event "sequence" value) view index leafCount path consistency) keyring =
      verifyReceipt rt (receiptOf (dict (event.shown rt)) view index leafCount path consistency) keyring := by
  have beside := fun shown key => member_beside view index leafCount path consistency shown key
  have read : readEvent rt
    (receiptOf (replacedView rt event "sequence" value) view index leafCount path consistency) =
      readEvent rt (receiptOf (dict (event.shown rt)) view index leafCount path consistency) := by
    rw [read_event_parts, read_event_parts, replaced_subscript rt event "sequence" value "leaf_hash"
      (by decide), sequence_unread]
  have checkpoint := fun shown => beside shown "checkpoint" (by decide)
  have proof := fun shown => beside shown "inclusion_proof" (by decide)
  have consistent := fun shown => beside shown "consistency_proof" (by decide)
  simp only [verifyReceipt, read, verifyPending, verifySealed, readInclusion, verifyPredecessor,
    subscript, getItem, checkpoint, proof,
    consistent]

end

section

variable (ledger : Ledger) (event : Event) (checkpoint : Checkpoint) (service keyring : Keyring)

theorem sealed_built (eventId : Uuid) (receipt : Dict)
    (built : buildReceipt rt ledger eventId service = .ok receipt)
    (stands : getItem "witness_status" receipt = string "sealed") :
    ∃ event ∈ ledger.events.rows, ∃ checkpoint ∈ ledger.checkpoints,
      event.sequence ≤ checkpoint.lastEventSequence ∧
      buildReceiptAtCheckpoint rt ledger event checkpoint service = .ok receipt := by
  unfold buildReceipt at built
  split at built
  · cases built
  · rename_i event found
    obtain ⟨data, _, built⟩ := (bind_ok _ _ _).mp built
    split at built
    · cases built
    · split at built
      · obtain ⟨view, _, whole⟩ := (bind_ok _ _ _).mp built
        cases whole
        rw [pendingReceipt, get_item_dict] at stands
        exact absurd stands (by simp [string, text])
      · rename_i checkpoint newest
        obtain ⟨member, _⟩ := latest_some _ checkpoint newest
        obtain ⟨inside, covers⟩ := List.mem_filter.mp member
        exact ⟨event, List.mem_of_find?_eq_some found, checkpoint, inside, by simpa using covers, built⟩

theorem built_shape (receipt : Dict)
    (built : buildReceiptAtCheckpoint rt ledger event checkpoint service = .ok receipt) :
    ∃ index path consistency, receipt =
      receiptOf (dict (event.shown rt))
        (dict (checkpoint.shown rt)) index checkpoint.leafCount path consistency := by
  obtain ⟨⟨events, leaves⟩, _, built⟩ := (bind_ok _ _ _).mp built
  dsimp only at built
  split at built
  · cases built
  · rename_i index _
    obtain ⟨consistency, _, built⟩ := (bind_ok _ _ _).mp built
    obtain ⟨path, _, built⟩ := (bind_ok _ _ _).mp built
    rw [event_view_shown, checkpoint_view_shown] at built
    cases built
    exact ⟨index, path, consistency, rfl⟩

theorem bundle_alike (leaves : List Bytes) (left right : Json)
    (first : buildConsistencyBundle rt ledger checkpoint leaves service = .ok left)
    (second : buildConsistencyBundle rt ledger checkpoint leaves keyring = .ok right) : left = right := by
  unfold buildConsistencyBundle at first second
  cases link : checkpoint.previousCheckpointId with
  | none =>
      rw [link] at first second
      cases first
      cases second
      rfl
  | some previousId =>
      rw [link] at first second
      dsimp only at first second
      split at first
      · cases first
      · rename_i previous found
        rw [found] at second
        obtain ⟨_, _, first⟩ := (bind_ok _ _ _).mp first
        obtain ⟨_, _, second⟩ := (bind_ok _ _ _).mp second
        rw [first] at second
        exact Except.ok.inj second

theorem built_alike (left right : Dict)
    (first : buildReceiptAtCheckpoint rt ledger event checkpoint service = .ok left)
    (second : buildReceiptAtCheckpoint rt ledger event checkpoint keyring = .ok right) :
    left = right := by
  obtain ⟨⟨events, leaves⟩, passed, first⟩ := (bind_ok _ _ _).mp first
  obtain ⟨⟨others, hashes⟩, checked, second⟩ := (bind_ok _ _ _).mp second
  obtain ⟨_, rfl, rfl⟩ := validated_prefix_passed rt ledger.events checkpoint service events leaves passed
  obtain ⟨_, rfl, rfl⟩ := validated_prefix_passed rt ledger.events checkpoint keyring others hashes checked
  dsimp only at first second
  split at first
  · cases first
  · rename_i index found
    rw [found] at second
    obtain ⟨consistency, bundled, first⟩ := (bind_ok _ _ _).mp first
    obtain ⟨other, also, second⟩ := (bind_ok _ _ _).mp second
    rw [bundle_alike rt ledger checkpoint keyring service _ other consistency also bundled, first] at second
    exact Except.ok.inj second

end

section

variable {ι : Type} [DecidableEq ι] [Fintype ι]

-- Of the fields a sealed receipt displays of its event, the sequence alone can be
-- replaced unnoticed.
theorem event_fields_are_bound (calls : ι → Call) (config : Config (postgres ι) (Py Outcome))
    (reached : Reaches (postgres ι) (start rt calls) config)
    (legible : Legible rt config.store.toLedger) (eventId : Uuid) (service : Keyring) (receipt : Dict)
    (built : buildReceipt rt config.store.toLedger eventId service = .ok receipt)
    (stands : getItem "witness_status" receipt = string "sealed") (field : String)
    (shown : field ∈ eventViewFields) (value : Json)
    (other : ¬ SameValue rt field value (getItem field (dictOf (getItem "event" receipt))))
    (free : CollisionFree rt.toHashFunction
      (eventInputs rt receipt ++ eventInputs rt (withEventField receipt field value)))
    (keyring : Keyring) (holds : HoldsKeys (SigningKey calls) keyring config.store.checkpoints) :
    (∀ result, verifyReceipt rt (withEventField receipt field value) keyring = .ok result →
      result.witnessed = false) ↔
      field ≠ "sequence" := by
  have sound := history_sound rt calls config reached
  obtain ⟨event, committed, checkpoint, member, below, built⟩ :=
    sealed_built rt _ service eventId receipt built stands
  obtain ⟨index, path, consistency, rfl⟩ := built_shape rt _ event checkpoint service receipt built
  rw [event_replaced] at free ⊢
  rw [receipt_event, dictOf] at other
  constructor
  · rintro refused rfl
    have needed := needed_keys _ keyring _ checkpoint holds
    obtain ⟨bundled, rebuilt, preceded⟩ :=
      sound_preceded rt _ config.store sound legible keyring checkpoint member keyring needed needed
    obtain ⟨place, inside⟩ :=
      covered_at config.store.events checkpoint.lastEventSequence event committed below
    have own := own_key _ keyring _ checkpoint member needed
    have again := built_at_checkpoint rt _ config.store sound keyring checkpoint member own bundled
      event place rebuilt inside
    have accepted :=
      receipt_verifies rt _ config.store sound legible keyring checkpoint member own bundled preceded
        event place inside
    rw [← built_alike rt _ event checkpoint service keyring _ _ built again, ← resequenced] at accepted
    cases refused _ accepted
  · intro counted result verified
    refine absurd verified
      (replaced_refused rt event field value _ index _ path consistency shown counted other
      (legible.events event committed) (sound.rows event (.inl committed)).1.leaf free keyring result)

end

end

def sampleReceipt : Dict :=
  receiptOf (dict (sampleEvent.shown reference)) (dict (sampleCheckpoint.shown reference)) 0 1 [] .null

theorem sample_receipt_built : ∃ config, Reaches (postgres Bool) (start reference sampleCalls) config ∧
    Legible reference config.store.toLedger ∧
    buildReceipt reference config.store.toLedger (sampleUuid 1) sampleKeyring = .ok sampleReceipt ∧
    verifyReceipt reference sampleReceipt sampleKeyring =
      .ok ⟨true, true, some (text sampleCheckpoint.checkpointId.toText)⟩ := by
  obtain ⟨config, reached, rows, checkpoints, _⟩ := sample_run
  have sound := history_sound reference sampleCalls config reached
  have legible := sample_legible config.store.toLedger rows checkpoints
  have member : sampleCheckpoint ∈ config.store.checkpoints := by
    rw [checkpoints]
    exact List.mem_singleton_self _
  have committed : sampleEvent ∈ config.store.events.rows := by
    rw [rows]
    exact List.mem_singleton_self _
  have covered : config.store.events.upTo sampleCheckpoint.lastEventSequence = [sampleEvent] := by
    rw [EventTable.upTo, rows]
    decide
  have keys : HoldsKeys (SigningKey sampleCalls) sampleKeyring [sampleCheckpoint] := fun _ _ => sample_keys _
  have whole : receiptAt reference config.store.events sampleCheckpoint .null sampleEvent 0 =
      sampleReceipt := by
    rw [receiptAt, leavesOf, covered, walk, if_pos (by simp), sampleReceipt]
    rfl
  have inside : (config.store.events.upTo sampleCheckpoint.lastEventSequence)[0]? = some sampleEvent := by
    rw [covered]
    rfl
  have built := built_at_checkpoint reference _ config.store sound sampleKeyring sampleCheckpoint member
    keys .null sampleEvent 0 rfl inside
  have verified :=
    receipt_verifies reference _ config.store sound legible sampleKeyring sampleCheckpoint member keys
      .null ⟨rfl, rfl⟩
    sampleEvent 0 inside
  rw [whole] at built verified
  refine ⟨config, reached, legible, ?_, verified⟩
  change buildReceipt reference config.store.toLedger sampleEvent.eventId sampleKeyring = _
  rw [receipt_built reference _ config.store sound sampleKeyring sampleEvent committed, checkpoints]
  exact built

theorem sample_item (field : String) :
    getItem field (dictOf (getItem "event" sampleReceipt)) =
      getItem field (dict (sampleEvent.shown reference)) := by
  rw [sampleReceipt, receipt_event, dictOf]

theorem sample_stands : getItem "witness_status" sampleReceipt = string "sealed" := by
  rw [sampleReceipt, receiptOf, get_item_dict]
  simp

theorem sample_inputs (field : String) (value : Json)
    (uncommitted : field = "sequence" ∨ field = "leaf_hash") :
    eventInputs reference sampleReceipt ++ eventInputs reference (withEventField sampleReceipt field value) =
      [0 :: sampleEvent.bytes reference, 0 :: sampleEvent.bytes reference] := by
  rw [sampleReceipt, event_replaced, eventInputs, eventInputs, receiptEvent, receiptEvent,
    receipt_event, receipt_event, dictOf, dictOf,
    uncommitted_replaced reference sampleEvent field value uncommitted,
    shown_event_commits reference sampleEvent sample_readable]
  rfl

theorem sample_collision_free (field : String) (value : Json)
    (uncommitted : field = "sequence" ∨ field = "leaf_hash") :
    CollisionFree reference.toHashFunction
      (eventInputs reference sampleReceipt ++ eventInputs reference
        (withEventField sampleReceipt field value)) := by
  rw [sample_inputs field value uncommitted]
  intro a left b right _
  simp only [List.mem_cons, List.not_mem_nil, or_false, or_self] at left right
  rw [left, right]

theorem sample_field_bound : ¬ ∃ result,
    verifyReceipt reference (withEventField sampleReceipt "leaf_hash" (string "00")) sampleKeyring =
      .ok result ∧ result.witnessed = true := by
  obtain ⟨config, reached, legible, built, _⟩ := sample_receipt_built
  rintro ⟨result, verified, witnessed⟩
  have refused := (event_fields_are_bound reference sampleCalls config reached legible
    (sampleUuid 1) sampleKeyring sampleReceipt built sample_stands "leaf_hash" (by decide) (string "00") ?_
      (sample_collision_free _ _ (.inr rfl)) sampleKeyring
    (fun _ _ => sample_keys _)).mpr (by decide) result verified
  · rw [witnessed] at refused
    cases refused
  · rintro ⟨left, right, data, short, long, first, second⟩
    have stored : getItem "leaf_hash" (dict (sampleEvent.shown reference)) = string sampleEvent.leafHash := by
      rw [get_item_dict]
      simp [Event.shown, Event.commitment, commitmentMembers]
    rw [sample_item, stored] at long
    cases short
    cases long
    have apart : fromhex (text "00") ≠ fromhex (text sampleEvent.leafHash) := by decide +kernel
    exact apart (first.trans second.symm)

-- Event 1 shown as event 7.
theorem resequenced_receipt_accepted :
    ∃ config, Reaches (postgres Bool) (start reference sampleCalls) config ∧
    buildReceipt reference config.store.toLedger (sampleUuid 1) sampleKeyring = .ok sampleReceipt ∧
    getItem "witness_status" sampleReceipt = string "sealed" ∧
    ¬ SameValue reference "sequence" (.int 7) (getItem "sequence" (dictOf (getItem "event" sampleReceipt))) ∧
    CollisionFree reference.toHashFunction
      (eventInputs reference sampleReceipt ++ eventInputs reference
        (withEventField sampleReceipt "sequence" (.int 7))) ∧
    verifyReceipt reference (withEventField sampleReceipt "sequence" (.int 7)) sampleKeyring =
      .ok ⟨true, true, some (text sampleCheckpoint.checkpointId.toText)⟩ := by
  obtain ⟨config, reached, _, built, verified⟩ := sample_receipt_built
  refine ⟨config, reached, built, sample_stands, ?_, ?_, ?_⟩
  · have first : getItem "sequence" (dict (sampleEvent.shown reference)) = .int 1 := by
      rw [get_item_dict]
      simp [Event.shown, sampleEvent]
    rw [sample_item, first]
    change ¬ pyEq (.int 7) (.int 1) = true
    decide
  · exact sample_collision_free _ _ (.inl rfl)
  · rw [sampleReceipt, event_replaced, resequenced]
    exact verified

end CalibrationLedger
