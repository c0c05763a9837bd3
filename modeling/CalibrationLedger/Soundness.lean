import CalibrationLedger.Completeness
import CalibrationLedger.Submissions

set_option autoImplicit false

-- What an accepted receipt says about the ledger it came from.
namespace CalibrationLedger

open JsonText Digest HashTree Interleaving

theorem translating_ok {α : Type} (reason : String) (outcome : Py α) (value : α)
    (made : translating reason outcome = .ok value) : outcome = .ok value := by
  cases outcome with
  | ok found => exact made
  | error error => cases error <;> cases made

theorem ensure_ok (condition : Bool) (reason : String) (passed : Unit)
    (made : ensure condition reason = .ok passed) :
    condition = true := by
  unfold ensure at made
  split at made
  · assumption
  · cases made

theorem subscript_item (key : String) (data value : Json) (read : subscript key data = .ok value) :
    getItem key (dictOf data) = value := by
  cases data with
  | obj members =>
      rw [subscript] at read
      split at read
      · rename_i found held
        cases read
        rw [getItem, dictOf, held, Option.getD_some]
      · cases read
  | _ => cases read

theorem decode_hash_ok (value : Json) (field : String) (data : Bytes)
    (decoded : decodeHash value field = .ok data) :
    data.length = 32 ∧ ∃ content, value = .str content ∧ fromhex content = some data := by
  unfold decodeHash at decoded
  split at decoded
  · rename_i content
    split at decoded
    · rename_i found hexadecimal
      split at decoded
      · cases decoded
      · rename_i width
        cases decoded
        exact ⟨by simpa using width, content, rfl, hexadecimal⟩
    · cases decoded
  · cases decoded

section

variable (rt : Runtime)

-- The objects and values of a receipt the verifier goes by.
def receiptEvent (receipt : Dict) : Fields := jsonFields "occurred_at" (dictOf (getItem "event" receipt))

def receiptCheckpoint (receipt : Dict) : Json := getItem "checkpoint" receipt

def receiptOldCheckpoint (receipt : Dict) : Json :=
  getItem "old_checkpoint" (dictOf (getItem "consistency_proof" receipt))

def receiptLeafIndex (receipt : Dict) : Json :=
  getItem "leaf_index" (dictOf (getItem "inclusion_proof" receipt))

def receiptSteps (receipt : Dict) : Py (List InclusionStep) := do
  let path ← iterate (getItem "path" (dictOf (getItem "inclusion_proof" receipt)))
  let steps ← readSteps 0 path
  readSides steps

-- The byte strings the verifier hashes on the way from the event to the root.
def receiptInputs (receipt : Dict) : List Bytes :=
  match eventCommitmentBytes rt (receiptEvent receipt), receiptSteps receipt with
  | .ok data, .ok steps =>
      (0 :: data) :: climbInputs rt.toHashFunction (leafHash rt.toHashFunction data) steps
  | _, _ => []

-- A checkpoint object whose signature verifies was signed as a stored checkpoint.
def Unforged (keyring : Keyring) (checkpoints : List Checkpoint) (data : Json) : Prop :=
  ∀ signature key payload, signedCheckpointFields rt data keyring = .ok (signature, key, payload) →
    verifyCheckpointSignature rt.toHashFunction payload signature key = .ok true →
      ∃ checkpoint ∈ checkpoints, checkpointSigningBytes rt checkpoint.fields = .ok payload

theorem signed_fields_written (data : Json) (keyring : Keyring) (fields : Text × Bytes × Bytes)
    (read : signedCheckpointFields rt data keyring = .ok fields) :
    ∃ payload, checkpointSigningBytes rt (jsonFields "created_at" (dictOf data)) = .ok payload ∧
    payload = fields.2.2 := by
  obtain ⟨_, _, rest⟩ := (bind_ok _ _ _).mp read
  obtain ⟨_, _, rest⟩ := (bind_ok _ _ _).mp rest
  obtain ⟨_, _, rest⟩ := (bind_ok _ _ _).mp rest
  obtain ⟨_, _, rest⟩ := (bind_ok _ _ _).mp rest
  obtain ⟨_, _, rest⟩ := (bind_ok _ _ _).mp rest
  obtain ⟨payload, written, rest⟩ := (bind_ok _ _ _).mp rest
  cases rest
  exact ⟨payload, parsed_checkpoint_ok rt _ payload written, rfl⟩

theorem signed_checkpoint_stored (data : Json) (keyring : Keyring) (checkpoints : List Checkpoint)
    (unforged : Unforged rt keyring checkpoints data)
    (verified : verifySignedCheckpoint rt data keyring = .ok ()) :
    ∃ checkpoint ∈ checkpoints,
      checkpointPayload rt (jsonFields "created_at" (dictOf data)) =
        checkpointPayload rt checkpoint.fields := by
  obtain ⟨⟨signature, key, payload⟩, read, checked⟩ := (bind_ok _ _ _).mp verified
  have fields := translating_ok _ _ _ read
  obtain ⟨genuine, matched, outcome⟩ := (bind_ok _ _ _).mp checked
  split at outcome
  · rename_i accepted
    rw [accepted] at matched
    obtain ⟨checkpoint, member, signed⟩ := unforged signature key payload fields matched
    refine ⟨checkpoint, member, checkpoint_bytes_pin rt _ checkpoint ?_⟩
    obtain ⟨found, written, same⟩ := signed_fields_written rt data keyring _ fields
    rw [written, same, ← signed, checkpoint_bytes]
  · cases outcome

theorem dict_injective (a b : List (String × Json)) (same : dict a = dict b) : a = b := by
  refine List.map_injective_iff.mpr (fun x y equal => ?_) same
  obtain ⟨names, values⟩ := Prod.mk.inj equal
  exact Prod.ext (text_injective _ _ names) values

theorem payload_fields (data : Fields) (checkpoint : Checkpoint)
    (same : checkpointPayload rt data = checkpointPayload rt checkpoint.fields) :
    pyStr rt (data.get "checkpoint_id") = text checkpoint.checkpointId.toText ∧
      data.get "leaf_count" = .int checkpoint.leafCount ∧ data.get "root_hash" = string checkpoint.rootHash ∧
      optionalStr rt (data.get "previous_checkpoint_id") =
        optional (checkpoint.previousCheckpointId.map Uuid.toText) := by
  rw [checkpoint_payload_row] at same
  obtain ⟨created, _, shape⟩ := (bind_ok _ _ _).mp same
  have members := dict_injective _ _ (Except.ok.inj shape)
  simp only [Checkpoint.payload, payloadMembers, List.cons.injEq, Prod.mk.injEq, true_and, and_true,
    Value.str.injEq] at members
  obtain ⟨id, count, _, root, previous, _⟩ := members
  refine ⟨id, count, root, previous.trans ?_⟩
  exact optional_str rt _

theorem read_event_ok (receipt : Dict) (stage : EventStage) (read : readEvent rt receipt = .ok stage) :
    ∃ data, eventCommitmentBytes rt (receiptEvent receipt) = .ok data ∧
      stage.calculatedLeaf = leafHash rt.toHashFunction data := by
  obtain ⟨event, found, read⟩ := (bind_ok _ _ _).mp read
  obtain ⟨_, _, read⟩ := (bind_ok _ _ _).mp read
  obtain ⟨_, _, read⟩ := (bind_ok _ _ _).mp read
  obtain ⟨_, _, read⟩ := (bind_ok _ _ _).mp read
  obtain ⟨data, written, whole⟩ := (bind_ok _ _ _).mp read
  cases whole
  have item : getItem "event" receipt = event := subscript_item "event" (.obj receipt) event found
  exact ⟨data, by rw [receiptEvent, item]; exact parsed_event_ok rt _ data written, rfl⟩

theorem read_inclusion_ok (receipt : Dict) (keyring : Keyring) (leaf : Bytes) (stage : InclusionStage)
    (read : readInclusion rt receipt keyring leaf = .ok stage) :
    stage.checkpoint = receiptCheckpoint receipt ∧
    verifySignedCheckpoint rt stage.checkpoint keyring = .ok () ∧
      decodeHash (getItem "root_hash" (dictOf stage.checkpoint)) "checkpoint.root_hash" =
        .ok stage.expectedRoot ∧
      ∃ steps treeSize leafIndex, receiptSteps receipt = .ok steps ∧
        pyInt rt (getItem "leaf_count" (dictOf stage.checkpoint)) = .ok treeSize ∧
        pyInt rt (receiptLeafIndex receipt) = .ok leafIndex ∧
        stage.included =
          verifyInclusion rt.toHashFunction leaf leafIndex treeSize steps stage.expectedRoot := by
  obtain ⟨checkpoint, foundCheckpoint, read⟩ := (bind_ok _ _ _).mp read
  obtain ⟨proof, foundProof, read⟩ := (bind_ok _ _ _).mp read
  obtain ⟨_, verified, read⟩ := (bind_ok _ _ _).mp read
  obtain ⟨rootHash, foundRoot, read⟩ := (bind_ok _ _ _).mp read
  obtain ⟨expectedRoot, decoded, read⟩ := (bind_ok _ _ _).mp read
  obtain ⟨pathValue, foundPath, read⟩ := (bind_ok _ _ _).mp read
  obtain ⟨path, iterated, read⟩ := (bind_ok _ _ _).mp read
  obtain ⟨raw, readRaw, read⟩ := (bind_ok _ _ _).mp read
  obtain ⟨steps, stood, read⟩ := (bind_ok _ _ _).mp read
  obtain ⟨sizeValue, _, read⟩ := (bind_ok _ _ _).mp read
  obtain ⟨treeSize, _, read⟩ := (bind_ok _ _ _).mp read
  obtain ⟨countValue, foundCount, read⟩ := (bind_ok _ _ _).mp read
  obtain ⟨leafCount, counted, read⟩ := (bind_ok _ _ _).mp read
  obtain ⟨_, sized, read⟩ := (bind_ok _ _ _).mp read
  obtain ⟨indexValue, foundIndex, read⟩ := (bind_ok _ _ _).mp read
  obtain ⟨leafIndex, indexed, whole⟩ := (bind_ok _ _ _).mp read
  cases whole
  have item : getItem "checkpoint" receipt = checkpoint :=
    subscript_item "checkpoint" (.obj receipt) checkpoint foundCheckpoint
  have proofItem : getItem "inclusion_proof" receipt = proof :=
    subscript_item "inclusion_proof" (.obj receipt) proof foundProof
  have sizes : treeSize = leafCount := by simpa using ensure_ok _ _ _ sized
  refine ⟨item.symm, verified, ?_, steps, leafCount, leafIndex, ?_, ?_, ?_, by rw [sizes]⟩
  · rw [subscript_item _ _ _ foundRoot]
    exact decoded
  · rw [receiptSteps, proofItem, subscript_item _ _ _ foundPath]
    exact (bind_ok _ _ _).mpr ⟨path, iterated, (bind_ok _ _ _).mpr ⟨raw, readRaw, stood⟩⟩
  · rw [subscript_item _ _ _ foundCount]
    exact counted
  · rw [receiptLeafIndex, proofItem, subscript_item _ _ _ foundIndex]
    exact indexed

theorem read_consistency_ok (checkpoint consistency previousId : Json) (keyring : Keyring)
    (expectedRoot : Bytes) (consistent : Bool)
    (read : readConsistency rt checkpoint consistency previousId keyring expectedRoot = .ok consistent) :
    verifySignedCheckpoint rt (getItem "old_checkpoint" (dictOf consistency)) keyring = .ok () ∧
      pyStr rt (getItem "checkpoint_id" (dictOf (getItem "old_checkpoint" (dictOf consistency)))) =
        pyStr rt previousId := by
  obtain ⟨old, foundOld, read⟩ := (bind_ok _ _ _).mp read
  obtain ⟨_, verified, read⟩ := (bind_ok _ _ _).mp read
  obtain ⟨oldId, foundId, read⟩ := (bind_ok _ _ _).mp read
  obtain ⟨_, adjacent, _⟩ := (bind_ok _ _ _).mp read
  rw [subscript_item _ _ _ foundOld, subscript_item _ _ _ foundId]
  exact ⟨verified, by simpa using ensure_ok _ _ _ adjacent⟩

theorem verify_sealed_ok (receipt : Dict) (keyring : Keyring) (leaf : Bytes) (result : Verification)
    (verified : verifySealed rt receipt keyring leaf = .ok result) :
    ∃ stage, readInclusion rt receipt keyring leaf = .ok stage ∧ stage.included = true ∧
      verifyPredecessor rt receipt keyring stage.checkpoint stage.expectedRoot = .ok () := by
  obtain ⟨stage, read, verified⟩ := (bind_ok _ _ _).mp verified
  obtain ⟨_, included, verified⟩ := (bind_ok _ _ _).mp verified
  obtain ⟨_, preceded, _⟩ := (bind_ok _ _ _).mp verified
  exact ⟨stage, translating_ok _ _ _ read, ensure_ok _ _ _ included, preceded⟩

theorem verify_receipt_ok (receipt : Dict) (keyring : Keyring) (result : Verification)
    (verified : verifyReceipt rt receipt keyring = .ok result) (witnessed : result.witnessed = true) :
    ∃ stage, readEvent rt receipt = .ok stage ∧
    verifySealed rt receipt keyring stage.calculatedLeaf = .ok result := by
  obtain ⟨stage, read, verified⟩ := (bind_ok _ _ _).mp verified
  obtain ⟨_, _, verified⟩ := (bind_ok _ _ _).mp verified
  refine ⟨stage, translating_ok _ _ _ read, ?_⟩
  split at verified
  · obtain ⟨_, _, whole⟩ := (bind_ok _ _ _).mp verified
    cases whole
    cases witnessed
  · split at verified
    · exact verified
    · cases verified

theorem included_row (rows : List Event) (data : Bytes) (index : Int) (steps : List InclusionStep)
    (free : CollisionFree rt.toHashFunction
      ((0 :: data) :: climbInputs rt.toHashFunction (leafHash rt.toHashFunction data) steps ++
      (rows.map (fun row => 0 :: row.bytes rt) ++ rootInputs rt.toHashFunction (rows.map (rowLeaf rt)))))
    (accepted : verifyInclusion rt.toHashFunction (leafHash rt.toHashFunction data) index rows.length steps
      (merkleRoot rt.toHashFunction (rows.map (rowLeaf rt))) = true) :
    0 ≤ index ∧ ∃ row, rows[index.toNat]? = some row ∧ data = row.bytes rt := by
  have counted : ((rows.map (rowLeaf rt)).length : Int) = rows.length := by rw [List.length_map]
  rw [← counted] at accepted
  have apart : CollisionFree rt.toHashFunction (rootInputs rt.toHashFunction (rows.map (rowLeaf rt)) ++
      climbInputs rt.toHashFunction (leafHash rt.toHashFunction data) steps) := by
    refine collision_free_subset _ _ _ (fun input member => ?_) free
    rcases List.mem_append.mp member with root | climbed
    · exact List.mem_append_right _ (List.mem_append_right _ root)
    · exact List.mem_append_left _ (List.mem_cons_of_mem _ climbed)
  obtain ⟨positive, found, _⟩ :=
    inclusion_pins rt.toHashFunction _ (row_leaves_width rt rows) _ index steps apart accepted
  rw [List.getElem?_map] at found
  obtain ⟨row, inside, leaf⟩ := Option.map_eq_some_iff.mp found
  have member : row ∈ rows := List.mem_of_getElem? inside
  have same := free (0 :: row.bytes rt)
    (List.mem_append_right
      _ (List.mem_append_left _ (List.mem_map_of_mem (f := fun row => 0 :: row.bytes rt) member)))
    (0 :: data) (List.mem_append_left _ List.mem_cons_self) leaf
  exact ⟨positive, row, inside, (List.cons.inj same).2.symm⟩

theorem predecessor_stored (receipt : Dict) (keyring : Keyring) (checkpoints : List Checkpoint)
    (checkpoint : Checkpoint) (data : Json) (root : Bytes)
    (unforged : Unforged rt keyring checkpoints (receiptOldCheckpoint receipt))
    (payload : checkpointPayload rt (jsonFields "created_at" (dictOf data)) =
      checkpointPayload rt checkpoint.fields)
    (preceded : verifyPredecessor rt receipt keyring data root = .ok ()) (previousId : Uuid)
    (link : checkpoint.previousCheckpointId = some previousId) :
    ∃ previous ∈ checkpoints, previous.checkpointId = previousId ∧
      checkpointPayload rt (jsonFields "created_at" (dictOf (receiptOldCheckpoint receipt))) =
        checkpointPayload rt previous.fields := by
  obtain ⟨_, _, _, named⟩ := payload_fields rt _ checkpoint payload
  rw [link] at named
  have present : getItem "previous_checkpoint_id" (dictOf data) ≠ .null := by
    intro absent
    rw [show (jsonFields "created_at" (dictOf data)).get "previous_checkpoint_id" =
      .null from absent] at named
    cases named
  have shown : pyStr rt (getItem "previous_checkpoint_id" (dictOf data)) = text previousId.toText := by
    have written : optionalStr rt (getItem "previous_checkpoint_id" (dictOf data)) =
      string previousId.toText := named
    cases item : getItem "previous_checkpoint_id" (dictOf data) <;> rw [item] at written present
    · exact absurd rfl present
    all_goals exact Value.str.inj written
  rw [verifyPredecessor, if_neg present] at preceded
  split at preceded
  · obtain ⟨consistent, read, _⟩ := (bind_ok _ _ _).mp preceded
    obtain ⟨verified, adjacent⟩ :=
      read_consistency_ok rt _ _ _ keyring root consistent (translating_ok _ _ _ read)
    obtain ⟨previous, member, same⟩ := signed_checkpoint_stored rt _ keyring checkpoints unforged verified
    obtain ⟨id, _⟩ := payload_fields rt _ previous same
    refine ⟨previous, member, uuid_text_injective _ _ (text_injective _ _ ?_), same⟩
    calc text previous.checkpointId.toText
        = pyStr rt (getItem "checkpoint_id" (dictOf (receiptOldCheckpoint receipt))) := id.symm
      _ = pyStr rt (getItem "previous_checkpoint_id" (dictOf data)) := adjacent
      _ = text previousId.toText := shown
  · cases preceded

variable {ι : Type} [DecidableEq ι] [Fintype ι]

-- A receipt the verifier calls witnessed shows a checkpoint of the ledger, the event
-- at its place under that checkpoint, and the checkpoint before it.
theorem witnessed_receipts_are_genuine (calls : ι → Call) (config : Config (postgres ι) (Py Outcome))
    (reached : Reaches (postgres ι) (start rt calls) config) (receipt : Dict) (keyring : Keyring)
    (result : Verification)
    (unforged : Unforged rt keyring config.store.checkpoints (receiptCheckpoint receipt))
    (unforgedOld : Unforged rt keyring config.store.checkpoints (receiptOldCheckpoint receipt))
    (free : CollisionFree rt.toHashFunction (receiptInputs rt receipt ++
      config.store.checkpoints.flatMap fun checkpoint =>
        prefixInputs rt config.store.events checkpoint.lastEventSequence))
    (verified : verifyReceipt rt receipt keyring = .ok result) (witnessed : result.witnessed = true) :
    ∃ checkpoint ∈ config.store.checkpoints,
      checkpointPayload rt (jsonFields "created_at" (dictOf (receiptCheckpoint receipt))) =
        checkpointPayload rt checkpoint.fields ∧
      (∃ index row, pyInt rt (receiptLeafIndex receipt) = .ok index ∧ 0 ≤ index ∧
        (config.store.events.upTo checkpoint.lastEventSequence)[index.toNat]? = some row ∧
        eventCommitment rt (receiptEvent receipt) = eventCommitment rt row.fields) ∧
      ∀ previousId, checkpoint.previousCheckpointId = some previousId →
        ∃ previous ∈ config.store.checkpoints, previous.checkpointId = previousId ∧
          checkpointPayload rt (jsonFields "created_at" (dictOf (receiptOldCheckpoint receipt))) =
            checkpointPayload rt previous.fields := by
  obtain ⟨eventStage, readEvent, verified⟩ := verify_receipt_ok rt receipt keyring result verified witnessed
  obtain ⟨data, written, leaf⟩ := read_event_ok rt receipt eventStage readEvent
  obtain ⟨stage, readInclusion, included, preceded⟩ := verify_sealed_ok rt receipt keyring _ result verified
  obtain ⟨shown, signed, root, steps, treeSize, index, path, size, indexed, checked⟩ :=
    read_inclusion_ok rt receipt keyring _ stage readInclusion
  rw [shown] at signed root size preceded
  obtain ⟨checkpoint, member, payload⟩ := signed_checkpoint_stored rt _ keyring _ unforged signed
  refine ⟨checkpoint, member, payload, ?_,
    predecessor_stored rt receipt keyring _ checkpoint _ _ unforgedOld payload preceded⟩
  have covered := sound_covers rt _ config.store (history_sound rt calls config reached) checkpoint member
  obtain ⟨_, count, rootHash, _⟩ := payload_fields rt _ checkpoint payload
  -- The size and the root the proof is checked against are the stored ones.
  have sized : treeSize = (config.store.events.upTo checkpoint.lastEventSequence).length := by
    rw [show getItem "leaf_count" (dictOf (receiptCheckpoint receipt)) =
      .int checkpoint.leafCount from count] at size
    rw [covered.count]
    exact (Except.ok.inj size).symm
  have rooted : stage.expectedRoot =
      merkleRoot rt.toHashFunction
        ((config.store.events.upTo checkpoint.lastEventSequence).map (rowLeaf rt)) := by
    rw [show getItem "root_hash" (dictOf (receiptCheckpoint receipt)) =
      string checkpoint.rootHash from rootHash] at root
    obtain ⟨_, content, is, decoded⟩ := decode_hash_ok _ _ _ root
    cases is
    rw [← covered.root, fromhex_hex] at decoded
    exact (Option.some.inj decoded).symm
  rw [checked, leaf, sized, rooted] at included
  have inputs : receiptInputs rt receipt =
      (0 :: data) :: climbInputs rt.toHashFunction (leafHash rt.toHashFunction data) steps := by
    rw [receiptInputs, written, path]
  obtain ⟨positive, row, inside, same⟩ :=
    included_row rt (config.store.events.upTo checkpoint.lastEventSequence) data
    index steps (by
      refine collision_free_subset _ _ _ (fun input hashed => ?_) free
      rcases List.mem_append.mp hashed with own | stored
      · exact List.mem_append_left _ (by rw [inputs]; exact own)
      · exact List.mem_append_right _ (List.mem_flatMap.mpr ⟨checkpoint, member, stored⟩)) included
  rw [same] at written
  exact ⟨index, row, indexed, positive, inside, event_bytes_pin rt _ row written⟩

end

section

variable (rt : Runtime) (table : EventTable) (checkpoint : Checkpoint) (consistency : Json)
  (event : Event) (index : Nat)

theorem built_receipt_checkpoint :
    receiptCheckpoint (receiptAt rt table checkpoint consistency event index) =
      .obj (dict (checkpoint.shown rt)) := by
  rw [receiptCheckpoint, receiptAt, receiptOf, get_item_dict]
  simp

theorem built_receipt_consistency :
    getItem "consistency_proof" (receiptAt rt table checkpoint consistency event index) = consistency := by
  rw [receiptAt, receiptOf, get_item_dict]
  simp

theorem built_receipt_event (readable : Readable rt event.occurredAt) :
    eventCommitmentBytes rt (receiptEvent (receiptAt rt table checkpoint consistency event index)) =
      .ok (event.bytes rt) := by
  rw [receiptEvent, receiptAt, receiptOf, get_item_dict]
  simpa [dictOf] using shown_event_commits rt event readable

theorem built_receipt_steps : receiptSteps (receiptAt rt table checkpoint consistency event index) =
    .ok (walk rt.toHashFunction (leavesOf rt table checkpoint) index) := by
  have path : iterate
    (getItem "path" (dictOf
      (getItem "inclusion_proof" (receiptAt rt table checkpoint consistency event index)))) =
      .ok ((walk rt.toHashFunction (leavesOf rt table checkpoint) index).map stepView) := by
    rw [receiptAt, receiptOf, get_item_dict]
    simp [dictOf, get_item_dict, iterate]
  refine (bind_ok _ _ _).mpr ⟨_, path, (bind_ok _ _ _).mpr ⟨_, read_steps_shown 0 _ ?_, read_sides_shown _⟩⟩
  exact walk_widths rt.toHashFunction _ index (row_leaves_width rt _)

theorem built_receipt_inputs (readable : Readable rt event.occurredAt)
    (inside : (table.upTo checkpoint.lastEventSequence)[index]? = some event) :
    ∀ input ∈ receiptInputs rt (receiptAt rt table checkpoint consistency event index),
      input ∈ prefixInputs rt table checkpoint.lastEventSequence := by
  have leaf : (leavesOf rt table checkpoint)[index]? =
      some (leafHash rt.toHashFunction (event.bytes rt)) := by
    rw [leavesOf, List.getElem?_map, inside]
    rfl
  have nonempty : leavesOf rt table checkpoint ≠ [] := by
    intro none
    rw [none] at leaf
    cases leaf
  rw [receiptInputs, built_receipt_event rt table checkpoint consistency event index readable,
    built_receipt_steps rt table checkpoint consistency event index]
  intro input member
  rcases List.mem_cons.mp member with rfl | climbed
  · exact List.mem_append_left _ (List.mem_map.mpr ⟨event, List.mem_of_getElem? inside, rfl⟩)
  · obtain ⟨pair, joined, rfl⟩ := List.mem_map.mp climbed
    rw [← tree_of_opening rt.toHashFunction] at joined
    rw [← tree_of_leaves _ nonempty] at leaf
    exact List.mem_append_right _ (List.mem_map_of_mem (climb_joins_opening _ _ index _ leaf pair joined))

theorem shown_unforged (checkpoints : List Checkpoint) (member : checkpoint ∈ checkpoints)
    (keyring : Keyring) (key : Bytes) (readable : Readable rt checkpoint.createdAt)
    (held : keyring.lookup (text checkpoint.keyVersion) = some key) :
    Unforged rt keyring checkpoints (.obj (dict (checkpoint.shown rt))) := by
  intro signature _ payload fields _
  rw [shown_checkpoint_fields rt checkpoint keyring key readable held] at fields
  cases fields
  exact ⟨checkpoint, member, checkpoint_bytes rt checkpoint⟩

theorem tree_of_pair (a b : Bytes) : treeOf [a, b] = .node (.leaf a) (.leaf b) := by
  rw [tree_of_split _ (by simp),
    show split [a, b].length = 1 from by rw [show [a, b].length = 2 from rfl]; decide]
  exact congrArg₂ HashTree.Tree.node (tree_of_single a) (tree_of_single b)

theorem two_leaf_inputs (h : HashFunction) (a b : Bytes) : rootInputs h [a, b] = [pairInput (a, b)] := by
  rw [rootInputs, tree_of_pair]
  rfl

theorem three_leaf_inputs (h : HashFunction) (a b c : Bytes) :
    rootInputs h [a, b, c] = [pairInput (nodeHash h a b, c), pairInput (a, b)] := by
  have whole : treeOf [a, b, c] = .node (treeOf [a, b]) (.leaf c) := by
    rw [tree_of_split _ (by simp),
      show split [a, b, c].length = 2 from by rw [show [a, b, c].length = 3 from rfl]; decide]
    exact congrArg₂ HashTree.Tree.node rfl (tree_of_single c)
  rw [rootInputs, whole, tree_of_pair]
  rfl

end

-- All that is hashed over the events of the longer run.
def chronicleInputs : List Bytes := [0 :: sampleEvent.bytes reference, 0 :: revisedEvent.bytes reference,
  0 :: laterEvent.bytes reference,
  pairInput (nodeHash reference.toHashFunction (rowLeaf reference sampleEvent)
    (rowLeaf reference revisedEvent), rowLeaf reference laterEvent),
  pairInput (rowLeaf reference sampleEvent, rowLeaf reference revisedEvent)]

theorem chronicle_inputs_apart (now : Config (postgres (Fin 5)) (Py Outcome))
    (reached : Reaches (postgres (Fin 5)) (start reference chronicle) now)
    (rows : now.store.events.rows = [sampleEvent, revisedEvent, laterEvent]) :
    CollisionFree reference.toHashFunction chronicleInputs := by
  have leaves := stored_leaves _ (chronicle_stored now reached 3 rows)
  obtain ⟨first, second, third⟩ : rowLeaf reference sampleEvent = storedLeaf sampleEvent ∧
      rowLeaf reference revisedEvent = storedLeaf revisedEvent ∧
      rowLeaf reference laterEvent = storedLeaf laterEvent := by
    simpa [chronicleRows] using leaves
  have digests : chronicleInputs.map reference.digest = [storedLeaf sampleEvent, storedLeaf revisedEvent,
      storedLeaf laterEvent, nodeHash reference.toHashFunction
        (nodeHash reference.toHashFunction (storedLeaf sampleEvent)
        (storedLeaf revisedEvent)) (storedLeaf laterEvent),
      nodeHash reference.toHashFunction (storedLeaf sampleEvent) (storedLeaf revisedEvent)] := by
    rw [← first, ← second, ← third]
    rfl
  have apart : (chronicleInputs.map reference.digest).Nodup := by
    rw [digests]
    decide +kernel
  exact fun _ left _ right => List.inj_on_of_nodup_map apart left right

theorem chronicle_covered (table : EventTable) (rows : table.rows = [sampleEvent, revisedEvent, laterEvent]) :
    table.upTo sampleCheckpoint.lastEventSequence = [sampleEvent] ∧
      table.upTo laterCheckpoint.lastEventSequence = [sampleEvent, revisedEvent, laterEvent] := by
  rw [EventTable.upTo, EventTable.upTo, rows]
  decide

theorem chronicle_prefix_inputs (table : EventTable)
    (rows : table.rows = [sampleEvent, revisedEvent, laterEvent]) :
    ∀ checkpoint ∈ [sampleCheckpoint, laterCheckpoint],
    ∀ input ∈ prefixInputs reference table checkpoint.lastEventSequence,
      input ∈ chronicleInputs := by
  obtain ⟨first, all⟩ := chronicle_covered table rows
  have one : prefixInputs reference table sampleCheckpoint.lastEventSequence =
      [0 :: sampleEvent.bytes reference] := by
    rw [prefixInputs, first, rootInputs, List.map_singleton, List.map_singleton, tree_of_single]
    rfl
  have three : prefixInputs reference table laterCheckpoint.lastEventSequence = chronicleInputs := by
    rw [prefixInputs, all]
    exact congrArg _ (three_leaf_inputs reference.toHashFunction _ _ _)
  intro checkpoint inside input member
  rcases List.mem_pair.mp inside with rfl | rfl
  · rw [one] at member
    rw [List.mem_singleton.mp member]
    exact List.mem_cons_self
  · rw [← three]
    exact member

theorem chronicle_legible (ledger : Ledger)
    (rows : ledger.events.rows = [sampleEvent, revisedEvent, laterEvent])
    (checkpoints : ledger.checkpoints = [sampleCheckpoint, laterCheckpoint]) :
    Legible reference ledger := by
  constructor
  · rw [rows]
    simpa using ⟨sample_readable, sample_readable, sample_readable⟩
  · rw [checkpoints]
    simpa using ⟨sample_readable, sample_readable⟩

-- The receipts of the longer run at its second checkpoint.
def chronicleReceipt (table : EventTable) (hashes : List Bytes) (event : Event) (index : Nat) : Dict :=
  receiptAt reference table laterCheckpoint
    (bundle laterCheckpoint sampleCheckpoint (dict (sampleCheckpoint.shown reference)) hashes) event index

theorem chronicle_receipts_verify (now : Config (postgres (Fin 5)) (Py Outcome))
    (reached : Reaches (postgres (Fin 5)) (start reference chronicle) now)
    (rows : now.store.events.rows = [sampleEvent, revisedEvent, laterEvent])
    (checkpoints : now.store.checkpoints = [sampleCheckpoint, laterCheckpoint]) :
    ∃ hashes, consistencyProof reference.toHashFunction
      (leavesOf reference now.store.events laterCheckpoint) 1 = some hashes ∧
      ∀ event index, (now.store.events.upTo laterCheckpoint.lastEventSequence)[index]? = some event →
        verifyReceipt reference (chronicleReceipt now.store.events hashes event index) sampleKeyring =
          .ok ⟨true, true, some (text laterCheckpoint.checkpointId.toText)⟩ := by
  have sound := history_sound reference chronicle now reached
  have legible := chronicle_legible now.store.toLedger rows checkpoints
  have member : laterCheckpoint ∈ now.store.checkpoints := by
    rw [checkpoints]
    exact List.mem_cons_of_mem _ (List.mem_singleton_self _)
  obtain ⟨consistency, built, preceded⟩ :=
    sound_preceded reference _ now.store sound legible sampleKeyring laterCheckpoint
    member sampleKeyring (fun _ _ => chronicle_keys _) (fun _ _ => chronicle_keys _)
  obtain ⟨_, again, bundled⟩ := sound_bundled reference _ now.store sound laterCheckpoint member
  cases built.symm.trans (again sampleKeyring fun _ _ => chronicle_keys _)
  obtain ⟨previous, held, hashes, link, _, _, proof, rfl⟩ := bundled
  rw [checkpoints] at held
  rcases List.mem_pair.mp held with rfl | rfl
  · exact ⟨hashes, proof, fun event index inside =>
      receipt_verifies reference _ now.store sound legible sampleKeyring
      laterCheckpoint member (fun _ _ => chronicle_keys _) _ preceded event index inside⟩
  · exact absurd link (by decide)

theorem chronicle_old (table : EventTable) (hashes : List Bytes) (event : Event) (index : Nat) :
    receiptOldCheckpoint (chronicleReceipt table hashes event index) =
      .obj (dict (sampleCheckpoint.shown reference)) := by
  rw [receiptOldCheckpoint, chronicleReceipt, built_receipt_consistency, bundle, dictOf, get_item_dict]
  simp

-- The receipt of a revised event, second of three under the second checkpoint.
theorem sample_receipt_genuine : ∃ (now : Config (postgres (Fin 5)) (Py Outcome)) (receipt : Dict),
    Reaches (postgres (Fin 5)) (start reference chronicle) now ∧
    verifyReceipt reference receipt sampleKeyring =
      .ok ⟨true, true, some (text laterCheckpoint.checkpointId.toText)⟩ ∧
    ∃ checkpoint ∈ now.store.checkpoints,
      checkpointPayload reference (jsonFields "created_at" (dictOf (receiptCheckpoint receipt))) =
        checkpointPayload reference checkpoint.fields ∧
      (∃ index row, pyInt reference (receiptLeafIndex receipt) = .ok index ∧ 0 ≤ index ∧
        (now.store.events.upTo checkpoint.lastEventSequence)[index.toNat]? = some row ∧
        eventCommitment reference (receiptEvent receipt) = eventCommitment reference row.fields) ∧
      ∀ previousId, checkpoint.previousCheckpointId = some previousId →
        ∃ previous ∈ now.store.checkpoints, previous.checkpointId = previousId ∧
          checkpointPayload reference (jsonFields "created_at" (dictOf (receiptOldCheckpoint receipt))) =
            checkpointPayload reference previous.fields := by
  obtain ⟨_, now, before, onward, _, rows, checkpoints⟩ := chronicle_run
  have reached := reaches_trans (postgres (Fin 5)) _ _ _ before onward
  have legible := chronicle_legible now.store.toLedger rows checkpoints
  have inside : (now.store.events.upTo laterCheckpoint.lastEventSequence)[1]? = some revisedEvent := by
    rw [(chronicle_covered now.store.events rows).2]
    rfl
  obtain ⟨hashes, _, verifies⟩ := chronicle_receipts_verify now reached rows checkpoints
  have verified := verifies revisedEvent 1 inside
  refine ⟨now, _, reached, verified,
    witnessed_receipts_are_genuine reference chronicle now reached _ sampleKeyring _ ?_ ?_ ?_
    verified rfl⟩
  · rw [chronicleReceipt, built_receipt_checkpoint]
    exact shown_unforged reference laterCheckpoint _ (by rw [checkpoints]; simp) sampleKeyring [1]
      (legible.checkpoints laterCheckpoint (by rw [checkpoints]; simp)) (by decide)
  · rw [chronicle_old]
    exact shown_unforged reference sampleCheckpoint _ (by rw [checkpoints]; simp) sampleKeyring [1]
      (legible.checkpoints sampleCheckpoint (by rw [checkpoints]; simp)) (by decide)
  · refine collision_free_subset _ _ _ (fun input hashed => ?_) (chronicle_inputs_apart now reached rows)
    have prefixes := chronicle_prefix_inputs now.store.events rows
    rcases List.mem_append.mp hashed with own | stored
    · exact prefixes laterCheckpoint (by simp) input (built_receipt_inputs reference _ _ _ revisedEvent 1
        (legible.events revisedEvent (by rw [rows]; simp)) inside input own)
    · obtain ⟨checkpoint, member, under⟩ := List.mem_flatMap.mp stored
      exact prefixes checkpoint (by rw [← checkpoints]; exact member) input under

end CalibrationLedger
