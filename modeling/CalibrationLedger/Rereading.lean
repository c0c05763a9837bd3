import CalibrationLedger.Completeness

set_option autoImplicit false

-- The verifier looks members up and never sees the order they stand in: a receipt
-- read back with its keys sorted verifies as the receipt that was built.
namespace CalibrationLedger

open JsonText Digest HashTree

-- Two dicts with the same item under every key.
def SameItems (a b : Dict) : Prop := ∀ key, member key a = member key b

-- Objects the verifier cannot tell apart.
inductive Twin : Json → Json → Prop where
  | items (a b : Dict) (same : SameItems a b) : Twin (.obj a) (.obj b)

-- What two dicts hold under one key.
def Alongside (r : Json → Json → Prop) (key : String) (a b : Dict) : Prop :=
  ∃ left right, member (text key) a = some left ∧ member (text key) b = some right ∧ r left right

-- A list in both, its items taken one by one.
inductive TwinLists : Json → Json → Prop where
  | items (a b : List Json) (twins : List.Forall₂ Twin a b) : TwinLists (.arr a) (.arr b)

-- The same of the objects that hold other objects.
inductive SameInclusion : Json → Json → Prop where
  | items (a b : Dict) (index : Alongside Eq "leaf_index" a b) (size : Alongside Eq "tree_size" a b)
      (path : Alongside TwinLists "path" a b) : SameInclusion (.obj a) (.obj b)

inductive SameConsistency : Json → Json → Prop where
  | absent : SameConsistency .null .null
  | items (a b : Dict) (old : Alongside Twin "old_checkpoint" a b)
      (target : Alongside Eq "new_checkpoint_id" a b)
      (oldSize : Alongside Eq "old_size" a b) (newSize : Alongside Eq "new_size" a b)
      (hashes : Alongside Eq "hashes" a b) : SameConsistency (.obj a) (.obj b)

structure SameReceipt (a b : Dict) : Prop where
  event : Alongside Twin "event" a b
  status : Alongside Eq "witness_status" a b
  checkpoint : Alongside Twin "checkpoint" a b
  inclusion : Alongside SameInclusion "inclusion_proof" a b
  consistency : Alongside SameConsistency "consistency_proof" a b

theorem alongside_subscript (r : Json → Json → Prop) (key : String) (a b : Dict)
    (both : Alongside r key a b) :
    ∃ left right, subscript key (.obj a) = .ok left ∧ subscript key (.obj b) = .ok right ∧ r left right := by
  obtain ⟨left, right, first, second, related⟩ := both
  exact ⟨left, right, by rw [subscript, first], by rw [subscript, second], related⟩

theorem alongside_same (key : String) (a b : Dict) (both : Alongside Eq key a b) :
    subscript key (.obj b) = subscript key (.obj a) := by
  obtain ⟨left, right, first, second, rfl⟩ := both
  rw [subscript, subscript, first, second]

section

variable (rt : Runtime)

theorem twin_subscript (key : String) (left right : Json) (twin : Twin left right) :
    subscript key right = subscript key left := by
  obtain ⟨a, b, same⟩ := twin
  rw [subscript, subscript, same]

theorem twin_item (key : String) (left right : Json) (twin : Twin left right) :
    getItem key (dictOf right) = getItem key (dictOf left) := by
  obtain ⟨a, b, same⟩ := twin
  rw [dictOf, dictOf, getItem, getItem, same]

theorem twin_fields (time : String) (left right : Json) (twin : Twin left right) :
    jsonFields time (dictOf right) = jsonFields time (dictOf left) := by
  simp only [jsonFields, twin_item _ left right twin]

theorem twin_event (left right : Json) (twin : Twin left right) :
    parsedEventBytes rt (dictOf right) = parsedEventBytes rt (dictOf left) := by
  simp only [parsedEventBytes, named, twin_fields _ left right twin, twin_item _ left right twin]

theorem twin_checkpoint (left right : Json) (twin : Twin left right) :
    parsedCheckpointBytes rt (dictOf right) = parsedCheckpointBytes rt (dictOf left) := by
  simp only [parsedCheckpointBytes, named, twin_fields _ left right twin, twin_item _ left right twin]

theorem twin_signed (keyring : Keyring) (left right : Json) (twin : Twin left right) :
    verifySignedCheckpoint rt right keyring = verifySignedCheckpoint rt left keyring := by
  have name : checkpointName rt (dictOf right) = checkpointName rt (dictOf left) := by
    obtain ⟨a, b, same⟩ := twin
    rw [checkpointName, checkpointName, dictOf, dictOf, same]
  simp only [verifySignedCheckpoint, signedCheckpointFields, twin_subscript _ left right twin,
    twin_checkpoint rt left right twin, name]

theorem twin_steps (start : Nat) (path steps : List Json) (twins : List.Forall₂ Twin path steps) :
    readSteps start steps = readSteps start path := by
  induction twins generalizing start with
  | nil => rfl
  | cons twin _ ih => simp only [readSteps, twin_subscript _ _ _ twin, ih]

variable (keyring : Keyring)

theorem twin_consistency (left right : Json) (twin : Twin left right) (a b : Dict)
    (old : Alongside Twin "old_checkpoint" a b) (target : Alongside Eq "new_checkpoint_id" a b)
    (oldSize : Alongside Eq "old_size" a b) (newSize : Alongside Eq "new_size" a b)
    (hashes : Alongside Eq "hashes" a b) (previousId : Json) (root : Bytes) :
    readConsistency rt right (.obj b) previousId keyring root =
      readConsistency rt left (.obj a) previousId keyring root := by
  obtain ⟨before, again, first, second, olds⟩ := alongside_subscript _ _ _ _ old
  have found : ∀ {α β : Type} (value : α) (next : α → Py β), (Except.ok value >>= next) = next value :=
    fun _ _ => rfl
  simp only [readConsistency, first, second, found, twin_signed rt keyring before again olds,
    twin_subscript _ _ _ olds,
    twin_subscript _ _ _ twin, twin_item _ _ _ olds, twin_item _ _ _ twin, alongside_same _ _ _ target,
    alongside_same _ _ _ oldSize, alongside_same _ _ _ newSize, alongside_same _ _ _ hashes]

variable (receipt other : Dict) (same : SameReceipt receipt other)

include same

theorem same_event : readEvent rt other = readEvent rt receipt := by
  obtain ⟨left, right, first, second, twin⟩ := alongside_subscript _ _ _ _ same.event
  simp only [readEvent, alongside_same _ _ _ same.status, first, second, bind, Except.bind,
    twin_subscript _ _ _ twin,
    twin_event rt _ _ twin]

theorem same_inclusion (leaf : Bytes) : ∃ (left right : Json) (read : Py (Bytes × Bool)), Twin left right ∧
    readInclusion rt receipt keyring leaf = (fun stage => ⟨left, stage.1, stage.2⟩) <$> read ∧
    readInclusion rt other keyring leaf = (fun stage => ⟨right, stage.1, stage.2⟩) <$> read := by
  obtain ⟨left, right, first, second, twin⟩ := alongside_subscript _ _ _ _ same.checkpoint
  obtain ⟨proof, again, built, reread, inclusion⟩ := alongside_subscript _ _ _ _ same.inclusion
  obtain ⟨a, b, index, size, path⟩ := inclusion
  obtain ⟨items, steps, listed, relisted, lists⟩ := alongside_subscript _ _ _ _ path
  obtain ⟨items, steps, twins⟩ := lists
  have found : ∀ {α β : Type} (value : α) (next : α → Py β), (Except.ok value >>= next) = next value :=
    fun _ _ => rfl
  refine ⟨left, right,
    (fun stage => (stage.expectedRoot, stage.included)) <$> readInclusion rt receipt keyring leaf,
    twin, ?_, ?_⟩
  · simp only [readInclusion, first, found, map_bind, map_pure]
  · simp only [readInclusion, first, second, built, reread, listed, relisted, found, iterate,
      map_bind, map_pure,
      twin_signed rt keyring left right twin, twin_subscript _ _ _ twin, twin_steps 0 items steps twins,
      alongside_same _ _ _ size, alongside_same _ _ _ index]

theorem same_predecessor (left right : Json) (twin : Twin left right) (root : Bytes) :
    verifyPredecessor rt other keyring right root = verifyPredecessor rt receipt keyring left root := by
  obtain ⟨proof, again, built, reread, consistency⟩ := same.consistency
  have first : getItem "consistency_proof" receipt = proof := by rw [getItem, built, Option.getD_some]
  have second : getItem "consistency_proof" other = again := by rw [getItem, reread, Option.getD_some]
  rw [verifyPredecessor, verifyPredecessor, first, second, twin_item _ left right twin,
    twin_item _ left right twin]
  cases consistency with
  | absent => rfl
  | items a b old target oldSize newSize hashes =>
      dsimp only
      rw [twin_consistency rt keyring left right twin a b old target oldSize newSize hashes]
      rfl

theorem same_pending : verifyPending other = verifyPending receipt := by
  obtain ⟨left, right, first, second, twin⟩ := same.checkpoint
  obtain ⟨proof, again, built, reread, inclusion⟩ := same.inclusion
  obtain ⟨a, b, _⟩ := twin
  obtain ⟨c, d, _, _, _⟩ := inclusion
  simp [verifyPending, getItem, first, second, built, reread]

theorem same_sealed (leaf : Bytes) :
    verifySealed rt other keyring leaf = verifySealed rt receipt keyring leaf := by
  obtain ⟨left, right, read, twin, first, second⟩ := same_inclusion rt keyring receipt other same leaf
  rw [verifySealed, verifySealed, first, second]
  cases read with
  | error error => cases error <;> rfl
  | ok stage =>
      simp only [Functor.map, Except.map, translating, bind, Except.bind, twin_subscript _ _ _ twin,
        same_predecessor rt keyring receipt other same left right twin]

theorem same_verified : verifyReceipt rt other keyring = verifyReceipt rt receipt keyring := by
  simp only [verifyReceipt, same_event rt receipt other same, same_pending receipt other same,
    same_sealed rt keyring receipt other same]

end

theorem reordered_plain (value other : Json) (simple : plain value = true)
    (same : Reordered value other) : value = other := by
  cases value with
  | arr items => cases simple
  | obj members => cases simple
  | null => cases other <;> first | rfl | exact same.elim
  | bool flag => cases other <;> first | exact congrArg Value.bool same | exact same.elim
  | int number => cases other <;> first | exact congrArg Value.int same | exact same.elim
  | float number => cases other <;> first | exact congrArg Value.float same | exact same.elim
  | str content => cases other <;> first | exact congrArg Value.str same | exact same.elim

theorem reordered_object (members : Dict) (other : Json) (same : Reordered (.obj members) other) :
    ∃ others, other = .obj others := by
  cases other with
  | obj others => exact ⟨others, rfl⟩
  | _ => exact same.elim

theorem reordered_list (items : List Json) (other : Json) (same : Reordered (.arr items) other) :
    ∃ others, other = .arr others ∧ List.Forall₂ Reordered items others := by
  cases other with
  | arr others => exact ⟨others, rfl, (items_reordered_iff items others).mp same⟩
  | _ => exact same.elim

section

variable (members : List (String × Json)) (distinct : (members.map Prod.fst).Nodup)

include distinct

theorem reordered_twin (simple : ∀ entry ∈ members, plain entry.2 = true) (other : Json)
    (same : Reordered (.obj (dict members)) other) : Twin (.obj (dict members)) other := by
  obtain ⟨others, rfl⟩ := reordered_object _ other same
  refine .items _ _ fun key => ?_
  have items := reordered_member _ _ same (dict_keys_distinct members distinct) key
  generalize left : member key (dict members) = held, right : member key others = again at items
  cases items with
  | none => rfl
  | some values =>
      have listed := (member_iff _ (dict_keys_distinct members distinct) key _).mp left
      obtain ⟨entry, inside, is⟩ := List.mem_map.mp listed
      cases is
      exact congrArg some (reordered_plain entry.2 _ (simple entry inside) values)

theorem reordered_alongside (others : Dict) (same : Reordered (.obj (dict members)) (.obj others))
    (r : Json → Json → Prop) (key : String) (value : Json)
    (found : (members.find? fun entry => entry.1 = key).map Prod.snd = some value)
    (related : ∀ other, Reordered value other → r value other) :
    Alongside r key (dict members) others := by
  have items := reordered_member _ _ same (dict_keys_distinct members distinct) (text key)
  rw [member_dict, found] at items
  generalize right : member (text key) others = again at items
  cases items with
  | some values => exact ⟨value, _, by rw [member_dict, found], right, related _ values⟩

end

section

variable (rt : Runtime)

theorem event_twin (event : Event) (other : Json) (same : Reordered (.obj (dict (event.shown rt))) other) :
    Twin (.obj (dict (event.shown rt))) other :=
  reordered_twin _ (shown_event_keys rt event) (shown_event_plain rt event) other same

theorem checkpoint_twin (checkpoint : Checkpoint) (other : Json)
    (same : Reordered (.obj (dict (checkpoint.shown rt))) other) :
    Twin (.obj (dict (checkpoint.shown rt))) other :=
  reordered_twin _ (shown_checkpoint_keys rt checkpoint) (shown_checkpoint_plain rt checkpoint) other same

theorem steps_twin (path : List InclusionStep) (other : Json)
    (same : Reordered (.arr (path.map stepView)) other) :
    TwinLists (.arr (path.map stepView)) other := by
  obtain ⟨others, rfl, items⟩ := reordered_list _ other same
  refine .items _ _ ?_
  rw [List.forall₂_map_left_iff] at items ⊢
  exact items.imp fun step other => reordered_twin _ (by simp) (by simp [string, plain]) other

theorem hashes_same (hashes : List Bytes) (other : Json)
    (same : Reordered (.arr (hashes.map fun item => string (hex item))) other) :
    .arr (hashes.map fun item => string (hex item)) = other := by
  obtain ⟨others, rfl, items⟩ := reordered_list _ other same
  rw [List.forall₂_map_left_iff] at items
  refine congrArg Value.arr ?_
  rw [← List.forall₂_eq_eq_eq, List.forall₂_map_left_iff]
  exact items.imp fun item other => reordered_plain _ other rfl

theorem bundle_same (checkpoint previous : Checkpoint) (hashes : List Bytes) (other : Json)
    (same : Reordered (bundle checkpoint previous (dict (previous.shown rt)) hashes) other) :
    SameConsistency (bundle checkpoint previous (dict (previous.shown rt)) hashes) other := by
  obtain ⟨others, rfl⟩ := reordered_object _ other same
  have item := fun (r : Json → Json → Prop) key value =>
    reordered_alongside _ (by simp) others same r key value
  refine .items _ _ ?_ ?_ ?_ ?_ ?_
  · exact item Twin "old_checkpoint" _ rfl (checkpoint_twin rt previous)
  · exact item Eq "new_checkpoint_id" _ rfl fun other => reordered_plain _ other rfl
  · exact item Eq "old_size" _ rfl fun other => reordered_plain _ other rfl
  · exact item Eq "new_size" _ rfl fun other => reordered_plain _ other rfl
  · exact item Eq "hashes" _ rfl (hashes_same hashes)

theorem receipt_same (event : Event) (checkpoint : Checkpoint) (index leafCount : Nat)
    (path : List InclusionStep) (consistency : Json) (others : Dict)
    (bundled : ∀ other, Reordered consistency other → SameConsistency consistency other)
    (same : Reordered
      (.obj (receiptOf (dict (event.shown rt)) (dict (checkpoint.shown rt)) index leafCount path consistency))
      (.obj others)) :
    SameReceipt (receiptOf (dict (event.shown rt))
          (dict (checkpoint.shown rt)) index leafCount path consistency) others := by
  have item := fun (r : Json → Json → Prop) key value =>
    reordered_alongside _ (by simp) others same r key value
  refine ⟨?_, ?_, ?_, ?_, ?_⟩
  · exact item Twin "event" _ rfl (event_twin rt event)
  · exact item Eq "witness_status" _ rfl fun other => reordered_plain _ other rfl
  · exact item Twin "checkpoint" _ rfl (checkpoint_twin rt checkpoint)
  · refine item SameInclusion "inclusion_proof" _ rfl fun other proofs => ?_
    obtain ⟨proof, rfl⟩ := reordered_object _ other proofs
    have part := fun (r : Json → Json → Prop) key value =>
      reordered_alongside _ (by simp) proof proofs r key value
    refine .items _ _ ?_ ?_ ?_
    · exact part Eq "leaf_index" _ rfl fun other => reordered_plain _ other rfl
    · exact part Eq "tree_size" _ rfl fun other => reordered_plain _ other rfl
    · exact part TwinLists "path" _ rfl (steps_twin path)
  · exact item SameConsistency "consistency_proof" _ rfl bundled

end

end CalibrationLedger
