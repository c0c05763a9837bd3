import Mathlib.Logic.Function.Basic
import CalibrationLedger.Chain
import CalibrationLedger.Tamper
import CalibrationLedger.Views

set_option autoImplicit false

-- Every receipt the service builds is accepted by whoever holds the keys.
namespace CalibrationLedger

open JsonText Digest HashTree Interleaving

section

variable (rt : Runtime)

-- The key each checkpoint was signed with stands in the keyring under its version.
def HoldsKeys (signing : Text → Bytes → Prop) (keyring : Keyring) (checkpoints : List Checkpoint) : Prop :=
  ∀ checkpoint ∈ checkpoints, ∀ key, signing (text checkpoint.keyVersion) key →
    keyring.lookup (text checkpoint.keyVersion) = some key

-- The checkpoints whose keys a receipt at this one needs: its own and the predecessor's.
def neededBy (checkpoints : List Checkpoint) (checkpoint : Checkpoint) : List Checkpoint :=
  checkpoints.filter fun row =>
    row.checkpointId = checkpoint.checkpointId || some row.checkpointId = checkpoint.previousCheckpointId

theorem needed_keys (signing : Text → Bytes → Prop) (keyring : Keyring) (checkpoints : List Checkpoint)
    (checkpoint : Checkpoint) (holds : HoldsKeys signing keyring checkpoints) :
    HoldsKeys signing keyring (neededBy checkpoints checkpoint) :=
  fun row inside => holds row (List.mem_of_mem_filter inside)

theorem own_key (signing : Text → Bytes → Prop) (keyring : Keyring) (checkpoints : List Checkpoint)
    (checkpoint : Checkpoint) (member : checkpoint ∈ checkpoints)
    (holds : HoldsKeys signing keyring (neededBy checkpoints checkpoint)) :
    HoldsKeys signing keyring [checkpoint] := by
  intro row inside
  rw [List.mem_singleton.mp inside]
  exact holds checkpoint (List.mem_filter.mpr ⟨member, by simp⟩)

theorem previous_key (signing : Text → Bytes → Prop) (keyring : Keyring) (checkpoints : List Checkpoint)
    (checkpoint previous : Checkpoint) (member : previous ∈ checkpoints)
    (link : checkpoint.previousCheckpointId = some previous.checkpointId)
    (holds : HoldsKeys signing keyring (neededBy checkpoints checkpoint)) :
    HoldsKeys signing keyring [previous] := by
  intro row inside
  rw [List.mem_singleton.mp inside]
  exact holds previous (List.mem_filter.mpr ⟨member, by simp [link]⟩)

-- Every timestamp of the ledger survives isoformat and fromisoformat.
structure Legible (ledger : Ledger) : Prop where
  events : ∀ row ∈ ledger.events.rows, Readable rt row.occurredAt
  checkpoints : ∀ checkpoint ∈ ledger.checkpoints, Readable rt checkpoint.createdAt

-- The body of a response, JSON in the order of the object's members.
def serialize (receipt : Dict) : Text := render (jsonFloat rt.floatRepr) (.obj receipt)

def leavesOf (table : EventTable) (checkpoint : Checkpoint) : List Bytes :=
  (table.upTo checkpoint.lastEventSequence).map (rowLeaf rt)

-- What the predecessor's part of a receipt is.
def Bundled (checkpoints : List Checkpoint) (checkpoint : Checkpoint) (leaves : List Bytes)
    (consistency : Json) : Prop :=
  match checkpoint.previousCheckpointId with
  | none => checkpoint.previousRootHash = none ∧ consistency = .null
  | some previousId => ∃ previous ∈ checkpoints, ∃ hashes, previous.checkpointId = previousId ∧
      checkpoint.previousRootHash = some previous.rootHash ∧
      previous.rootHash = hex (merkleRoot rt.toHashFunction (leaves.take previous.leafCount)) ∧
      consistencyProof rt.toHashFunction leaves previous.leafCount = some hashes ∧
      consistency = bundle checkpoint previous (dict (previous.shown rt)) hashes

variable (signing : Text → Bytes → Prop) {ι : Type} (store : Store ι) (sound : Sound rt signing store)
  (legible : Legible rt store.toLedger) (keyring : Keyring) (checkpoint : Checkpoint)
  (member : checkpoint ∈ store.checkpoints) (holds : HoldsKeys signing keyring [checkpoint])

include sound member

theorem sound_rooted : Rooted rt checkpoint (leavesOf rt store.events checkpoint) := by
  have covered := sound_covers rt signing store sound checkpoint member
  exact ⟨row_leaves_width rt _, by rw [leavesOf, List.length_map, covered.count], covered.root.symm⟩

include holds

theorem sound_keyed : ∃ key, keyring.lookup (text checkpoint.keyVersion) = some key ∧
    checkpoint.signature = signCheckpoint rt.toHashFunction (checkpoint.bytes rt) key := by
  obtain ⟨_, extended, _⟩ :=
    chained_member rt signing store.events none store.checkpoints sound.chain checkpoint member
  obtain ⟨key, signs, signature⟩ := extended.signed
  exact ⟨key, holds checkpoint (List.mem_singleton_self _) key signs, signature⟩

theorem sound_validated : validatedPrefix rt store.events checkpoint keyring =
    .ok (store.events.upTo checkpoint.lastEventSequence, leavesOf rt store.events checkpoint) := by
  have covered := sound_covers rt signing store sound checkpoint member
  obtain ⟨_, extended, _⟩ :=
    chained_member rt signing store.events none store.checkpoints sound.chain checkpoint member
  obtain ⟨key, held, signature⟩ := sound_keyed rt signing store sound keyring checkpoint member holds
  refine validated_prefix_returns rt store.events checkpoint keyring key
    ⟨covered.count, covered.root⟩ ?_ covered.leaves
    held signature
  have positive := extended.grows
  exact List.ne_nil_of_length_pos (by rw [covered.count]; omega)

omit holds

theorem sound_bundled : ∃ consistency,
    (∀ service, HoldsKeys signing service (neededBy store.checkpoints checkpoint) →
      buildConsistencyBundle rt store.toLedger checkpoint
        (leavesOf rt store.events checkpoint) service = .ok consistency) ∧
    Bundled rt store.checkpoints checkpoint (leavesOf rt store.events checkpoint) consistency := by
  obtain ⟨before, extended, origin⟩ :=
    chained_member rt signing store.events none store.checkpoints sound.chain checkpoint member
  have link := extended.link
  have rootLink := extended.rootLink
  unfold buildConsistencyBundle Bundled
  cases before with
  | none =>
      rw [Option.map_none] at link rootLink
      rw [link]
      exact ⟨.null, fun _ _ => rfl, rootLink, rfl⟩
  | some previous =>
      obtain ⟨earlier, inside, same⟩ := origin.resolve_left (by simp)
      cases same
      have found : store.toLedger.checkpoint previous.checkpointId = some previous :=
        distinct_found store.checkpoints sound.distinct previous inside
      have counted := (sound_covers rt signing store sound previous inside).count
      obtain ⟨_, own, _⟩ :=
        chained_member rt signing store.events none store.checkpoints sound.chain previous inside
      have positive : 0 < previous.leafCount := Nat.lt_of_le_of_lt (Nat.zero_le _) own.grows
      have whole := (sound_rooted rt signing store sound checkpoint member).count
      have smaller : previous.leafCount < checkpoint.leafCount := extended.grows
      have advances : previous.lastEventSequence < checkpoint.lastEventSequence := extended.advances
      obtain ⟨hashes, built⟩ : ∃ hashes,
          consistencyProof rt.toHashFunction (leavesOf rt store.events checkpoint) previous.leafCount =
            some hashes := by
        rw [consistencyProof, if_neg (by omega), if_neg (by omega)]
        exact ⟨_, rfl⟩
      have taken : (leavesOf rt store.events checkpoint).take previous.leafCount =
          leavesOf rt store.events previous := by
        rw [leavesOf, ← List.map_take, ← counted, up_to_take store.events _ _ (le_of_lt advances), leavesOf]
      rw [Option.map_some] at link rootLink
      rw [link]
      refine ⟨bundle checkpoint previous (dict (previous.shown rt)) hashes, fun service serves => ?_,
        previous, inside, hashes,
        rfl, rootLink, ?_, built, rfl⟩
      · have passed := sound_validated rt signing store sound service previous inside
          (previous_key signing service store.checkpoints checkpoint previous inside link serves)
        dsimp only
        rw [found]
        refine (bind_ok _ _ _).mpr ⟨_, passed, ?_⟩
        rw [if_neg (by simp [rootLink])]
        exact (bind_ok _ _ _).mpr ⟨_, checkpoint_view_shown rt previous, (bind_ok _ _ _).mpr
          ⟨hashes, congrArg orMerkleProofError built, rfl⟩⟩
      · rw [taken]
        exact (sound_rooted rt signing store sound previous inside).root

include legible

theorem sound_signed (holds : HoldsKeys signing keyring [checkpoint]) : Signed rt keyring checkpoint :=
  ⟨legible.checkpoints checkpoint member, sound_keyed rt signing store sound keyring checkpoint member holds⟩

theorem sound_preceded (service : Keyring)
    (serves : HoldsKeys signing service (neededBy store.checkpoints checkpoint))
    (needed : HoldsKeys signing keyring (neededBy store.checkpoints checkpoint)) :
    ∃ consistency, buildConsistencyBundle rt store.toLedger checkpoint
      (leavesOf rt store.events checkpoint) service =
        .ok consistency ∧
      Preceded rt keyring checkpoint (leavesOf rt store.events checkpoint) consistency := by
  obtain ⟨consistency, built, bundled⟩ := sound_bundled rt signing store sound checkpoint member
  refine ⟨consistency, built service serves, ?_⟩
  unfold Bundled at bundled
  unfold Preceded
  cases link : checkpoint.previousCheckpointId with
  | none =>
      rw [link] at bundled
      exact bundled
  | some previousId =>
      rw [link] at bundled
      obtain ⟨previous, inside, hashes, rfl, rootLink, root, proof, whole⟩ := bundled
      exact ⟨previous, hashes, rfl, rootLink,
        sound_signed rt signing store sound legible keyring previous inside
        (previous_key signing keyring store.checkpoints checkpoint previous inside link needed), root,
        proof, whole⟩

end

section

variable (rt : Runtime)

-- The receipt of the event at an index of the covered rows.
def receiptAt (table : EventTable) (checkpoint : Checkpoint) (consistency : Json) (event : Event)
    (index : Nat) : Dict :=
  receiptOf (dict (event.shown rt)) (dict (checkpoint.shown rt)) index checkpoint.leafCount
    (walk rt.toHashFunction (leavesOf rt table checkpoint) index) consistency

theorem sealed_receipt_at (table : EventTable) (checkpoint : Checkpoint) (consistency : Json)
    (event : Event) (index : Nat) (inside : index < (table.upTo checkpoint.lastEventSequence).length) :
    sealedReceipt rt event index checkpoint (leavesOf rt table checkpoint) consistency =
      .ok (receiptAt rt table checkpoint consistency event index) := by
  have path : inclusionProof rt.toHashFunction (leavesOf rt table checkpoint) index =
      some (walk rt.toHashFunction (leavesOf rt table checkpoint) index) := by
    rw [inclusionProof, if_pos (by rw [leavesOf, List.length_map]; exact inside)]
  exact (bind_ok _ _ _).mpr
    ⟨_, congrArg orMerkleProofError path, (bind_ok _ _ _).mpr ⟨_, event_view_shown rt event,
    (bind_ok _ _ _).mpr ⟨_, checkpoint_view_shown rt checkpoint, rfl⟩⟩⟩

variable (signing : Text → Bytes → Prop) {ι : Type} (store : Store ι) (sound : Sound rt signing store)
  (keyring : Keyring) (checkpoint : Checkpoint) (member : checkpoint ∈ store.checkpoints)
  (holds : HoldsKeys signing keyring [checkpoint])

include sound

theorem covered_index (boundary : Int) (event : Event) (index : Nat)
    (inside : (store.events.upTo boundary)[index]? = some event) :
    (store.events.upTo boundary).findIdx? (fun item => item.eventId = event.eventId) = some index := by
  have committed : ∀ row ∈ store.events.upTo boundary, row ∈ store.events.rows := fun row =>
    List.mem_of_mem_filter
  have ordered : (store.events.upTo boundary).Pairwise fun a b => a.sequence < b.sequence :=
    store.events.sorted.filter _
  obtain ⟨below, at_index⟩ := List.getElem?_eq_some_iff.mp inside
  refine List.findIdx?_eq_some_iff_getElem.mpr ⟨below, by simp [at_index], fun j earlier => ?_⟩
  have less := List.pairwise_iff_getElem.mp ordered j index (by omega) below earlier
  rw [at_index] at less
  intro matched
  have same := of_decide_eq_true matched
  have equal := same_id_same_row rt signing store _ event (committed _ (List.getElem_mem _))
    (committed event (List.mem_of_getElem? inside)) same sound
  rw [equal] at less
  exact lt_irrefl _ less

include holds member

theorem built_at_checkpoint (consistency : Json) (event : Event) (index : Nat)
    (bundled : buildConsistencyBundle rt store.toLedger checkpoint
      (leavesOf rt store.events checkpoint) keyring =
      .ok consistency) (inside : (store.events.upTo checkpoint.lastEventSequence)[index]? = some event) :
    buildReceiptAtCheckpoint rt store.toLedger event checkpoint keyring =
      .ok (receiptAt rt store.events checkpoint consistency event index) := by
  have validated := sound_validated rt signing store sound keyring checkpoint member holds
  refine (bind_ok _ _ _).mpr ⟨_, validated, ?_⟩
  dsimp only
  rw [covered_index rt signing store sound checkpoint.lastEventSequence event index inside]
  exact (bind_ok _ _ _).mpr ⟨_, bundled, sealed_receipt_at rt store.events checkpoint consistency event index
    (List.getElem?_eq_some_iff.mp inside).1⟩

-- The rows of an increment past a cursor, each with its index under the checkpoint.
def candidatesOf (table : EventTable) (checkpoint : Checkpoint) (cursor : Int) : List (Event × Nat) :=
  (table.upTo checkpoint.lastEventSequence).zipIdx.filter fun entry => cursor < entry.1.sequence

omit sound holds member in
theorem candidate_inside (table : EventTable) (cursor : Int) (entry : Event × Nat)
    (candidate : entry ∈ candidatesOf table checkpoint cursor) :
    (table.upTo checkpoint.lastEventSequence)[entry.2]? = some entry.1 :=
  List.mem_zipIdx_iff_getElem?.mp (List.mem_of_mem_filter candidate)

omit sound holds member in
theorem next_cursor (candidates : List (Event × Nat)) (limit : Nat) (positive : 0 < limit) :
    nextCursor (decide (limit < candidates.length)) (candidates.take limit) =
      .ok (if decide (limit < candidates.length) then (candidates.take limit).getLast?.map fun entry =>
        entry.1.sequence else none) := by
  by_cases more : limit < candidates.length
  · have present : (candidates.take limit).getLast?.isSome := by
      rw [List.getLast?_isSome, Ne, List.take_eq_nil_iff]
      rintro (none | nothing)
      · omega
      · rw [nothing] at more
        simp at more
    obtain ⟨newest, ends⟩ := Option.isSome_iff_exists.mp present
    rw [nextCursor, if_pos (decide_eq_true more), if_pos (decide_eq_true more), ends]
    rfl
  · rw [nextCursor, if_neg (by simpa using more), if_neg (by simpa using more)]
    rfl

theorem page_answered (start : Int) (began : incrementStart store.toLedger checkpoint = .ok start)
    (consistency : Json)
    (bundled : buildConsistencyBundle rt store.toLedger checkpoint
      (leavesOf rt store.events checkpoint) keyring =
      .ok consistency) (afterSequence : Option Int) (limit : Nat)
    (low : start ≤ afterSequence.getD start)
    (high : afterSequence.getD start ≤ checkpoint.lastEventSequence) :
    buildCheckpointEventPage rt store.toLedger checkpoint.checkpointId afterSequence limit keyring = do
      let nextAfterSequence ← nextCursor
        (decide (limit < (candidatesOf store.events checkpoint (afterSequence.getD start)).length))
        ((candidatesOf store.events checkpoint (afterSequence.getD start)).take limit)
      return {
        checkpointId := text checkpoint.checkpointId.toText
        items := ((candidatesOf store.events checkpoint (afterSequence.getD start)).take limit).map
          fun entry =>
          receiptAt rt store.events checkpoint consistency entry.1 entry.2
        nextAfterSequence
        hasMore := decide
            (limit < (candidatesOf store.events checkpoint (afterSequence.getD start)).length) } := by
  have found : store.toLedger.checkpoint checkpoint.checkpointId = some checkpoint :=
    distinct_found store.checkpoints sound.distinct checkpoint member
  have validated := sound_validated rt signing store sound keyring checkpoint member holds
  have items : ∀ page : List (Event × Nat),
    (∀ entry ∈ page, entry ∈ candidatesOf store.events checkpoint (afterSequence.getD start)) →
      page.mapM (fun entry => sealedReceipt rt entry.1 entry.2 checkpoint
        (leavesOf rt store.events checkpoint) consistency) =
        .ok (page.map fun entry => receiptAt rt store.events checkpoint consistency entry.1 entry.2) := by
    intro page chosen
    induction page with
    | nil => rfl
    | cons entry rest ih =>
        have inside := candidate_inside checkpoint store.events _ entry (chosen entry List.mem_cons_self)
        rw [List.mapM_cons, sealed_receipt_at rt store.events checkpoint consistency entry.1 entry.2
          (List.getElem?_eq_some_iff.mp inside).1, ih fun other later =>
            chosen other (List.mem_cons_of_mem _ later)]
        rfl
  have going : ∀ {α β : Type} (first : Py α) (value : α) (next : α → Py β), first = .ok value →
      (first >>= next) = next value :=
    fun first value next is => by rw [is]; rfl
  rw [buildCheckpointEventPage, found]
  dsimp only
  rw [going _ _ _ began, if_neg (by omega), if_neg (by omega), going _ _ _ validated, going _ _ _ bundled]
  exact going _ _ _ (items _ fun entry => List.mem_of_mem_take)

theorem page_built (start : Int) (began : incrementStart store.toLedger checkpoint = .ok start)
    (consistency : Json)
    (bundled : buildConsistencyBundle rt store.toLedger checkpoint
      (leavesOf rt store.events checkpoint) keyring =
      .ok consistency) (afterSequence : Option Int) (limit : Nat) (positive : 0 < limit)
    (low : start ≤ afterSequence.getD start)
    (high : afterSequence.getD start ≤ checkpoint.lastEventSequence) :
    buildCheckpointEventPage rt store.toLedger checkpoint.checkpointId afterSequence limit keyring = .ok {
      checkpointId := text checkpoint.checkpointId.toText
      items := ((candidatesOf store.events checkpoint (afterSequence.getD start)).take limit).map fun entry =>
        receiptAt rt store.events checkpoint consistency entry.1 entry.2
      nextAfterSequence :=
        if decide (limit < (candidatesOf store.events checkpoint (afterSequence.getD start)).length) then
          ((candidatesOf store.events checkpoint (afterSequence.getD start)).take limit).getLast?.map
            fun entry => entry.1.sequence
        else none
      hasMore := decide
          (limit < (candidatesOf store.events checkpoint (afterSequence.getD start)).length) } := by
  rw [page_answered rt signing store sound keyring checkpoint member holds start began consistency
    bundled afterSequence limit low
    high, next_cursor _ limit positive]
  rfl

end

theorem plain_distinct (value : Json) (simple : plain value = true) : Distinct value := by
  cases value with
  | arr _ => cases simple
  | obj _ => cases simple
  | _ => trivial

theorem dict_keys_distinct (members : List (String × Json)) (keys : (members.map Prod.fst).Nodup) :
    ((dict members).map Prod.fst).Nodup := by
  have mapped := keys.map (f := text) fun a b => text_injective a b
  simpa [dict, Function.comp_def] using mapped

theorem dict_distinct (members : List (String × Json)) (keys : (members.map Prod.fst).Nodup)
    (values : ∀ entry ∈ members, Distinct entry.2) : Distinct (.obj (dict members)) := by
  refine ⟨dict_keys_distinct members keys, (members_distinct_iff _).mpr fun entry inside => ?_⟩
  obtain ⟨source, member, rfl⟩ := List.mem_map.mp inside
  exact values source member

theorem strings_distinct (contents : List String) : Distinct (.arr (contents.map string)) := by
  refine (items_distinct_iff _).mpr fun item inside => ?_
  obtain ⟨content, _, rfl⟩ := List.mem_map.mp inside
  trivial

section

variable (rt : Runtime)

theorem shown_event_plain (event : Event) : ∀ entry ∈ event.shown rt, plain entry.2 = true := by
  intro entry inside
  rw [Event.shown, List.cons_append] at inside
  rcases List.mem_cons.mp inside with rfl | later
  · rfl
  · rcases List.mem_append.mp later with committed | leaf
    · exact commitment_plain rt event entry (List.mem_of_mem_tail committed)
    · rw [List.mem_singleton.mp leaf]
      rfl

theorem shown_checkpoint_plain (checkpoint : Checkpoint) :
    ∀ entry ∈ checkpoint.shown rt, plain entry.2 = true := by
  intro entry inside
  rcases List.mem_append.mp inside with signed | signature
  · exact payload_plain rt checkpoint entry signed
  · rw [List.mem_singleton.mp signature]
    rfl

theorem shown_event_keys (event : Event) : ((event.shown rt).map Prod.fst).Nodup := by
  simp [Event.shown, Event.commitment, commitmentMembers]

theorem shown_checkpoint_keys (checkpoint : Checkpoint) : ((checkpoint.shown rt).map Prod.fst).Nodup := by
  simp [Checkpoint.shown, Checkpoint.payload, payloadMembers]

theorem shown_event_distinct (event : Event) : Distinct (.obj (dict (event.shown rt))) :=
  dict_distinct _ (shown_event_keys rt event) fun entry inside =>
    plain_distinct _ (shown_event_plain rt event entry inside)

theorem shown_checkpoint_distinct (checkpoint : Checkpoint) : Distinct (.obj (dict (checkpoint.shown rt))) :=
  dict_distinct _ (shown_checkpoint_keys rt checkpoint) fun entry inside =>
    plain_distinct _ (shown_checkpoint_plain rt checkpoint entry inside)

theorem preceded_distinct (keyring : Keyring) (checkpoint : Checkpoint) (leaves : List Bytes)
    (consistency : Json) (preceded : Preceded rt keyring checkpoint leaves consistency) :
    Distinct consistency := by
  rw [Preceded] at preceded
  split at preceded
  · rw [preceded.2]
    trivial
  · obtain ⟨previous, hashes, _, _, _, _, _, rfl⟩ := preceded
    refine dict_distinct _ (by simp) ?_
    simp only [List.forall_mem_cons, List.not_mem_nil, false_imp_iff, implies_true, and_true]
    refine ⟨shown_checkpoint_distinct rt previous, trivial, trivial, trivial, ?_⟩
    simpa [Function.comp_def] using strings_distinct (hashes.map hex)

theorem step_distinct (step : InclusionStep) : Distinct (stepView step) := by
  refine dict_distinct _ (by simp) ?_
  simp only [List.forall_mem_cons, List.not_mem_nil, false_imp_iff, implies_true, and_true]
  exact ⟨trivial, trivial⟩

theorem receipt_distinct (table : EventTable) (checkpoint : Checkpoint) (consistency : Json)
    (event : Event) (index : Nat) (proper : Distinct consistency) :
    Distinct (.obj (receiptAt rt table checkpoint consistency event index)) := by
  refine dict_distinct _ (by simp) ?_
  simp only [List.forall_mem_cons, List.not_mem_nil, false_imp_iff, implies_true, and_true]
  refine ⟨shown_event_distinct rt event, trivial, shown_checkpoint_distinct rt checkpoint, ?_, proper⟩
  refine dict_distinct _ (by simp) ?_
  simp only [List.forall_mem_cons, List.not_mem_nil, false_imp_iff, implies_true, and_true]
  refine ⟨trivial, trivial, (items_distinct_iff _).mpr fun item inside => ?_⟩
  obtain ⟨step, _, rfl⟩ := List.mem_map.mp inside
  exact step_distinct step

theorem pending_distinct (event : Event) : Distinct (.obj (pendingReceipt (dict (event.shown rt)))) := by
  refine dict_distinct _ (by simp) ?_
  simp only [List.forall_mem_cons, List.not_mem_nil, false_imp_iff, implies_true, and_true]
  exact ⟨shown_event_distinct rt event, trivial, trivial, trivial, trivial⟩

-- json.loads reads back what was written.
def Undoes (loads : Text → Option Json) : Prop :=
  ∀ value, Distinct value → loads (render (jsonFloat rt.floatRepr) value) = some value

-- A response read back by a client and verified.
def Accepted (loads : Text → Option Json) (keyring : Keyring) (receipt : Dict) (result : Verification) :
    Prop :=
  ∃ parsed, loads (serialize rt receipt) = some (.obj parsed) ∧ verifyReceipt rt parsed keyring = .ok result

variable (signing : Text → Bytes → Prop) {ι : Type} (store : Store ι) (sound : Sound rt signing store)
  (legible : Legible rt store.toLedger) (keyring : Keyring)

include sound legible

theorem pending_verifies (event : Event) (committed : event ∈ store.events.rows) :
    verifyReceipt rt (pendingReceipt (dict (event.shown rt))) keyring = .ok ⟨true, false, none⟩ :=
  pending_receipt_accepted rt event keyring (legible.events event committed)
    (sound.rows event (.inl committed)).1.leaf

theorem receipt_verifies (checkpoint : Checkpoint) (member : checkpoint ∈ store.checkpoints)
    (holds : HoldsKeys signing keyring [checkpoint]) (consistency : Json)
    (preceded : Preceded rt keyring checkpoint (leavesOf rt store.events checkpoint) consistency)
    (event : Event) (index : Nat)
    (inside : (store.events.upTo checkpoint.lastEventSequence)[index]? = some event) :
    verifyReceipt rt (receiptAt rt store.events checkpoint consistency event index) keyring =
      .ok ⟨true, true, some (text checkpoint.checkpointId.toText)⟩ := by
  have committed : event ∈ store.events.rows := List.mem_of_mem_filter (List.mem_of_getElem? inside)
  have leaf : (leavesOf rt store.events checkpoint)[index]? = some (rowLeaf rt event) := by
    rw [leavesOf, List.getElem?_map, inside]
    rfl
  exact sealed_receipt_accepted rt keyring checkpoint _ event index consistency
    (legible.events event committed)
    (sound.rows event (.inl committed)).1.leaf
    (sound_signed rt signing store sound legible keyring checkpoint member holds)
    (sound_rooted rt signing store sound checkpoint member) leaf preceded

variable (loads : Text → Option Json) (undoes : Undoes rt loads)

include undoes

theorem pending_accepted (event : Event) (committed : event ∈ store.events.rows) :
    Accepted rt loads keyring (pendingReceipt (dict (event.shown rt))) ⟨true, false, none⟩ :=
  ⟨_, undoes _ (pending_distinct rt event),
    pending_verifies rt signing store sound legible keyring event committed⟩

theorem receipt_accepted (checkpoint : Checkpoint) (member : checkpoint ∈ store.checkpoints)
    (holds : HoldsKeys signing keyring [checkpoint]) (consistency : Json)
    (preceded : Preceded rt keyring checkpoint (leavesOf rt store.events checkpoint) consistency)
    (event : Event) (index : Nat)
    (inside : (store.events.upTo checkpoint.lastEventSequence)[index]? = some event) :
    Accepted rt loads keyring (receiptAt rt store.events checkpoint consistency event index)
      ⟨true, true, some (text checkpoint.checkpointId.toText)⟩ :=
  ⟨_, undoes _ (receipt_distinct rt _ checkpoint consistency event index
      (preceded_distinct rt keyring checkpoint _ consistency preceded)),
    receipt_verifies rt signing store sound legible keyring checkpoint member holds consistency preceded
      event index inside⟩

end

section

variable (rt : Runtime) (signing : Text → Bytes → Prop) {ι : Type} (store : Store ι)

-- Where the increment of a checkpoint starts: at the boundary before it.
theorem sound_began (sound : Sound rt signing store) (checkpoint : Checkpoint)
    (member : checkpoint ∈ store.checkpoints) :
    ∃ start, incrementStart store.toLedger checkpoint = .ok start ∧ start < checkpoint.lastEventSequence := by
  obtain ⟨before, extended, origin⟩ :=
    chained_member rt signing store.events none store.checkpoints sound.chain checkpoint member
  have link := extended.link
  rw [incrementStart]
  cases before with
  | none =>
      rw [Option.map_none] at link
      rw [link]
      exact ⟨0, rfl, extended.advances⟩
  | some previous =>
      obtain ⟨earlier, inside, same⟩ := origin.resolve_left (by simp)
      cases same
      have found : store.toLedger.checkpoint previous.checkpointId = some previous :=
        distinct_found store.checkpoints sound.distinct previous inside
      rw [Option.map_some] at link
      rw [link]
      dsimp only
      rw [found]
      exact ⟨previous.lastEventSequence, rfl, extended.advances⟩

theorem covered_at (table : EventTable) (boundary : Int) (event : Event) (committed : event ∈ table.rows)
    (below : event.sequence ≤ boundary) : ∃ index : Nat, (table.upTo boundary)[index]? = some event :=
  List.mem_iff_getElem?.mp (List.mem_filter.mpr ⟨committed, by simpa using below⟩)

theorem receipt_built (sound : Sound rt signing store) (service : Keyring) (event : Event)
    (committed : event ∈ store.events.rows) :
    buildReceipt rt store.toLedger event.eventId service =
      match latest (store.checkpoints.filter fun row => event.sequence ≤ row.lastEventSequence) with
      | none => .ok (pendingReceipt (dict (event.shown rt)))
      | some checkpoint => buildReceiptAtCheckpoint rt store.toLedger event checkpoint service := by
  have found : store.toLedger.events.byId event.eventId = some event := by
    have present : (store.events.byId event.eventId).isSome := by
      rw [EventTable.byId, List.find?_isSome]
      exact ⟨event, committed, by simp⟩
    obtain ⟨other, is⟩ := Option.isSome_iff_exists.mp present
    have named : other.eventId = event.eventId := by simpa using List.find?_some is
    rw [show store.toLedger.events = store.events from rfl, is,
      same_id_same_row rt signing store other event (List.mem_of_find?_eq_some is) committed named sound]
  have stored : hex (leafHash rt.toHashFunction (event.bytes rt)) = event.leafHash :=
    (sound.rows event (.inl committed)).1.leaf.symm
  rw [buildReceipt, found]
  dsimp only
  rw [event_bytes]
  show (if _ then _ else _) = _
  rw [if_neg (by simp [stored]), event_view_shown]
  rfl

variable [DecidableEq ι] [Fintype ι]

-- Every receipt of every history, built with the service's keyring and read back from
-- JSON, is accepted by whoever holds the keys.
theorem receipts_are_accepted (calls : ι → Call) (config : Config (postgres ι) (Py Outcome))
    (reached : Reaches (postgres ι) (start rt calls) config) (legible : Legible rt config.store.toLedger)
    (loads : Text → Option Json) (undoes : Undoes rt loads) (service keyring : Keyring)
    (serves : HoldsKeys (SigningKey calls) service config.store.checkpoints)
    (holds : HoldsKeys (SigningKey calls) keyring config.store.checkpoints) :
    (∀ event ∈ config.store.events.rows,
      (∃ receipt, buildReceipt rt config.store.toLedger event.eventId service = .ok receipt ∧
        ((∀ checkpoint ∈ config.store.checkpoints, checkpoint.lastEventSequence < event.sequence) ∧
            Accepted rt loads keyring receipt ⟨true, false, none⟩ ∨
          ∃ checkpoint ∈ config.store.checkpoints, event.sequence ≤ checkpoint.lastEventSequence ∧
            (∀ other ∈ config.store.checkpoints, event.sequence ≤ other.lastEventSequence →
              other.leafCount ≤ checkpoint.leafCount) ∧
            Accepted rt loads keyring receipt ⟨true, true, some (text checkpoint.checkpointId.toText)⟩)) ∧
      ∀ checkpoint ∈ config.store.checkpoints, event.sequence ≤ checkpoint.lastEventSequence →
        ∃ receipt, buildReceiptAtCheckpoint rt config.store.toLedger event checkpoint service = .ok receipt ∧
          Accepted rt loads keyring receipt ⟨true, true, some (text checkpoint.checkpointId.toText)⟩) ∧
    ∀ checkpoint ∈ config.store.checkpoints, ∃ start,
      incrementStart config.store.toLedger checkpoint = .ok start ∧
      start < checkpoint.lastEventSequence ∧ ∀ (afterSequence : Option Int) (limit : Nat),
        start ≤ afterSequence.getD start → afterSequence.getD start ≤ checkpoint.lastEventSequence →
          (0 < limit → ∃ page,
            buildCheckpointEventPage rt config.store.toLedger checkpoint.checkpointId afterSequence limit
            service = .ok page) ∧
          ∀ page, buildCheckpointEventPage rt config.store.toLedger checkpoint.checkpointId
            afterSequence limit service =
              .ok page →
            ∀ item ∈ page.items,
              Accepted rt loads keyring item ⟨true, true, some (text checkpoint.checkpointId.toText)⟩ := by
  have sound := history_sound rt calls config reached
  have pinned : ∀ event ∈ config.store.events.rows, ∀ checkpoint ∈ config.store.checkpoints,
      event.sequence ≤ checkpoint.lastEventSequence →
        ∃ receipt, buildReceiptAtCheckpoint rt config.store.toLedger event checkpoint service = .ok receipt ∧
          Accepted rt loads keyring receipt ⟨true, true, some (text checkpoint.checkpointId.toText)⟩ := by
    intro event committed checkpoint member below
    have needed := needed_keys _ keyring _ checkpoint holds
    have supplied := needed_keys _ service _ checkpoint serves
    obtain ⟨consistency, bundled, preceded⟩ :=
      sound_preceded rt _ config.store sound legible keyring checkpoint
      member service supplied needed
    obtain ⟨index, inside⟩ :=
      covered_at config.store.events checkpoint.lastEventSequence event committed below
    exact ⟨_, built_at_checkpoint rt _ config.store sound service checkpoint member
      (own_key _ service _ checkpoint member supplied) consistency event index bundled inside,
      receipt_accepted rt _ config.store sound legible keyring loads undoes checkpoint member
        (own_key _ keyring _ checkpoint member needed) consistency preceded event index inside⟩
  refine ⟨fun event committed => ⟨?_, pinned event committed⟩, fun checkpoint member => ?_⟩
  · rw [receipt_built rt _ config.store sound service event committed]
    cases newest : latest (config.store.checkpoints.filter fun row => event.sequence ≤
          row.lastEventSequence) with
    | none =>
        have uncovered := List.filter_eq_nil_iff.mp (latest_none _ newest)
        refine ⟨_, rfl, .inl ⟨fun checkpoint member => ?_, pending_accepted rt _ config.store sound legible
          keyring loads undoes event committed⟩⟩
        simpa using uncovered checkpoint member
    | some checkpoint =>
        obtain ⟨member, above⟩ := latest_some _ checkpoint newest
        obtain ⟨inside, covers⟩ := List.mem_filter.mp member
        obtain ⟨receipt, built, accepted⟩ := pinned event committed checkpoint inside (by simpa using covers)
        refine ⟨receipt, built,
          .inr ⟨checkpoint, inside, by simpa using covers, fun other held also => ?_, accepted⟩⟩
        exact above other (List.mem_filter.mpr ⟨held, by simpa using also⟩)
  · obtain ⟨start, began, before⟩ := sound_began rt _ config.store sound checkpoint member
    refine ⟨start, began, before, fun afterSequence limit low high => ?_⟩
    have needed := needed_keys _ keyring _ checkpoint holds
    have supplied := needed_keys _ service _ checkpoint serves
    obtain ⟨consistency, bundled, preceded⟩ :=
      sound_preceded rt _ config.store sound legible keyring checkpoint
      member service supplied needed
    have keyed := own_key _ service _ checkpoint member supplied
    refine ⟨fun positive =>
      ⟨_, page_built rt _ config.store sound service checkpoint member keyed start began consistency
      bundled afterSequence limit positive low high⟩, fun page built item shown => ?_⟩
    rw [page_answered rt _ config.store sound service checkpoint member keyed start began consistency
      bundled afterSequence limit
      low high] at built
    obtain ⟨_, _, whole⟩ := (bind_ok _ _ _).mp built
    cases whole
    obtain ⟨entry, chosen, rfl⟩ := List.mem_map.mp shown
    exact receipt_accepted rt _ config.store sound legible keyring loads undoes checkpoint member
      (own_key _ keyring _ checkpoint member needed) consistency preceded entry.1 entry.2
        (candidate_inside checkpoint config.store.events _ entry (List.mem_of_mem_take chosen))

end

theorem sample_readable : Readable reference sampleTime := by
  rw [Readable]
  decide +kernel

theorem sample_legible (ledger : Ledger) (rows : ledger.events.rows = [sampleEvent])
    (checkpoints : ledger.checkpoints = [sampleCheckpoint]) : Legible reference ledger := by
  constructor
  · intro row inside
    rw [rows] at inside
    rw [List.mem_singleton.mp inside]
    exact sample_readable
  · intro checkpoint inside
    rw [checkpoints] at inside
    rw [List.mem_singleton.mp inside]
    exact sample_readable

theorem inverse_undoes (rt : Runtime) : Undoes rt (Function.partialInv (render (jsonFloat rt.floatRepr))) :=
  fun value _ => Function.partialInv_left (fun a b same => render_injective rt.floatTokens a b same) value

theorem sample_receipt_accepted : ∃ (config : Config (postgres Bool) (Py Outcome)) (receipt : Dict),
    buildReceiptAtCheckpoint reference config.store.toLedger sampleEvent sampleCheckpoint
      sampleKeyring = .ok receipt ∧
      Accepted reference (Function.partialInv (render (jsonFloat reference.floatRepr))) sampleKeyring receipt
        ⟨true, true, some (text sampleCheckpoint.checkpointId.toText)⟩ := by
  obtain ⟨config, reached, rows, checkpoints, _⟩ := sample_run
  have accepted :=
    receipts_are_accepted reference sampleCalls config reached (sample_legible _ rows checkpoints) _
    (inverse_undoes reference) sampleKeyring sampleKeyring (fun _ _ => sample_keys _)
    (fun _ _ => sample_keys _)
  exact ⟨config, (accepted.1 sampleEvent (by rw [rows]; exact List.mem_singleton_self _)).2 sampleCheckpoint
    (by rw [checkpoints]; exact List.mem_singleton_self _) (by decide)⟩

end CalibrationLedger
