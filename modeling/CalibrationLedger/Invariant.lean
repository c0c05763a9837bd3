import CalibrationLedger.Library.RelyGuarantee
import CalibrationLedger.Sealing

set_option autoImplicit false

-- What holds of the store between any two statements of any two sessions.
namespace CalibrationLedger

open JsonText Digest Interleaving

-- The request a row records, as its fingerprint covers it.
def Event.submission (row : Event) : List (String × Json) :=
  match row.eventType with
  | .report => [("event_type", string "report"), ("business_key", string row.businessKey),
      ("instrument_id", string row.instrumentId), ("operator_id", string row.operatorId),
      ("report_digest", optional row.reportDigest)]
  | .revision => [("event_type", string "revision"), ("business_key", string row.businessKey),
      ("previous_event_id", optional (row.previousEventId.map Uuid.toText)),
      ("instrument_id", string row.instrumentId),
      ("operator_id", string row.operatorId), ("report_digest", optional row.reportDigest)]
  | .revocation => [("event_type", string "revocation"), ("business_key", string row.businessKey),
      ("previous_event_id", optional (row.previousEventId.map Uuid.toText)),
      ("operator_id", string row.operatorId),
      ("reason", optional row.reason)]

-- The step of a record from one event to the next.
structure Succeeds (parent row : Event) : Prop where
  names : row.previousEventId = some parent.eventId
  standing : parent.eventType ≠ .revocation
  record : row.recordId = parent.recordId
  instrument : row.instrumentId = parent.instrumentId
  later : parent.sequence < row.sequence

def Lineage (rows : List Event) (row : Event) : Prop :=
  match row.eventType with
  | .report => row.previousEventId = none ∧ row.recordId = row.eventId
  | .revision => ∃ parent ∈ rows, Succeeds parent row
  | .revocation => ∃ parent ∈ rows, Succeeds parent row

theorem lineage_grows (rows more : List Event) (row : Event) (grows : ∀ other ∈ rows, other ∈ more)
    (lineage : Lineage rows row) : Lineage more row := by
  unfold Lineage at lineage ⊢
  split
  · rename_i type
    rw [type] at lineage
    exact lineage
  · rename_i type
    rw [type] at lineage
    obtain ⟨parent, inside, step⟩ := lineage
    exact ⟨parent, grows parent inside, step⟩
  · rename_i type
    rw [type] at lineage
    obtain ⟨parent, inside, step⟩ := lineage
    exact ⟨parent, grows parent inside, step⟩

section

variable (rt : Runtime)

def rowLeaf (row : Event) : Bytes := leafHash rt.toHashFunction (row.bytes rt)

structure WellFormed (row : Event) : Prop where
  leaf : row.leafHash = hex (rowLeaf rt row)
  payload : row.payloadShape = true
  fingerprint : row.contentFingerprint = sha256Hex rt (bytesOf rt (.obj (dict row.submission)))

def rootOver (table : EventTable) (boundary : Int) : String :=
  hex (merkleRoot rt.toHashFunction ((table.upTo boundary).map (rowLeaf rt)))

variable (signing : Text → Bytes → Prop)

-- The step of the chain from one checkpoint, or none, to the next.
structure Extends (table : EventTable) (previous : Option Checkpoint) (checkpoint : Checkpoint) : Prop where
  link : checkpoint.previousCheckpointId = previous.map Checkpoint.checkpointId
  rootLink : checkpoint.previousRootHash = previous.map Checkpoint.rootHash
  grows : leafCountOf previous < checkpoint.leafCount
  advances : boundaryOf previous < checkpoint.lastEventSequence
  reaches : ∃ row ∈ table.rows, row.sequence = checkpoint.lastEventSequence
  count : (table.upTo checkpoint.lastEventSequence).length = checkpoint.leafCount
  root : rootOver rt table checkpoint.lastEventSequence = checkpoint.rootHash
  signed : ∃ key, signing (text checkpoint.keyVersion) key ∧
    checkpoint.signature = signCheckpoint rt.toHashFunction (checkpoint.bytes rt) key

def Chained (table : EventTable) (previous : Option Checkpoint) : List Checkpoint → Prop
  | [] => True
  | checkpoint :: rest => Extends rt signing table previous checkpoint ∧ Chained table (some checkpoint) rest

variable {ι : Type}

def Store.Holds (store : Store ι) (row : Event) : Prop :=
  row ∈ store.events.rows ∨ ∃ i, row ∈ (store.transactions i).events

structure Sound (store : Store ι) : Prop where
  rows : ∀ row, store.Holds row → WellFormed rt row ∧ Lineage store.events.rows row
  sequences : ∀ row, store.Holds row → 0 < row.sequence ∧ row.sequence < store.nextSequence
  apart : ∀ a b, store.Holds a → store.Holds b → a.clashes b = true → a = b
  allocated : ∀ i sequence, (store.transactions i).allocated = some sequence →
    0 < sequence ∧ sequence < store.nextSequence ∧ (store.transactions i).shared = true
  pending : ∀ i row, row ∈ (store.transactions i).events → (store.transactions i).shared = true
  locks : ∀ i j, (store.transactions i).exclusive = true →
    (store.transactions j).shared = true ∨ (store.transactions j).exclusive = true → i = j
  boundaries : ∀ checkpoint ∈ store.checkpoints, ∀ i,
    (∀ row ∈ (store.transactions i).events, checkpoint.lastEventSequence < row.sequence) ∧
      ∀ sequence, (store.transactions i).allocated = some sequence → checkpoint.lastEventSequence < sequence
  chain : Chained rt signing store.events none store.checkpoints
  distinct : store.checkpoints.Pairwise fun a b => a.checkpointId ≠ b.checkpointId
  drafted : ∀ i, (store.transactions i).checkpoints = [] ∨ ∃ checkpoint,
    (store.transactions i).checkpoints = [checkpoint] ∧ (store.transactions i).exclusive = true ∧
      (store.transactions i).events = [] ∧ (store.transactions i).allocated = none ∧
      Extends rt signing store.events store.checkpoints.getLast? checkpoint ∧
      ∀ other ∈ store.checkpoints, other.checkpointId ≠ checkpoint.checkpointId
  started : 0 < store.nextSequence

-- What a session sees of the others: they leave its transaction alone, they only
-- add rows, and while it holds the exclusive lock they add none.
structure LedgerRely (i : ι) (before after : Store ι) : Prop where
  own : after.transactions i = before.transactions i
  rows : ∀ row ∈ before.events.rows, row ∈ after.events.rows
  next : before.nextSequence ≤ after.nextSequence
  frozen : (before.transactions i).exclusive = true → after.events = before.events ∧
    after.checkpoints = before.checkpoints

-- What the code owes before each statement.
def Allowed (i : ι) (query : Statement) (store : Store ι) : Prop :=
  match query with
  | .nextval => (store.transactions i).shared = true ∧ (store.transactions i).checkpoints = []
  | .insertEvent row => (store.transactions i).allocated = some row.sequence ∧
      (store.transactions i).checkpoints = [] ∧
      WellFormed rt row ∧ Lineage store.events.rows row
  | .insertCheckpoint checkpoint => (store.transactions i).exclusive = true ∧
      (store.transactions i).events = [] ∧
      (store.transactions i).allocated = none ∧ (store.transactions i).checkpoints = [] ∧
      Extends rt signing store.events store.checkpoints.getLast? checkpoint
  | _ => True

end

section

variable {ι : Type}

theorem ledger_rely_refl (i : ι) (store : Store ι) : LedgerRely i store store :=
  ⟨rfl, fun _ member => member, le_refl _, fun _ => ⟨rfl, rfl⟩⟩

theorem ledger_rely_trans (i : ι) (a b c : Store ι) (first : LedgerRely i a b)
    (second : LedgerRely i b c) : LedgerRely i a c where
  own := second.own.trans first.own
  rows row member := second.rows row (first.rows row member)
  next := le_trans first.next second.next
  frozen held := by
    obtain ⟨events, checkpoints⟩ := first.frozen held
    obtain ⟨laterEvents, laterCheckpoints⟩ := second.frozen (by rw [first.own]; exact held)
    exact ⟨laterEvents.trans events, laterCheckpoints.trans checkpoints⟩

variable (rt : Runtime) (signing : Text → Bytes → Prop)

theorem same_id_same_row (store : Store ι) (a b : Event) (left : a ∈ store.events.rows)
    (right : b ∈ store.events.rows) (same : a.eventId = b.eventId) (sound : Sound rt signing store) :
    a = b :=
  sound.apart a b (.inl left) (.inl right) (by simp [Event.clashes, same])

theorem extends_same_rows (table later : EventTable) (previous : Option Checkpoint)
    (checkpoint : Checkpoint) (rows : ∀ row ∈ table.rows, row ∈ later.rows)
    (same : later.upTo checkpoint.lastEventSequence = table.upTo checkpoint.lastEventSequence)
    (extended : Extends rt signing table previous checkpoint) :
    Extends rt signing later previous checkpoint := by
  obtain ⟨link, rootLink, grows, advances, ⟨row, inside, at_boundary⟩, count, root, signed⟩ := extended
  refine ⟨link, rootLink, grows, advances, ⟨row, rows row inside, at_boundary⟩, ?_, ?_, signed⟩
  · rw [same]
    exact count
  · rw [rootOver, same]
    exact root

theorem chained_same_rows (table later : EventTable) (previous : Option Checkpoint)
    (checkpoints : List Checkpoint) (rows : ∀ row ∈ table.rows, row ∈ later.rows)
    (same : ∀ checkpoint ∈ checkpoints,
      later.upTo checkpoint.lastEventSequence = table.upTo checkpoint.lastEventSequence)
    (chained : Chained rt signing table previous checkpoints) :
    Chained rt signing later previous checkpoints := by
  induction checkpoints generalizing previous with
  | nil => trivial
  | cons first rest ih =>
      exact ⟨extends_same_rows rt signing table later previous first rows
        (same first List.mem_cons_self) chained.1,
        ih (some first) (fun c later => same c (List.mem_cons_of_mem _ later)) chained.2⟩

theorem chained_append (table : EventTable) (previous : Option Checkpoint) (checkpoints : List Checkpoint)
    (last : Checkpoint) (chained : Chained rt signing table previous checkpoints)
    (extended : Extends rt signing table (checkpoints.getLast?.or previous) last) :
    Chained rt signing table previous (checkpoints ++ [last]) := by
  induction checkpoints generalizing previous with
  | nil => exact ⟨extended, trivial⟩
  | cons first rest ih =>
      refine ⟨chained.1, ih (some first) chained.2 ?_⟩
      cases rest with
      | nil => exact extended
      | cons second others =>
          obtain ⟨final, ends⟩ : ∃ final, (second :: others).getLast? = some final :=
            Option.isSome_iff_exists.mp (by simp)
          rw [List.getLast?_cons_cons, ends] at extended
          rw [ends]
          exact extended

theorem chained_latest (table : EventTable) (previous : Option Checkpoint) (checkpoints : List Checkpoint)
    (chained : Chained rt signing table previous checkpoints) :
    latest checkpoints = checkpoints.getLast? ∧
      ∀ checkpoint ∈ checkpoints, leafCountOf previous < checkpoint.leafCount := by
  induction checkpoints generalizing previous with
  | nil => exact ⟨rfl, fun _ member => by cases member⟩
  | cons first rest ih =>
      obtain ⟨onward, above⟩ := ih (some first) chained.2
      have grows := chained.1.grows
      refine ⟨?_, fun checkpoint member => ?_⟩
      · rw [latest, onward]
        cases rest with
        | nil => rfl
        | cons second others =>
            rw [List.getLast?_cons_cons]
            cases last : (second :: others).getLast? with
            | none => simp at last
            | some final =>
                have inside : final ∈ second :: others := List.mem_of_getLast? last
                have more : first.leafCount < final.leafCount := above final inside
                simp [Nat.le_of_lt more]
      · rcases List.mem_cons.mp member with rfl | later
        · exact grows
        · exact lt_trans grows (above checkpoint later)

theorem extends_bounded (table : EventTable) (previous : Option Checkpoint) (checkpoint : Checkpoint)
    (next : Int) (rows : ∀ row ∈ table.rows, row.sequence < next)
    (extended : Extends rt signing table previous checkpoint) :
    checkpoint.lastEventSequence < next := by
  obtain ⟨row, inside, reaches⟩ := extended.reaches
  rw [← reaches]
  exact rows row inside

theorem chained_member (table : EventTable) (previous : Option Checkpoint) (checkpoints : List Checkpoint)
    (chained : Chained rt signing table previous checkpoints) (checkpoint : Checkpoint)
    (member : checkpoint ∈ checkpoints) : ∃ before, Extends rt signing table before checkpoint ∧
      (before = previous ∨ ∃ earlier ∈ checkpoints, before = some earlier) := by
  induction checkpoints generalizing previous with
  | nil => cases member
  | cons first rest ih =>
      rcases List.mem_cons.mp member with rfl | later
      · exact ⟨previous, chained.1, .inl rfl⟩
      · obtain ⟨before, extended, rfl | ⟨earlier, inside, rfl⟩⟩ := ih (some first) chained.2 later
        · exact ⟨some first, extended, .inr ⟨first, List.mem_cons_self, rfl⟩⟩
        · exact ⟨some earlier, extended, .inr ⟨earlier, List.mem_cons_of_mem _ inside, rfl⟩⟩

variable [DecidableEq ι]

theorem update_same (store : Store ι) (i : ι) (change : Transaction → Transaction) :
    (store.update i change).transactions i = change (store.transactions i) := by
  simp [Store.update]

theorem update_other (store : Store ι) (i j : ι) (change : Transaction → Transaction) (other : j ≠ i) :
    (store.update i change).transactions j = store.transactions j := by
  simp [Store.update, other]

theorem update_cases (store : Store ι) (i j : ι) (change : Transaction → Transaction) :
    j = i ∧ (store.update i change).transactions j = change (store.transactions i) ∨
      j ≠ i ∧ (store.update i change).transactions j = store.transactions j := by
  by_cases same : j = i
  · exact .inl ⟨same, by rw [same]; exact update_same store i change⟩
  · exact .inr ⟨same, update_other store i j change same⟩

theorem update_ledger_rely (store : Store ι) (i j : ι) (change : Transaction → Transaction) (other : j ≠ i) :
    LedgerRely j store (store.update i change) :=
  ⟨update_other store i j change other, fun _ member => member, le_refl _, fun _ => ⟨rfl, rfl⟩⟩

theorem sound_locking (store : Store ι) (i : ι) (change : Transaction → Transaction)
    (events : (change (store.transactions i)).events = (store.transactions i).events)
    (allocated : (change (store.transactions i)).allocated = (store.transactions i).allocated)
    (checkpoints : (change (store.transactions i)).checkpoints = (store.transactions i).checkpoints)
    (shared : (store.transactions i).shared = true → (change (store.transactions i)).shared = true)
    (exclusive : (store.transactions i).exclusive = true → (change (store.transactions i)).exclusive = true)
    (taken : (change (store.transactions i)).exclusive = true → (store.transactions i).exclusive = true ∨
      ∀ j, j ≠ i → (store.transactions j).shared = false ∧ (store.transactions j).exclusive = false)
    (joined : (change (store.transactions i)).shared = true → (store.transactions i).shared = true ∨
      ∀ j, j ≠ i → (store.transactions j).exclusive = false)
    (sound : Sound rt signing store) : Sound rt signing (store.update i change) := by
  have eventsOf : ∀ j, ((store.update i change).transactions j).events = (store.transactions j).events := by
    intro j
    rcases update_cases store i j change with ⟨rfl, is⟩ | ⟨_, is⟩
    · rw [is, events]
    · rw [is]
  have allocatedOf : ∀ j, ((store.update i change).transactions j).allocated =
      (store.transactions j).allocated := by
    intro j
    rcases update_cases store i j change with ⟨rfl, is⟩ | ⟨_, is⟩
    · rw [is, allocated]
    · rw [is]
  have checkpointsOf : ∀ j, ((store.update i change).transactions j).checkpoints =
      (store.transactions j).checkpoints := by
    intro j
    rcases update_cases store i j change with ⟨rfl, is⟩ | ⟨_, is⟩
    · rw [is, checkpoints]
    · rw [is]
  have sharedOf : ∀ j, (store.transactions j).shared = true →
      ((store.update i change).transactions j).shared = true := by
    intro j held
    rcases update_cases store i j change with ⟨rfl, is⟩ | ⟨_, is⟩
    · rw [is]
      exact shared held
    · rw [is]
      exact held
  have exclusiveOf : ∀ j, (store.transactions j).exclusive = true →
      ((store.update i change).transactions j).exclusive = true := by
    intro j held
    rcases update_cases store i j change with ⟨rfl, is⟩ | ⟨_, is⟩
    · rw [is]
      exact exclusive held
    · rw [is]
      exact held
  have holds : ∀ row, (store.update i change).Holds row ↔ store.Holds row := by
    intro row
    simp only [Store.Holds, eventsOf]
    rfl
  refine ⟨?_, ?_, ?_, ?_, ?_, ?_, ?_, sound.chain, sound.distinct, ?_, sound.started⟩
  · exact fun row held => sound.rows row ((holds row).mp held)
  · exact fun row held => sound.sequences row ((holds row).mp held)
  · exact fun a b left right => sound.apart a b ((holds a).mp left) ((holds b).mp right)
  · intro j sequence given
    rw [allocatedOf] at given
    obtain ⟨positive, below, held⟩ := sound.allocated j sequence given
    exact ⟨positive, below, sharedOf j held⟩
  · intro j row member
    rw [eventsOf] at member
    exact sharedOf j (sound.pending j row member)
  · intro j k held against
    rcases update_cases store i j change with ⟨sameJ, isJ⟩ | ⟨otherJ, isJ⟩ <;>
      rcases update_cases store i k change with ⟨sameK, isK⟩ | ⟨otherK, isK⟩
    · exact sameJ.trans sameK.symm
    · subst sameJ
      rw [isJ] at held
      rw [isK] at against
      rcases taken held with before | none
      · exact sound.locks j k before against
      · obtain ⟨noShared, noExclusive⟩ := none k otherK
        simp [noShared, noExclusive] at against
    · rw [isJ] at held
      rw [isK] at against
      subst sameK
      rcases against with nowShared | nowExclusive
      · rcases joined nowShared with before | none
        · exact sound.locks j k held (.inl before)
        · simp [none j otherJ] at held
      · rcases taken nowExclusive with before | none
        · exact sound.locks j k held (.inr before)
        · simp [none j otherJ] at held
    · rw [isJ] at held
      rw [isK] at against
      exact sound.locks j k held against
  · intro checkpoint member j
    rw [eventsOf, allocatedOf]
    exact sound.boundaries checkpoint member j
  · intro j
    rw [checkpointsOf, eventsOf, allocatedOf]
    rcases sound.drafted j with none | ⟨checkpoint, one, held, noEvents, noValue, extended, fresh⟩
    · exact .inl none
    · exact .inr ⟨checkpoint, one, exclusiveOf j held, noEvents, noValue, extended, fresh⟩

end

end CalibrationLedger
