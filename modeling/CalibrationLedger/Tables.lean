import CalibrationLedger.Domain

set_option autoImplicit false

namespace CalibrationLedger

-- Rows by their primary key.
structure EventTable where
  rows : List Event
  sorted : rows.Pairwise fun a b => a.sequence < b.sequence

def insertRow (event : Event) : List Event → List Event
  | [] => [event]
  | row :: rest =>
      if event.sequence < row.sequence then event :: row :: rest
      else if row.sequence < event.sequence then row :: insertRow event rest
      else row :: rest

theorem mem_insert_row (event row : Event) (rows : List Event) (member : row ∈ insertRow event rows) :
    row = event ∨ row ∈ rows := by
  induction rows with
  | nil => exact .inl (List.mem_singleton.mp member)
  | cons first rest ih =>
      rw [insertRow] at member
      split at member
      · exact List.mem_cons.mp member
      · split at member
        · rcases List.mem_cons.mp member with rfl | later
          · exact .inr List.mem_cons_self
          · exact (ih later).imp id (List.mem_cons_of_mem first)
        · exact .inr member

theorem insert_row_sorted (event : Event) (rows : List Event)
    (sorted : rows.Pairwise fun a b => a.sequence < b.sequence) :
    (insertRow event rows).Pairwise fun a b => a.sequence < b.sequence := by
  induction rows with
  | nil => exact List.pairwise_singleton _ _
  | cons first rest ih =>
      obtain ⟨above, later⟩ := List.pairwise_cons.mp sorted
      rw [insertRow]
      split
      · rename_i less
        refine List.pairwise_cons.mpr ⟨fun row member => ?_, sorted⟩
        rcases List.mem_cons.mp member with rfl | inside
        · exact less
        · exact lt_trans less (above row inside)
      · split
        · rename_i more
          refine List.pairwise_cons.mpr ⟨fun row member => ?_, ih later⟩
          rcases mem_insert_row event row rest member with rfl | inside
          · exact more
          · exact above row inside
        · exact sorted

namespace EventTable

def empty : EventTable := ⟨[], List.Pairwise.nil⟩

-- A row under a taken key does not enter.
def insert (table : EventTable) (event : Event) : EventTable :=
  ⟨insertRow event table.rows, insert_row_sorted event table.rows table.sorted⟩

def insertAll (table : EventTable) (events : List Event) : EventTable := events.foldl insert table

def byKey (table : EventTable) (businessKey : String) : Option Event :=
  table.rows.find? fun row => row.businessKey = businessKey

def byKeys (table : EventTable) (keys : List String) : List Event :=
  table.rows.filter fun row => row.businessKey ∈ keys

def byId (table : EventTable) (eventId : Uuid) : Option Event :=
  table.rows.find? fun row => row.eventId = eventId

def successor (table : EventTable) (eventId : Uuid) : Option Event :=
  table.rows.find? fun row => row.previousEventId = some eventId

def upTo (table : EventTable) (sequence : Int) : List Event :=
  table.rows.filter fun row => row.sequence ≤ sequence

def after (table : EventTable) (sequence : Int) : List Event :=
  table.rows.filter fun row => sequence < row.sequence

end EventTable

theorem insert_row_keeps (event row : Event) (rows : List Event) (member : row ∈ rows) :
    row ∈ insertRow event rows := by
  induction rows with
  | nil => cases member
  | cons first rest ih =>
      rw [insertRow]
      split
      · exact List.mem_cons_of_mem _ member
      · split
        · rcases List.mem_cons.mp member with rfl | later
          · exact List.mem_cons_self
          · exact List.mem_cons_of_mem _ (ih later)
        · exact member

theorem insert_row_enters (event : Event) (rows : List Event) :
    event ∈ insertRow event rows ∨ ∃ row ∈ rows, row.sequence = event.sequence := by
  induction rows with
  | nil => exact .inl List.mem_cons_self
  | cons first rest ih =>
      rw [insertRow]
      split
      · exact .inl List.mem_cons_self
      · split
        · rcases ih with entered | ⟨row, later, same⟩
          · exact .inl (List.mem_cons_of_mem _ entered)
          · exact .inr ⟨row, List.mem_cons_of_mem _ later, same⟩
        · exact .inr ⟨first, List.mem_cons_self, by omega⟩

theorem insert_row_filter (event : Event) (keep : Event → Bool) (rows : List Event)
    (left : keep event = false) :
    (insertRow event rows).filter keep = rows.filter keep := by
  induction rows with
  | nil => simp [insertRow, left]
  | cons first rest ih =>
      rw [insertRow]
      split
      · rw [List.filter_cons, left]
        rfl
      · split
        · rw [List.filter_cons, List.filter_cons, ih]
        · rfl

theorem mem_insert_all (table : EventTable) (events : List Event) (row : Event)
    (member : row ∈ (table.insertAll events).rows) : row ∈ events ∨ row ∈ table.rows := by
  induction events generalizing table with
  | nil => exact .inr member
  | cons first rest ih =>
      rcases ih (table.insert first) member with later | held
      · exact .inl (List.mem_cons_of_mem _ later)
      · rcases mem_insert_row first row table.rows held with rfl | old
        · exact .inl List.mem_cons_self
        · exact .inr old

theorem insert_all_keeps (table : EventTable) (events : List Event) (row : Event)
    (member : row ∈ table.rows) :
    row ∈ (table.insertAll events).rows := by
  induction events generalizing table with
  | nil => exact member
  | cons first rest ih => exact ih (table.insert first) (insert_row_keeps first row table.rows member)

theorem insert_all_enters (table : EventTable) (events : List Event)
    (apart : ∀ a b, (a ∈ events ∨ a ∈ table.rows) → (b ∈ events ∨ b ∈ table.rows) →
      a.sequence = b.sequence → a = b)
    (row : Event) (member : row ∈ events) : row ∈ (table.insertAll events).rows := by
  induction events generalizing table with
  | nil => cases member
  | cons first rest ih =>
      have inserted : first ∈ (table.insert first).rows := by
        rcases insert_row_enters first table.rows with entered | ⟨other, held, same⟩
        · exact entered
        · have equal := apart other first (.inr held) (.inl List.mem_cons_self) same
          exact insert_row_keeps first first table.rows (equal ▸ held)
      rcases List.mem_cons.mp member with rfl | later
      · exact insert_all_keeps (table.insert row) rest row inserted
      · refine ih (table.insert first) (fun a b left right => apart a b ?_ ?_) later
        · rcases left with inside | held
          · exact .inl (List.mem_cons_of_mem _ inside)
          · rcases mem_insert_row first a table.rows held with rfl | old
            · exact .inl List.mem_cons_self
            · exact .inr old
        · rcases right with inside | held
          · exact .inl (List.mem_cons_of_mem _ inside)
          · rcases mem_insert_row first b table.rows held with rfl | old
            · exact .inl List.mem_cons_self
            · exact .inr old

theorem insert_all_up_to (table : EventTable) (events : List Event) (boundary : Int)
    (above : ∀ row ∈ events, boundary < row.sequence) :
    (table.insertAll events).upTo boundary = table.upTo boundary := by
  induction events generalizing table with
  | nil => rfl
  | cons first rest ih =>
      have outside := above first List.mem_cons_self
      refine (ih (table.insert first) fun row later => above row (List.mem_cons_of_mem _ later)).trans ?_
      exact insert_row_filter first _ table.rows (by simpa using outside)

theorem sorted_filter_split (rows : List Event) (boundary : Int)
    (sorted : rows.Pairwise fun a b => a.sequence < b.sequence) :
    (rows.filter fun row => row.sequence ≤ boundary) ++
      (rows.filter fun row => boundary < row.sequence) = rows := by
  induction rows with
  | nil => rfl
  | cons first rest ih =>
      obtain ⟨above, later⟩ := List.pairwise_cons.mp sorted
      by_cases below : first.sequence ≤ boundary
      · have kept := ih later
        simpa [below, not_lt.mpr below] using kept
      · have none : (rest.filter fun row => row.sequence ≤ boundary) = [] :=
          List.filter_eq_nil_iff.mpr fun row member => by
          have more := above row member
          simp only [decide_eq_true_eq]
          omega
        have all : (rest.filter fun row => boundary < row.sequence) = rest :=
          List.filter_eq_self.mpr fun row member => by
          have more := above row member
          simp only [decide_eq_true_eq]
          omega
        simp [below, not_le.mp below, none, all]

theorem up_to_append_after (table : EventTable) (boundary : Int) :
    table.upTo boundary ++ table.after boundary = table.rows :=
      sorted_filter_split table.rows boundary table.sorted

theorem up_to_take (table : EventTable) (a b : Int) (less : a ≤ b) :
    (table.upTo b).take (table.upTo a).length = table.upTo a := by
  have inner : ((table.upTo b).filter fun row => row.sequence ≤ a) = table.upTo a := by
    rw [EventTable.upTo, EventTable.upTo, List.filter_filter]
    refine List.filter_congr fun row _ => ?_
    by_cases below : row.sequence ≤ a
    · simp [below, le_trans below less]
    · simp [below]
  have split := sorted_filter_split (table.upTo b) a (table.sorted.filter _)
  rw [inner] at split
  rw [← split, List.take_left' rfl]

theorem up_to_batch (table : EventTable) (boundary : Int) (limit : Nat) (newest : Event)
    (ends : ((table.after boundary).take limit).getLast? = some newest) :
    table.upTo newest.sequence = table.upTo boundary ++ (table.after boundary).take limit := by
  obtain ⟨earlier, cut⟩ := List.getLast?_eq_some_iff.mp ends
  have whole : table.rows =
      table.upTo boundary ++ ((table.after boundary).take limit ++ (table.after boundary).drop limit) := by
    rw [List.take_append_drop, up_to_append_after]
  have sorted := table.sorted
  rw [whole] at sorted
  obtain ⟨_, batches, across⟩ := List.pairwise_append.mp sorted
  obtain ⟨batch, _, beyond⟩ := List.pairwise_append.mp batches
  have newestIn : newest ∈ (table.after boundary).take limit := List.mem_of_getLast? ends
  have first : ((table.upTo boundary).filter fun row => row.sequence ≤ newest.sequence) =
      table.upTo boundary :=
    List.filter_eq_self.mpr fun row member => by
      have less := across row member newest (List.mem_append_left _ newestIn)
      simp only [decide_eq_true_eq]
      omega
  have second : (((table.after boundary).take limit).filter fun row => row.sequence ≤ newest.sequence) =
      (table.after boundary).take limit := List.filter_eq_self.mpr fun row member => by
    rw [cut] at member batch
    simp only [decide_eq_true_eq]
    rcases List.mem_append.mp member with before | last
    · exact le_of_lt ((List.pairwise_append.mp batch).2.2 row before newest (List.mem_singleton_self _))
    · rw [List.mem_singleton.mp last]
  have third : (((table.after boundary).drop limit).filter fun row => row.sequence ≤ newest.sequence) = [] :=
    List.filter_eq_nil_iff.mpr fun row member => by
      have more := beyond newest newestIn row member
      simp only [decide_eq_true_eq]
      omega
  calc table.upTo newest.sequence
      = (table.upTo boundary ++
        ((table.after boundary).take limit ++ (table.after boundary).drop limit)).filter
          fun row => row.sequence ≤ newest.sequence := by rw [← whole]; rfl
    _ = table.upTo boundary ++ (table.after boundary).take limit := by
      rw [List.filter_append, List.filter_append, first, second, third, List.append_nil]

-- What another transaction or a later request can read.
structure Ledger where
  events : EventTable
  checkpoints : List Checkpoint

-- order by leaf_count desc limit 1
def latest : List Checkpoint → Option Checkpoint
  | [] => none
  | checkpoint :: rest =>
      match latest rest with
      | none => some checkpoint
      | some other => if checkpoint.leafCount ≤ other.leafCount then some other else some checkpoint

theorem latest_none (checkpoints : List Checkpoint) (none : latest checkpoints = none) :
    checkpoints = [] := by
  cases checkpoints with
  | nil => rfl
  | cons first rest =>
      rw [latest] at none
      split at none
      · cases none
      · split at none <;> cases none

theorem latest_some (checkpoints : List Checkpoint) (checkpoint : Checkpoint)
    (newest : latest checkpoints = some checkpoint) :
    checkpoint ∈ checkpoints ∧ ∀ other ∈ checkpoints, other.leafCount ≤ checkpoint.leafCount := by
  induction checkpoints generalizing checkpoint with
  | nil => cases newest
  | cons first rest ih =>
      rw [latest] at newest
      split at newest
      · rename_i alone
        cases newest
        rw [latest_none rest alone]
        simp
      · rename_i found later
        obtain ⟨inside, above⟩ := ih found later
        split at newest
        · rename_i less
          cases newest
          exact ⟨List.mem_cons_of_mem _ inside, List.forall_mem_cons.mpr ⟨less, above⟩⟩
        · rename_i more
          cases newest
          exact ⟨List.mem_cons_self, List.forall_mem_cons.mpr ⟨le_refl _, fun other member =>
            le_trans (above other member) (by omega)⟩⟩

end CalibrationLedger
