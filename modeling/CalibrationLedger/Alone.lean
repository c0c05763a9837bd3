import CalibrationLedger.Batches

set_option autoImplicit false

-- What a call does to its last answer while nobody else writes: one report, and the
-- items of a batch inside their transaction.
namespace CalibrationLedger

open JsonText Digest Interleaving

section

variable {ι : Type} [DecidableEq ι] [Fintype ι] {α β : Type}

variable (i : ι) (store after : Store ι) (supply left : Supply)

theorem run_error (first : Tx α) (next : α → Tx β) (error : PyError)
    (ran : runTx i first store supply = some (.error error, after, left)) :
    runTx i (first >>= next) store supply = some (.error error, after, left) :=
  run_alone_bind (postgres ι) i first.run _ store after supply left _ ran

theorem run_recovered (body handler : Tx α)
    (ran : runTx i body store supply = some (.error .integrityError, after, left)) :
    runTx i (onIntegrityError body handler) store supply = runTx i handler (after.rollback i) left :=
  run_alone_bind (postgres ι) i body.run _ store after supply left _ ran

theorem run_unrecovered (body handler : Tx α) (outcome : Py α) (other : outcome ≠ .error .integrityError)
    (ran : runTx i body store supply = some (outcome, after, left)) :
    runTx i (onIntegrityError body handler) store supply = some (outcome, after, left) := by
  refine (run_alone_bind (postgres ι) i body.run _ store after supply left outcome ran).trans ?_
  cases outcome with
  | ok value => rfl
  | error error =>
      cases error with
      | integrityError => exact absurd rfl other
      | _ => rfl

end

-- The supply once an event has been drawn and counted.
def Supply.used (supply : Supply) : Supply :=
  ⟨fun n => supply.uuids (n + 1), fun n => supply.clocks (n + 1), fun n => supply.gaps (n + 1)⟩

theorem insert_all_snoc (table : EventTable) (events : List Event) (row : Event) :
    table.insertAll (events ++ [row]) = (table.insertAll events).insert row := by
  simp [EventTable.insertAll]

section

variable {ι : Type} [DecidableEq ι] (i : ι) (store : Store ι)

-- A sequence value given out to the session, and the row it then inserts.
def Store.counted (value : Int) : Store ι :=
  ({ store with nextSequence := value + 1 } : Store ι).update i fun tx => { tx with allocated := some value }

def Store.holding (row : Event) : Store ι :=
  store.update i fun tx => { tx with allocated := none, events := tx.events ++ [row] }

theorem counted_visible (value : Int) : (store.counted i value).visible i = store.visible i := by
  simp [Store.visible, Store.counted, Store.update]

theorem holding_visible (row : Event) : (store.holding i row).visible i = (store.visible i).insert row := by
  simp [Store.visible, Store.holding, Store.update, insert_all_snoc]

theorem commit_quiet (quiet : Idle i store) : store.commit i = store := by
  have same : Function.update store.transactions i Transaction.idle = store.transactions := by
    rw [← quiet, Function.update_eq_self]
  have rows : store.visible i = store.events := idle_visible i store quiet
  have checkpoints : store.visibleCheckpoints i = store.checkpoints := by
    rw [Store.visibleCheckpoints, quiet]
    exact List.append_nil _
  rw [Store.commit, rows, checkpoints, same]

theorem rollback_quiet (quiet : Idle i store) : store.rollback i = store := by
  have same : Function.update store.transactions i Transaction.idle = store.transactions := by
    rw [← quiet, Function.update_eq_self]
  rw [Store.rollback, Store.update, same]

theorem counted_admits (value : Int) (row : Event) :
    (store.counted i value).admits i row = store.admits i row := by
  rw [Store.admits, Store.admits, counted_visible]

theorem locked_alone (quiet : Quiet store) :
    Alone i (store.update i fun tx => { tx with shared := true }) := alone_update i store _ fun j _ => quiet j

theorem locked_visible (quiet : Quiet store) :
    (store.update i fun tx => { tx with shared := true }).visible i = store.events := by
  simp [Store.visible, Store.update, show store.transactions i = Transaction.idle from quiet i,
    Transaction.idle, EventTable.insertAll]

theorem locked_admits (quiet : Quiet store) (row : Event) :
    (store.update i fun tx => { tx with shared := true }).admits i row = store.admits i row := by
  rw [Store.admits, Store.admits, locked_visible i store quiet, idle_visible i store (quiet i)]

theorem commit_alone (alone : Alone i store) : Quiet (store.commit i) := by
  intro j
  by_cases same : j = i
  · rw [same]
    exact commit_idle i store
  · exact (update_other store i j (fun _ => Transaction.idle) same).trans (alone j same)

theorem rollback_alone (alone : Alone i store) : Quiet (store.rollback i) := by
  intro j
  by_cases same : j = i
  · rw [same]
    exact rollback_idle i store
  · exact (update_other store i j (fun _ => Transaction.idle) same).trans (alone j same)

variable [Fintype ι] (rt : Runtime)

-- The row a draft becomes.
def drawnRow (draft : Draft) (next : Int) (supply : Supply) : Event :=
  { draftRow rt draft (supply.uuids 0) (supply.clocks 0) with sequence := next + supply.gaps 0 }

variable {α : Type} (supply : Supply) (draft : Draft) (onward : Event → Tx α)

theorem run_drawn (next : Event → Tx α) : runTx i (newEvent rt draft >>= next) store supply =
    runTx i (next (draftRow rt draft (supply.uuids 0) (supply.clocks 0))) store
      ⟨fun n => supply.uuids (n + 1), fun n => supply.clocks (n + 1), supply.gaps⟩ := by
  rw [new_event_draws]
  rfl

theorem run_flushed (alone : Alone i store) (event : Event) :
    (store.admits i { event with sequence := store.nextSequence + supply.gaps 0 } = true →
      runTx i (flushEvent event >>= onward) store supply =
        runTx i (onward { event with sequence := store.nextSequence + supply.gaps 0 })
          ((store.counted i (store.nextSequence + supply.gaps 0)).holding i
            { event with sequence := store.nextSequence + supply.gaps 0 })
          { supply with gaps := fun n => supply.gaps (n + 1) }) ∧
    (store.admits i { event with sequence := store.nextSequence + supply.gaps 0 } = false →
      runTx i (flushEvent event >>= onward) store supply =
        some (.error .integrityError, store.counted i (store.nextSequence + supply.gaps 0),
          { supply with gaps := fun n => supply.gaps (n + 1) })) := by
  let row : Event := { event with sequence := store.nextSequence + supply.gaps 0 }
  let counted := store.counted i row.sequence
  let left : Supply := { supply with gaps := fun n => supply.gaps (n + 1) }
  have inserted : respond i (.insertEvent row) counted left =
      if !counted.admits i row then some (false, counted, left) else if counted.contested i row then none
      else some (true, counted.holding i row, left) := rfl
  rw [counted_admits, alone_contested i counted row (alone_update i _ _ alone)] at inserted
  refine ⟨fun admitted => ?_, fun refused => ?_⟩
  · rw [show store.admits i row = true from admitted] at inserted
    exact run_ok i _ _ supply _ _ onward row
      (run_ask_on i counted _ left _ (.insertEvent row) _ true inserted)
  · rw [show store.admits i row = false from refused] at inserted
    exact run_error i _ _ supply _ _ onward .integrityError
      (run_ask_on i counted _ left _ (.insertEvent row) _ false inserted)

theorem run_filed (alone : Alone i store)
    (admitted : store.admits i (drawnRow rt draft store.nextSequence supply) = true) :
    runTx i (newEvent rt draft >>= fun event => flushEvent event >>= onward) store supply =
      runTx i (onward (drawnRow rt draft store.nextSequence supply))
        ((store.counted i (drawnRow rt draft store.nextSequence supply).sequence).holding i
          (drawnRow rt draft store.nextSequence supply))
        supply.used := by
  rw [run_drawn]
  exact (run_flushed i store _ onward alone _).1 admitted

theorem run_unfiled (alone : Alone i store)
    (refused : store.admits i (drawnRow rt draft store.nextSequence supply) = false) :
    runTx i (newEvent rt draft >>= fun event => flushEvent event >>= onward) store supply =
      some (.error .integrityError,
        store.counted i (drawnRow rt draft store.nextSequence supply).sequence, supply.used) := by
  rw [run_drawn]
  exact (run_flushed i store _ onward alone _).2 refused

variable (request : SubmitReport) (reportDigest : String)
  (digested : digestJson rt request.report = .ok reportDigest)

include digested in
theorem append_report_shape :
    ∃ next : Option Event → Tx (Event × Bool), next none = throw .integrityError ∧ appendReport rt request =
    onIntegrityError
      (transaction (insertReport rt request reportDigest (preparedItem rt request reportDigest).fingerprint))
      (ask (.selectByKey request.businessKey) >>= next) := by
  rw [appendReport, digested, lift_ok_bind, report_fingerprinted, lift_ok_bind]
  exact ⟨_, rfl, rfl⟩

theorem run_report_invalid (invalid : ¬ Valid rt request) :
    runTx i (appendReport rt request) store supply = some (.error .valueError, store, supply) := by
  rw [appendReport, invalid_raises rt request invalid]
  rfl

variable (quiet : Quiet store)

include quiet in
theorem run_lookup (next : Option Event → Tx α) (key : String) :
    runTx i (ask (.selectByKey key) >>= next) store supply =
      runTx i (next (store.events.byKey key)) store supply := by
  refine run_ask_on i store store supply supply (.selectByKey key) next _ ?_
  rw [respond, idle_visible i store (quiet i)]

include digested quiet

theorem run_report_known (existing : Event) (found : store.events.byKey request.businessKey = some existing) :
    runTx i (appendReport rt request) store supply =
      some ((checkIdempotency existing (preparedItem rt request reportDigest).fingerprint).map
        fun event => (event, false), store, supply) := by
  obtain ⟨next, _, shape⟩ := append_report_shape rt request reportDigest digested
  rw [shape]
  have looked : runTx i
    (insertReport rt request reportDigest (preparedItem rt request reportDigest).fingerprint) store supply =
      some ((checkIdempotency existing (preparedItem rt request reportDigest).fingerprint).map
        fun event => (event, false), store, supply) := by
    rw [insertReport, run_lookup i store supply quiet, found]
    change runTx i ((liftM (checkIdempotency existing _) : Tx Event) >>= fun event =>
        pure (event, false)) store supply = _
    cases checkIdempotency existing (preparedItem rt request reportDigest).fingerprint with
    | ok event => rfl
    | error error => rfl
  have closed := run_ended i store store supply supply _ _ looked
  refine run_unrecovered i store store supply supply _ _ _ ?_ (closed.trans ?_)
  · unfold checkIdempotency
    split <;> simp [Except.map]
  · cases (checkIdempotency existing (preparedItem rt request reportDigest).fingerprint).map
        fun event => (event, false) with
    | ok pair => rw [ended, commit_quiet i store (quiet i)]
    | error error => rw [ended, rollback_quiet i store (quiet i)]

omit digested

theorem run_locked (next : Unit → Tx α) : runTx i (ask .lockShared >>= next) store supply =
    runTx i (next ()) (store.update i fun tx => { tx with shared := true }) supply := by
  refine run_ask_on i store _ supply supply .lockShared next () ?_
  rw [respond, alone_exclusive i store fun j _ => quiet j]
  rfl

variable (absent : store.events.byKey request.businessKey = none)

include absent

theorem run_insert_report (fingerprint : String) :
    (store.admits i (drawnRow rt
      (reportDraft request reportDigest fingerprint) store.nextSequence supply) = true → ∃ after,
      runTx i (insertReport rt request reportDigest fingerprint) store supply =
        some (.ok (drawnRow rt (reportDraft request reportDigest fingerprint) store.nextSequence supply,
          true), after, supply.used) ∧
      Alone i after ∧
      after.visible i =
        store.events.insert
          (drawnRow rt (reportDraft request reportDigest fingerprint) store.nextSequence supply) ∧
      after.nextSequence =
        (drawnRow rt (reportDraft request reportDigest fingerprint) store.nextSequence supply).sequence + 1) ∧
    (store.admits i (drawnRow rt
        (reportDraft request reportDigest fingerprint) store.nextSequence supply) = false → ∃ after,
      runTx i (insertReport rt request reportDigest fingerprint) store supply =
        some (.error .integrityError, after, supply.used) ∧
      Alone i after ∧ after.events = store.events) := by
  have looked : runTx i (insertReport rt request reportDigest fingerprint) store supply =
      runTx i (newEvent rt (reportDraft request reportDigest fingerprint) >>= fun event =>
        flushEvent event >>= fun row => pure (row, true))
            (store.update i fun tx => { tx with shared := true }) supply := by
    rw [insertReport, run_lookup i store supply quiet, absent]
    exact run_locked i store supply quiet _
  have alone := locked_alone i store quiet
  rw [looked]
  refine ⟨fun admitted => ?_, fun refused => ?_⟩
  · have filed := run_filed i _ rt supply (reportDraft request reportDigest fingerprint)
      (fun row => pure (row, true)) alone
      ((locked_admits i store quiet _).trans admitted)
    refine ⟨_, filed, alone_update i _ _ (alone_update i _ _ alone), ?_, rfl⟩
    rw [holding_visible, counted_visible, locked_visible i store quiet]
    rfl
  · have unfiled :=
      run_unfiled i _ rt supply (reportDraft request reportDigest fingerprint)
        (fun row => pure (row, true)) alone
      ((locked_admits i store quiet _).trans refused)
    exact ⟨_, unfiled, alone_update i _ _ alone, rfl⟩

end

-- How far a list of reports has come: the rows there are, the next sequence value
-- and what is left of the supply.
structure Progress where
  table : EventTable
  next : Int
  supply : Supply

section

variable (rt : Runtime)

def Progress.drawn (p : Progress) (item : PreparedReport) : Event :=
  drawnRow rt (reportDraft item.request item.reportDigest item.fingerprint) p.next p.supply

def Progress.filed (p : Progress) (row : Event) : Progress :=
  ⟨p.table.insert row, row.sequence + 1, p.supply.used⟩

-- A report is answered by the row with its key, if it says the same, or by a row of
-- its own.
def Progress.take (p : Progress) (item : PreparedReport) : Option ((Event × Bool) × Progress) :=
  match p.table.byKey item.request.businessKey with
  | some row => if row.contentFingerprint = item.fingerprint then some ((row, false), p) else none
  | none => some ((p.drawn rt item, true), p.filed (p.drawn rt item))

def Progress.takeAll : List PreparedReport → Progress → Option (List (Event × Bool) × Progress)
  | [], p => some ([], p)
  | item :: rest, p =>
      (p.take rt item).bind fun taken => (takeAll rest taken.2).map fun later => (taken.1 :: later.1, later.2)

-- So many ids to come are no row's, and are different.
structure NewIdsAhead (count : Nat) (p : Progress) : Prop where
  below : ∀ row ∈ p.table.rows, row.sequence < p.next
  unused : ∀ n < count, ∀ row ∈ p.table.rows, row.eventId ≠ p.supply.uuids n
  apart : ∀ m n, m < n → n < count → p.supply.uuids m ≠ p.supply.uuids n

theorem take_known (p : Progress) (item : PreparedReport) (row : Event)
    (found : p.table.byKey item.request.businessKey = some row) :
    p.take rt item = if row.contentFingerprint = item.fingerprint then some ((row, false), p) else none := by
  rw [Progress.take, found]

theorem take_new (p : Progress) (item : PreparedReport)
    (absent : p.table.byKey item.request.businessKey = none) :
    p.take rt item = some ((p.drawn rt item, true), p.filed (p.drawn rt item)) := by
  rw [Progress.take, absent]

theorem new_ids_ahead_fewer (count : Nat) (p : Progress) (fits : NewIdsAhead (count + 1) p) :
    NewIdsAhead count p :=
  ⟨fits.below, fun n less => fits.unused n (by omega), fun m n less bound => fits.apart m n less (by omega)⟩

theorem new_ids_ahead_filed (count : Nat) (p : Progress) (item : PreparedReport)
    (fits : NewIdsAhead (count + 1) p) :
    NewIdsAhead count (p.filed (p.drawn rt item)) := by
  have inside : ∀ row ∈ (p.filed (p.drawn rt item)).table.rows, row = p.drawn rt item ∨ row ∈ p.table.rows :=
    fun row member => mem_insert_row _ row p.table.rows member
  have sequence : (p.drawn rt item).sequence = p.next + p.supply.gaps 0 := rfl
  refine ⟨fun row member => ?_, fun n less row member => ?_, fun m n less bound => fits.apart (m + 1)
    (n + 1) (by omega) (by omega)⟩
  · show row.sequence < (p.drawn rt item).sequence + 1
    rcases inside row member with rfl | old
    · omega
    · have below := fits.below row old
      omega
  · rcases inside row member with rfl | old
    · exact fits.apart 0 (n + 1) (by omega) (by omega)
    · exact fits.unused (n + 1) (by omega) row old

theorem new_ids_ahead_taken (count : Nat) (p q : Progress) (item : PreparedReport) (pair : Event × Bool)
    (fits : NewIdsAhead (count + 1) p) (taken : p.take rt item = some (pair, q)) :
    NewIdsAhead count q := by
  cases found : p.table.byKey item.request.businessKey with
  | some row =>
      rw [take_known rt p item row found] at taken
      split at taken <;> cases taken
      exact new_ids_ahead_fewer count p fits
  | none =>
      rw [take_new rt p item found] at taken
      cases taken
      exact new_ids_ahead_filed rt count p item fits

end

section

variable {ι : Type} [DecidableEq ι] [Fintype ι] (i : ι) (store : Store ι) (supply : Supply) (rt : Runtime)

def progress : Progress := ⟨store.visible i, store.nextSequence, supply⟩

omit [DecidableEq ι] [Fintype ι] in
theorem new_ids_ahead_admits (count : Nat) (item : PreparedReport)
    (fits : NewIdsAhead (count + 1) (progress i store supply))
    (absent : (store.visible i).byKey item.request.businessKey = none) :
    store.admits i ((progress i store supply).drawn rt item) = true := by
  have apart : (store.visible i).rows.all
      (fun row => !((progress i store supply).drawn rt item).clashes row) = true := by
    rw [List.all_eq_true]
    intro row member
    have below : row.sequence < store.nextSequence := fits.below row member
    have later : ((progress i store supply).drawn rt item).sequence =
      store.nextSequence + supply.gaps 0 := rfl
    have sequence : ((progress i store supply).drawn rt item).sequence ≠ row.sequence := by omega
    have eventId : ((progress i store supply).drawn rt item).eventId ≠ row.eventId := fun same =>
      fits.unused 0 (by omega) row member same.symm
    have businessKey : ((progress i store supply).drawn rt item).businessKey ≠ row.businessKey := fun same =>
      absurd (decide_eq_true same.symm) (List.find?_eq_none.mp absent row member)
    have parentless : ((progress i store supply).drawn rt item).previousEventId = none := rfl
    simp [Event.clashes, sequence, eventId, businessKey, parentless]
  rw [Store.admits, apart]
  rfl

variable (quiet : Quiet store) (request : SubmitReport) (reportDigest : String)
  (digested : digestJson rt request.report = .ok reportDigest)

include quiet digested

theorem run_report_takes (count : Nat) (fits : NewIdsAhead (count + 1) (progress i store supply))
    (pair : Event × Bool) (q : Progress)
    (taken : (progress i store supply).take rt (preparedItem rt request reportDigest) = some (pair, q)) :
    ∃ after, runTx i (appendReport rt request) store supply = some (.ok pair, after, q.supply) ∧ Quiet after ∧
      progress i after q.supply = q := by
  have visible := idle_visible i store (quiet i)
  cases found : (store.visible i).byKey request.businessKey with
  | some row =>
      rw [take_known rt _ (preparedItem rt request reportDigest) row found] at taken
      split at taken <;> cases taken
      rename_i matched
      refine ⟨store, ?_, quiet, rfl⟩
      rw [run_report_known i store rt supply request reportDigest digested quiet row (visible ▸ found),
        ← matched, check_matches]
      rfl
  | none =>
      rw [take_new rt _ (preparedItem rt request reportDigest) found] at taken
      cases taken
      obtain ⟨after, ran, alone, rows, next⟩ :=
        (run_insert_report i store rt supply request reportDigest quiet (visible ▸ found)
        (preparedItem rt request reportDigest).fingerprint).1
          (new_ids_ahead_admits i store supply rt count (preparedItem rt request reportDigest) fits found)
      obtain ⟨_, _, shape⟩ := append_report_shape rt request reportDigest digested
      refine ⟨after.commit i, ?_, commit_alone i after alone, ?_⟩
      · rw [shape]
        exact run_unrecovered i store _ supply _ _ _ _ (by simp) (run_ended i store after supply _ _ _ ran)
      · have idle := commit_alone i after alone i
        rw [progress, idle_visible i _ idle]
        show Progress.mk (after.visible i) after.nextSequence supply.used = _
        rw [rows, next, ← visible]
        rfl

theorem run_report_refused
    (refused : (progress i store supply).take rt (preparedItem rt request reportDigest) = none) :
    ∃ error, runTx i (appendReport rt request) store supply = some (.error error, store, supply) ∧
    Conflict error := by
  have visible := idle_visible i store (quiet i)
  cases found : (store.visible i).byKey request.businessKey with
  | some row =>
      rw [take_known rt _ (preparedItem rt request reportDigest) row found] at refused
      split at refused
      · cases refused
      · rename_i different
        obtain ⟨error, checked, conflict⟩ :=
          check_conflicts row (preparedItem rt request reportDigest).fingerprint different
        refine ⟨error, ?_, conflict⟩
        rw [run_report_known i store rt supply request reportDigest digested quiet row
          (visible ▸ found), checked]
        rfl
  | none =>
      rw [take_new rt _ (preparedItem rt request reportDigest) found] at refused
      cases refused

end

end CalibrationLedger
