import CalibrationLedger.Alone

set_option autoImplicit false

-- A batch beside its items one after another, nobody else writing.
namespace CalibrationLedger

open JsonText Digest Interleaving

section

variable (rt : Runtime)

-- The items of a list, a call each.
def appendEach : List SubmitReport → Tx (List (Event × Bool))
  | [] => return []
  | request :: rest => do
      let pair ← appendReport rt request
      let later ← appendEach rest
      return pair :: later

theorem insert_row_last (row : Event) (rows : List Event)
    (last : ∀ other ∈ rows, other.sequence < row.sequence) :
    insertRow row rows = rows ++ [row] := by
  induction rows with
  | nil => rfl
  | cons first rest ih =>
      have less := last first List.mem_cons_self
      rw [insertRow, if_neg (by omega), if_pos less, ih fun other member =>
        last other (List.mem_cons_of_mem _ member)]
      rfl

theorem by_key_filed (p : Progress) (item : PreparedReport)
    (below : ∀ row ∈ p.table.rows, row.sequence < p.next) (key : String) :
    (p.filed (p.drawn rt item)).table.byKey key = (p.table.rows ++ [p.drawn rt item]).find? fun row =>
      row.businessKey = key := by
  have later : (p.drawn rt item).sequence = p.next + p.supply.gaps 0 := rfl
  show (insertRow (p.drawn rt item) p.table.rows).find? _ = _
  rw [insert_row_last (p.drawn rt item) p.table.rows fun other member => ?_]
  have less := below other member
  omega

theorem take_keeps (count : Nat) (p q : Progress) (item : PreparedReport) (pair : Event × Bool)
    (fits : NewIdsAhead (count + 1) p) (taken : p.take rt item = some (pair, q)) (key : String)
    (row : Event) (found : p.table.byKey key = some row) :
    q.table.byKey key = some row := by
  cases known : p.table.byKey item.request.businessKey with
  | some existing =>
      rw [take_known rt p item existing known] at taken
      split at taken <;> cases taken
      exact found
  | none =>
      rw [take_new rt p item known] at taken
      cases taken
      rw [by_key_filed rt p item fits.below, List.find?_append, show p.table.rows.find? _ = _ from found]
      rfl

theorem take_answers (count : Nat) (p q : Progress) (item : PreparedReport) (pair : Event × Bool)
    (fits : NewIdsAhead (count + 1) p) (taken : p.take rt item = some (pair, q)) :
    ∃ row, q.table.byKey item.request.businessKey = some row ∧ row.contentFingerprint = item.fingerprint := by
  cases known : p.table.byKey item.request.businessKey with
  | some existing =>
      rw [take_known rt p item existing known] at taken
      split at taken <;> cases taken
      rename_i matched
      exact ⟨existing, known, matched⟩
  | none =>
      rw [take_new rt p item known] at taken
      cases taken
      refine ⟨p.drawn rt item, ?_, rfl⟩
      rw [by_key_filed rt p item fits.below, List.find?_append, show p.table.rows.find? _ = _ from known]
      simp [Progress.drawn, drawnRow, draftRow, reportDraft]

theorem take_all_cons (p : Progress) (item : PreparedReport) (rest : List PreparedReport)
    (pairs : List (Event × Bool)) (q : Progress) :
    p.takeAll rt (item :: rest) = some (pairs, q) ↔
      ∃ pair middle later, p.take rt item = some (pair, middle) ∧
      middle.takeAll rt rest = some (later, q) ∧ pairs = pair :: later := by
  rw [Progress.takeAll]
  constructor
  · intro taken
    obtain ⟨⟨pair, middle⟩, first, onward⟩ := Option.bind_eq_some_iff.mp taken
    obtain ⟨⟨later, last⟩, others, whole⟩ := Option.map_eq_some_iff.mp onward
    cases whole
    exact ⟨pair, middle, later, first, others, rfl⟩
  · rintro ⟨pair, middle, later, first, others, rfl⟩
    rw [first, Option.bind_some, others]
    rfl

theorem take_all_refused (p : Progress) (item : PreparedReport) (rest : List PreparedReport)
    (pair : Event × Bool) (middle : Progress) (first : p.take rt item = some (pair, middle))
    (refused : p.takeAll rt (item :: rest) = none) : middle.takeAll rt rest = none := by
  rw [Progress.takeAll, first, Option.bind_some] at refused
  exact Option.map_eq_none_iff.mp refused

-- So many items are taken, and the next one is not.
def Stopped (p : Progress) (items : List PreparedReport) (count : Nat) : Prop :=
  ∃ earlier item later pairs q, items = earlier ++ item :: later ∧ earlier.length = count ∧
    p.takeAll rt earlier = some (pairs, q) ∧
    q.take rt item = none

theorem stopped_later (p middle : Progress) (item : PreparedReport) (rest : List PreparedReport)
    (pair : Event × Bool) (count : Nat) (first : p.take rt item = some (pair, middle))
    (stopped : Stopped rt middle rest count) : Stopped rt p (item :: rest) (count + 1) := by
  obtain ⟨earlier, next, later, pairs, q, rfl, rfl, taken, refused⟩ := stopped
  exact ⟨item :: earlier, next, later, pair :: pairs, q, rfl, rfl,
    (take_all_cons rt p item earlier _ q).mpr ⟨pair, middle, pairs, first, taken, rfl⟩, refused⟩

theorem take_all_agree (items : List PreparedReport) (p q : Progress) (pairs : List (Event × Bool))
    (fits : NewIdsAhead items.length p) (taken : p.takeAll rt items = some (pairs, q)) :
    (∀ key row, p.table.byKey key = some row → q.table.byKey key = some row) ∧ ∀ item ∈ items, ∃ row,
      q.table.byKey item.request.businessKey = some row ∧ row.contentFingerprint = item.fingerprint := by
  induction items generalizing p pairs with
  | nil =>
      cases taken
      exact ⟨fun _ _ found => found, fun item member => by cases member⟩
  | cons item rest ih =>
      obtain ⟨pair, middle, later, first, others, rfl⟩ := (take_all_cons rt p item rest pairs q).mp taken
      obtain ⟨keeps, answers⟩ := ih middle later
        (new_ids_ahead_taken rt rest.length p middle item pair fits first) others
      refine ⟨fun key row found =>
        keeps key row (take_keeps rt rest.length p middle item pair fits first key row found), ?_⟩
      intro other member
      rcases List.mem_cons.mp member with rfl | inside
      · obtain ⟨row, found, matched⟩ := take_answers rt rest.length p middle other pair fits first
        exact ⟨row, keeps _ row found, matched⟩
      · exact answers other inside

theorem take_all_apart (items : List PreparedReport) (p q : Progress) (pairs : List (Event × Bool))
    (fits : NewIdsAhead items.length p) (taken : p.takeAll rt items = some (pairs, q)) :
    ¬ Collides items := by
  rintro ⟨a, first, b, second, keyed, apart⟩
  obtain ⟨_, answers⟩ := take_all_agree rt items p q pairs fits taken
  obtain ⟨row, found, matched⟩ := answers a first
  obtain ⟨other, found', matched'⟩ := answers b second
  rw [keyed, found'] at found
  cases found
  exact apart (matched.symm.trans matched')

end

section

variable {ι : Type} [DecidableEq ι] [Fintype ι] (i : ι) (rt : Runtime)

theorem run_each (requests : List SubmitReport) (prepared : List PreparedReport) (store : Store ι)
    (supply : Supply) (quiet : Quiet store) (made : prepareBatch rt 0 requests = .ok prepared)
    (fits : NewIdsAhead prepared.length (progress i store supply)) :
    (∀ pairs q, (progress i store supply).takeAll rt prepared = some (pairs, q) → ∃ after,
      runTx i (appendEach rt requests) store supply = some (.ok pairs, after, q.supply) ∧ Quiet after ∧
      progress i after q.supply = q) ∧
    ((progress i store supply).takeAll rt prepared = none → ∃ error after left,
      runTx i (appendEach rt requests) store supply = some (.error error, after, left)) := by
  have each := (prepare_batch_valid rt 0 requests prepared).mp made
  clear made
  induction each generalizing store supply with
  | nil =>
      refine ⟨fun pairs q taken => ?_, fun refused => by cases refused⟩
      cases taken
      exact ⟨store, rfl, quiet, rfl⟩
  | @cons request item requests prepared item _ ih =>
      obtain ⟨reportDigest, digested, rfl⟩ := item
      cases first : (progress i store supply).take rt (preparedItem rt request reportDigest) with
      | none =>
          obtain ⟨error, ran, _⟩ :=
            run_report_refused i store supply rt quiet request reportDigest digested first
          refine ⟨fun pairs q taken => ?_,
            fun _ => ⟨error, store, supply, run_error i store store supply supply _ _ error ran⟩⟩
          obtain ⟨_, _, _, taken, _⟩ := (take_all_cons rt _ _ _ _ _).mp taken
          rw [first] at taken
          cases taken
      | some result =>
          obtain ⟨pair, middle⟩ := result
          obtain ⟨after, ran, quietAfter, reached⟩ :=
            run_report_takes i store supply rt quiet request reportDigest digested
            prepared.length fits pair middle first
          have fitsAfter := new_ids_ahead_taken rt prepared.length _ middle _ pair fits first
          obtain ⟨good, bad⟩ := ih after middle.supply quietAfter (reached.symm ▸ fitsAfter)
          rw [reached] at good bad
          refine ⟨fun pairs q taken => ?_, fun refused => ?_⟩
          · obtain ⟨_, _, later, again, others, rfl⟩ := (take_all_cons rt _ _ _ _ _).mp taken
            rw [first] at again
            cases again
            obtain ⟨last, onward, quietLast, ends⟩ := good later q others
            refine ⟨last, ?_, quietLast, ends⟩
            refine (run_ok i store after supply middle.supply _ _ pair ran).trans ?_
            exact run_ok i after last middle.supply q.supply _ _ later onward
          · have others := take_all_refused rt _ _ prepared pair middle first refused
            obtain ⟨error, last, left, onward⟩ := bad others
            refine ⟨error, last, left, (run_ok i store after supply middle.supply _ _ pair ran).trans ?_⟩
            exact run_error i after last middle.supply left _ _ error onward

theorem run_each_invalid (requests : List SubmitReport) (store : Store ι) (supply : Supply)
    (quiet : Quiet store) (fits : NewIdsAhead requests.length (progress i store supply))
    (request : SubmitReport) (member : request ∈ requests) (invalid : ¬ Valid rt request) :
    ∃ error after left, runTx i (appendEach rt requests) store supply = some (.error error, after, left) := by
  induction requests generalizing store supply with
  | nil => cases member
  | cons head rest ih =>
      by_cases valid : Valid rt head
      · obtain ⟨reportDigest, digested⟩ := valid
        have later : request ∈ rest := by
          rcases List.mem_cons.mp member with rfl | inside
          · exact absurd ⟨reportDigest, digested⟩ invalid
          · exact inside
        cases first : (progress i store supply).take rt (preparedItem rt head reportDigest) with
        | none =>
            obtain ⟨error, ran, _⟩ :=
              run_report_refused i store supply rt quiet head reportDigest digested first
            exact ⟨error, store, supply, run_error i store store supply supply _ _ error ran⟩
        | some result =>
            obtain ⟨pair, middle⟩ := result
            obtain ⟨after, ran, quietAfter, reached⟩ :=
              run_report_takes i store supply rt quiet head reportDigest digested
              rest.length fits pair middle first
            have fitsAfter := new_ids_ahead_taken rt rest.length _ middle _ pair fits first
            obtain ⟨error, last, left, onward⟩ := ih after middle.supply quietAfter
              (reached.symm ▸ fitsAfter) later
            refine ⟨error, last, left, (run_ok i store after supply middle.supply _ _ pair ran).trans ?_⟩
            exact run_error i after last middle.supply left _ _ error onward
      · exact ⟨.valueError, store, supply,
          run_error i store store supply supply _ _ _ (run_report_invalid i store rt supply head valid)⟩

omit [DecidableEq ι] [Fintype ι] in
theorem insert_items_known (index : Nat) (resolved appended : List Event) (item : PreparedReport)
    (rest : List PreparedReport) (existing : Event)
    (found : resolved.find? (fun row => row.businessKey = item.request.businessKey) = some existing) :
    insertItems rt index resolved appended (item :: rest) =
      (liftM (withIndex index (checkIdempotency existing item.fingerprint)) : Tx Event) >>= fun event =>
        insertItems rt (index + 1) resolved appended rest >>= fun later =>
          pure ((event, false) :: later) := by
  rw [insertItems]
  simp only [found]

omit [DecidableEq ι] [Fintype ι] in
theorem insert_items_new (index : Nat) (resolved appended : List Event) (item : PreparedReport)
    (rest : List PreparedReport)
    (absent : resolved.find? (fun row => row.businessKey = item.request.businessKey) = none)
    (within : ∀ row ∈ appended, row ∈ resolved) :
    insertItems rt index resolved appended (item :: rest) =
      newEvent rt (reportDraft item.request item.reportDigest item.fingerprint) >>= fun event =>
        flushEvent event >>= fun row =>
        insertItems rt (index + 1) (resolved ++ [row]) (appended ++ [row]) rest >>= fun later =>
          pure ((row, true) :: later) := by
  have unappended : appended.find? (fun row => row.businessKey = item.request.businessKey) = none :=
    List.find?_eq_none.mpr fun row member => List.find?_eq_none.mp absent row (within row member)
  rw [insertItems]
  simp only [absent, unappended]

-- A response that names an item.
def Names (code : String) (index : Nat) (error : PyError) : Prop :=
  ∃ details, error = .ledger details ∧ details.code = code ∧
    details.details.lookup "index" = some (.int index)

omit [DecidableEq ι] [Fintype ι] in
theorem with_index_names (index : Nat) (error : PyError) (conflict : Conflict error) :
    ∃ other, (withIndex index (.error error) : Py Event) = .error other ∧
    Names "IDEMPOTENCY_CONFLICT" index other := by
  obtain ⟨details, rfl, code⟩ := conflict
  exact ⟨_, rfl, _, rfl, code, rfl⟩

theorem run_items (items : List PreparedReport) (index : Nat) (resolved appended : List Event)
    (store : Store ι) (supply : Supply) (alone : Alone i store) (agrees : ∀ item ∈ items,
      resolved.find? (fun row => row.businessKey = item.request.businessKey) =
        (store.visible i).byKey item.request.businessKey)
    (within : ∀ row ∈ appended, row ∈ resolved)
    (fits : NewIdsAhead items.length (progress i store supply)) :
    (∀ pairs q, (progress i store supply).takeAll rt items = some (pairs, q) → ∃ after,
      runTx i (insertItems rt index resolved appended items) store supply =
        some (.ok pairs, after, q.supply) ∧ Alone i after ∧
        progress i after q.supply = q) ∧
    ((progress i store supply).takeAll rt items = none → ∃ error after left count,
      runTx i (insertItems rt index resolved appended items) store supply = some (.error error, after, left) ∧
        Stopped rt (progress i store supply) items count ∧
        Names "IDEMPOTENCY_CONFLICT" (index + count) error ∧
        after.toLedger = store.toLedger) := by
  induction items generalizing index resolved appended store supply with
  | nil =>
      refine ⟨fun pairs q taken => ?_, fun refused => by cases refused⟩
      cases taken
      exact ⟨store, rfl, alone, rfl⟩
  | cons item rest ih =>
      have agreed := agrees item List.mem_cons_self
      cases known : (store.visible i).byKey item.request.businessKey with
      | some existing =>
          rw [known] at agreed
          have taken := take_known rt (progress i store supply) item existing known
          rw [insert_items_known rt index resolved appended item rest existing agreed]
          by_cases matched : existing.contentFingerprint = item.fingerprint
          · rw [if_pos matched] at taken
            obtain ⟨good, bad⟩ := ih (index + 1) resolved appended store supply alone
              (fun other member => agrees other (List.mem_cons_of_mem _ member)) within
                (new_ids_ahead_fewer rest.length _ fits)
            have checked : (liftM (withIndex index (checkIdempotency existing item.fingerprint)) :
                  Tx Event) = pure existing := by
              rw [← matched, check_matches]
              rfl
            rw [checked, pure_bind]
            refine ⟨fun pairs q whole => ?_, fun refused => ?_⟩
            · obtain ⟨_, _, later, again, others, rfl⟩ := (take_all_cons rt _ _ _ _ _).mp whole
              rw [taken] at again
              cases again
              obtain ⟨after, onward, aloneAfter, reached⟩ := good later q others
              exact ⟨after, run_ok i store after supply q.supply _ _ later onward, aloneAfter, reached⟩
            · obtain ⟨error, after, left, count, onward, stopped, names, ledger⟩ :=
                bad (take_all_refused rt _ _ rest _ _ taken refused)
              refine ⟨error, after, left, count + 1,
                run_error i store after supply left _ _ error onward, ?_, ?_, ledger⟩
              · exact stopped_later rt _ _ item rest _ count taken stopped
              · rw [show index + (count + 1) = index + 1 + count by omega]
                exact names
          · rw [if_neg matched] at taken
            obtain ⟨error, checked, conflict⟩ := check_conflicts existing item.fingerprint matched
            obtain ⟨other, indexed, names⟩ := with_index_names index error conflict
            refine ⟨fun pairs q whole => ?_,
              fun _ => ⟨other, store, supply, 0, ?_,
                ⟨[], item, rest, [], _, rfl, rfl, rfl, taken⟩, names, rfl⟩⟩
            · obtain ⟨_, _, _, taken', _⟩ := (take_all_cons rt _ _ _ _ _).mp whole
              rw [taken] at taken'
              cases taken'
            · rw [checked, indexed]
              rfl
      | none =>
          rw [known] at agreed
          have taken := take_new rt (progress i store supply) item known
          have filed := fun onward =>
            run_filed i store rt supply (reportDraft item.request item.reportDigest item.fingerprint)
            (α := List (Event × Bool)) onward alone
              (new_ids_ahead_admits i store supply rt rest.length item fits known)
          rw [insert_items_new rt index resolved appended item rest agreed within, filed]
          let row := (progress i store supply).drawn rt item
          let next := (store.counted i row.sequence).holding i row
          have reached : progress i next supply.used = (progress i store supply).filed row := by
            rw [progress, holding_visible, counted_visible]
            rfl
          have table : next.visible i = ((progress i store supply).filed row).table :=
            congrArg Progress.table reached
          have agreesNext : ∀ other ∈
            rest, (resolved ++ [row]).find? (fun old => old.businessKey = other.request.businessKey) =
              (next.visible i).byKey other.request.businessKey := by
            intro other member
            rw [table, by_key_filed rt _ item fits.below, List.find?_append, List.find?_append,
              agrees other (List.mem_cons_of_mem _ member)]
            rfl
          have withinNext : ∀ old ∈ appended ++ [row], old ∈ resolved ++ [row] := by
            intro old member
            rcases List.mem_append.mp member with earlier | own
            · exact List.mem_append_left _ (within old earlier)
            · exact List.mem_append_right _ own
          obtain ⟨good, bad⟩ := ih (index + 1) (resolved ++ [row]) (appended ++ [row]) next supply.used
            (alone_update i _ _ (alone_update i _ _ alone)) agreesNext withinNext
              (reached.symm ▸ new_ids_ahead_filed rt rest.length _ item fits)
          rw [reached] at good bad
          refine ⟨fun pairs q whole => ?_, fun refused => ?_⟩
          · obtain ⟨_, _, later, again, others, rfl⟩ := (take_all_cons rt _ _ _ _ _).mp whole
            rw [taken] at again
            cases again
            obtain ⟨after, onward, aloneAfter, ends⟩ := good later q others
            exact ⟨after, run_ok i next after supply.used q.supply _ _ later onward, aloneAfter, ends⟩
          · obtain ⟨error, after, left, count, onward, stopped, names, ledger⟩ :=
              bad (take_all_refused rt _ _ rest _ _ taken refused)
            refine ⟨error, after, left, count + 1,
              run_error i next after supply.used left _ _ error onward, ?_, ?_, ledger⟩
            · exact stopped_later rt _ _ item rest _ count taken stopped
            · rw [show index + (count + 1) = index + 1 + count by omega]
              exact names

omit [DecidableEq ι] [Fintype ι] in
theorem by_keys_found (table : EventTable) (keys : List String) (key : String) (asked : key ∈ keys) :
    (table.byKeys keys).find? (fun row => row.businessKey = key) = table.byKey key := by
  rw [EventTable.byKeys, List.find?_filter, EventTable.byKey]
  congr 1
  funext row
  by_cases same : row.businessKey = key
  · simp [same, asked]
  · simp [same]

theorem run_attempt (prepared : List PreparedReport) (attempts : Nat) (store : Store ι)
    (supply : Supply) (quiet : Quiet store)
    (fits : NewIdsAhead prepared.length (progress i store supply)) :
    (∀ pairs q, (progress i store supply).takeAll rt prepared = some (pairs, q) → ∃ after,
      runTx i (attemptBatch rt prepared attempts) store supply = some (.ok pairs, after, q.supply) ∧
      Quiet after ∧ progress i after q.supply = q) ∧
    ((progress i store supply).takeAll rt prepared = none → ∃ error after left count,
      runTx i (attemptBatch rt prepared attempts) store supply = some (.error error, after, left) ∧
        Stopped rt (progress i store supply) prepared count ∧ Names "IDEMPOTENCY_CONFLICT" count error ∧
        after.toLedger = store.toLedger) := by
  let locked := store.update i fun tx => { tx with shared := true }
  have visible := locked_visible i store quiet
  have entered : runTx i (insertReportBatch rt prepared) store supply =
      runTx i (insertItems rt 0 (store.events.byKeys (batchKeys prepared)) [] prepared) locked supply := by
    rw [insertReportBatch, run_locked i store supply quiet]
    refine run_ask_on i locked locked supply supply (.selectByKeys (batchKeys prepared)) _ _ ?_
    rw [respond, visible]
  have same : progress i locked supply = progress i store supply := by
    rw [progress, progress, visible, idle_visible i store (quiet i)]
    rfl
  obtain ⟨good, bad⟩ :=
    run_items i rt prepared 0 (store.events.byKeys (batchKeys prepared)) [] locked supply
      (locked_alone i store quiet)
    (fun item member => by rw [visible]; exact by_keys_found _ _ _ (List.mem_map_of_mem member))
    (fun row none => by cases none) (same.symm ▸ fits)
  rw [same] at good bad
  rw [← entered] at bad
  obtain ⟨otherwise, shape⟩ := attempt_shape rt prepared attempts
  rw [shape]
  refine ⟨fun pairs q taken => ?_, fun refused => ?_⟩
  · obtain ⟨after, ran, alone, reached⟩ := good pairs q taken
    rw [← entered] at ran
    refine ⟨after.commit i, ?_, commit_alone i after alone, ?_⟩
    · exact run_unrecovered i store _ supply q.supply _ _ _ (by simp)
        (run_ended i store after supply q.supply _ _ ran)
    · rw [progress, idle_visible i _ (commit_alone i after alone i)]
      exact reached
  · obtain ⟨error, after, left, count, ran, stopped, names, ledger⟩ := bad refused
    rw [Nat.zero_add] at names
    obtain ⟨details, rfl, _⟩ := id names
    refine ⟨.ledger details, after.rollback i, left, count, ?_, stopped, names, ledger⟩
    exact run_unrecovered i store _ supply left _ _ _ (by simp) (run_ended i store after supply left _ _ ran)

theorem run_batch (requests : List SubmitReport) (prepared : List PreparedReport) (store : Store ι)
    (supply : Supply) (quiet : Quiet store) (made : prepareBatch rt 0 requests = .ok prepared)
    (fits : NewIdsAhead prepared.length (progress i store supply)) :
    (∀ pairs q, (progress i store supply).takeAll rt prepared = some (pairs, q) → ∃ after,
      runTx i (appendReportBatch rt requests) store supply = some (.ok pairs, after, q.supply) ∧
      Quiet after ∧ progress i after q.supply = q) ∧
    ((progress i store supply).takeAll rt prepared = none → ∃ error after left,
      runTx i (appendReportBatch rt requests) store supply = some (.error error, after, left) ∧
      after.toLedger = store.toLedger) := by
  rw [batch_prepared rt requests prepared made]
  cases collision : batchCollision 0 [] prepared with
  | none =>
      obtain ⟨good, bad⟩ := run_attempt i rt prepared (batchInsertAttempts - 1) store supply quiet fits
      refine ⟨good, fun refused => ?_⟩
      obtain ⟨error, after, left, _, ran, _, _, ledger⟩ := bad refused
      exact ⟨error, after, left, ran, ledger⟩
  | some error =>
      refine ⟨fun pairs q taken => absurd ?_ (take_all_apart rt prepared _ q pairs fits taken),
        fun _ => ⟨error, store, supply, rfl, rfl⟩⟩
      obtain ⟨a, first, b, second, keyed, apart⟩ := batch_collision_collides 0 [] prepared error collision
      exact ⟨a, first, b, second, keyed, apart⟩

omit [DecidableEq ι] in
theorem fits_prepared (requests : List SubmitReport) (prepared : List PreparedReport)
    (made : prepareBatch rt 0 requests = .ok prepared) :
    prepared.length = requests.length :=
      (((prepare_batch_valid rt 0 requests prepared).mp made).length_eq).symm

omit [DecidableEq ι] [Fintype ι] in
theorem new_ids_ahead_quiet (signing : Text → Bytes → Prop) (store : Store ι)
    (sound : Sound rt signing store) (supply : Supply) (quiet : Quiet store) (count : Nat)
    (unused : ∀ n < count, ∀ row ∈ store.events.rows, row.eventId ≠ supply.uuids n)
    (apart : ∀ m n, m < n → n < count → supply.uuids m ≠ supply.uuids n) :
    NewIdsAhead count (progress i store supply) := by
  rw [progress, idle_visible i store (quiet i)]
  exact ⟨fun row member => (sound.sequences row (.inl member)).2, unused, apart⟩

-- Given new ids, a batch does what its items do one after another, or nothing.
theorem batches_are_their_items (calls : ι → Call) (config : Config (postgres ι) (Py Outcome))
    (reached : Reaches (postgres ι) (start rt calls) config) (quiet : Quiet (config.store : Store ι))
    (requests : List SubmitReport) (supply : Supply)
    (unused : ∀ n < requests.length, ∀ row ∈ (config.store : Store ι).events.rows,
      row.eventId ≠ supply.uuids n)
    (apart : ∀ m n, m < n → n < requests.length → supply.uuids m ≠ supply.uuids n) :
    ∃ each eachStore eachLeft whole wholeStore wholeLeft,
      runTx i (appendEach rt requests) config.store supply = some (each, eachStore, eachLeft) ∧
      runTx i (appendReportBatch rt requests) config.store supply = some (whole, wholeStore, wholeLeft) ∧
      ((∃ pairs, whole = .ok pairs) ↔ ∃ pairs, each = .ok pairs) ∧
      (∀ pairs, whole = .ok pairs → each = .ok pairs ∧ wholeStore.events = eachStore.events) ∧
      ∀ error, whole = .error error → wholeStore.events = (config.store : Store ι).events := by
  have sound := history_sound rt calls config reached
  have fits := new_ids_ahead_quiet i rt _ config.store sound supply quiet requests.length unused apart
  cases made : prepareBatch rt 0 requests with
  | error error =>
      obtain ⟨earlier, request, later, split, _, invalid, _⟩ := prepare_batch_invalid rt 0 requests error made
      obtain ⟨raised, after, left, ran⟩ :=
        run_each_invalid i rt requests config.store supply quiet fits request (by simp [split]) invalid
      refine ⟨_, after, left, .error error, config.store, supply, ran, ?_, by simp, by simp, fun _ _ => rfl⟩
      rw [appendReportBatch, made]
      rfl
  | ok prepared =>
      rw [← fits_prepared rt requests prepared made] at fits
      obtain ⟨eachGood, eachBad⟩ := run_each i rt requests prepared config.store supply quiet made fits
      obtain ⟨wholeGood, wholeBad⟩ := run_batch i rt requests prepared config.store supply quiet made fits
      cases taken : (progress i config.store supply).takeAll rt prepared with
      | none =>
          obtain ⟨raised, after, left, ran⟩ := eachBad taken
          obtain ⟨error, final, rest, refused, ledger⟩ := wholeBad taken
          exact ⟨_, after, left, _, final, rest, ran, refused, by simp, by simp,
            fun _ _ => congrArg Ledger.events ledger⟩
      | some result =>
          obtain ⟨pairs, q⟩ := result
          obtain ⟨after, ran, quietAfter, ends⟩ := eachGood pairs q taken
          obtain ⟨final, filed, quietFinal, same⟩ := wholeGood pairs q taken
          refine ⟨_, after, q.supply, _, final, q.supply, ran, filed, by simp, fun others whole =>
            ⟨whole, ?_⟩, by simp⟩
          rw [← idle_visible i final (quietFinal i), ← idle_visible i after (quietAfter i)]
          exact congrArg Progress.table (same.trans ends.symm)

end

def sampleRequests : List SubmitReport :=
  [⟨"report-1", "scale-7", "ada", .obj [(text "error", .int 3)]⟩, ⟨"report-2", "scale-7", "ada", .null⟩,
    ⟨"report-2", "scale-7", "ada", .null⟩]

-- Ids no row of the sample has.
def freshSupply : Supply := { sampleSupply with uuids := fun n => sampleUuid (UInt8.ofNat (n + 7)) }

theorem fresh_unused (table : EventTable) (rows : table.rows = [sampleEvent]) :
    ∀ n < 3, ∀ row ∈ table.rows, row.eventId ≠ freshSupply.uuids n := by
  have different : ∀ n < 3, sampleEvent.eventId ≠ freshSupply.uuids n := by decide
  intro n less row member
  rw [rows] at member
  rw [List.mem_singleton.mp member]
  exact different n less

theorem fresh_apart : ∀ n < 3, ∀ m < n, freshSupply.uuids m ≠ freshSupply.uuids n := by decide

-- The first request repeats a committed report, the third the second.
theorem sample_batch_taken (store : Store Bool) (quiet : Quiet store)
    (rows : store.events.rows = [sampleEvent])
    (below : ∀ row ∈ store.events.rows, row.sequence < store.nextSequence) : ∃ prepared pairs q,
      prepareBatch reference 0 sampleRequests = .ok prepared ∧
      (progress true store freshSupply).takeAll reference prepared = some (pairs, q) ∧
      pairs.map Prod.snd = [false, true, false] := by
  obtain ⟨second, again⟩ : ∃ reportDigest, digestJson reference .null = .ok reportDigest := ⟨_, rfl⟩
  let known := preparedItem reference ⟨"report-1", "scale-7", "ada", .obj [(text "error", .int 3)]⟩
    "973d141a045de9255ec829e98f55656e7163072fa87145752b21da603891a4d9"
  let item := preparedItem reference ⟨"report-2", "scale-7", "ada", .null⟩ second
  let p := progress true store freshSupply
  have table : p.table.rows = [sampleEvent] := by
    rw [show p.table = store.events from idle_visible true store (quiet true), rows]
  have digested : digestJson reference (.obj [(text "error", .int 3)]) =
      .ok "973d141a045de9255ec829e98f55656e7163072fa87145752b21da603891a4d9" := by decide +kernel
  have made : prepareBatch reference 0 sampleRequests = .ok [known, item, item] :=
    (prepare_batch_valid reference 0 _ _).mpr
      (.cons ⟨_, digested, rfl⟩ (.cons ⟨_, again, rfl⟩ (.cons ⟨_, again, rfl⟩ .nil)))
  have found : p.table.byKey "report-1" = some sampleEvent := by
    rw [EventTable.byKey, table]
    decide
  have absent : p.table.byKey "report-2" = none := by
    rw [EventTable.byKey, table]
    decide
  have same : sampleEvent.contentFingerprint = known.fingerprint := by decide +kernel
  have filed : (p.filed (p.drawn reference item)).table.byKey "report-2" = some (p.drawn reference item) := by
    rw [by_key_filed reference p item, table]
    · rfl
    · rw [show p.table = store.events from idle_visible true store (quiet true)]
      exact below
  refine ⟨_, [(sampleEvent, false), (p.drawn reference item, true), (p.drawn reference item, false)],
    p.filed (p.drawn reference item), made, ?_, rfl⟩
  have one := (take_known reference p known sampleEvent found).trans (if_pos same)
  have two := take_new reference p item absent
  have three := (take_known reference (p.filed (p.drawn reference item)) item _ filed).trans (if_pos rfl)
  rw [Progress.takeAll, one, Option.bind_some, Progress.takeAll, two, Option.bind_some,
    Progress.takeAll, three]
  rfl

theorem sample_batch_items : ∃ (config : Config (postgres Bool) (Py Outcome)) (pairs : List (Event × Bool)),
    Reaches (postgres Bool) (start reference sampleCalls) config ∧
    (config.store : Store Bool).events.rows = [sampleEvent] ∧
    pairs.map Prod.snd = [false, true, false] ∧ ∃ eachStore eachLeft wholeStore wholeLeft,
      runTx true (appendEach reference sampleRequests) config.store freshSupply =
        some (.ok pairs, eachStore, eachLeft) ∧
      runTx true (appendReportBatch reference sampleRequests) config.store freshSupply =
        some (.ok pairs, wholeStore, wholeLeft) ∧
      wholeStore.events = eachStore.events := by
  obtain ⟨config, reached, rows, _, quiet, _⟩ := sample_run
  have unused := fresh_unused (config.store : Store Bool).events rows
  have sound := history_sound reference sampleCalls config reached
  obtain ⟨prepared, pairs, q, made, taken, flags⟩ := sample_batch_taken config.store quiet rows
    fun row member => (sound.sequences row (.inl member)).2
  have fits := new_ids_ahead_quiet true reference _ config.store sound freshSupply quiet 3 unused fun m
    n less bound => fresh_apart n bound m less
  rw [← show prepared.length = 3 from fits_prepared reference sampleRequests prepared made] at fits
  obtain ⟨after, filed, _⟩ :=
    (run_batch true reference sampleRequests prepared config.store freshSupply quiet made fits).1 _ _ taken
  obtain ⟨each, eachStore, eachLeft, whole, wholeStore, wholeLeft, calls, batch, _, same, _⟩ :=
    batches_are_their_items true reference sampleCalls
    config reached quiet sampleRequests freshSupply unused fun m n less bound => fresh_apart n bound m less
  cases filed.symm.trans batch
  obtain ⟨rfl, events⟩ := same pairs rfl
  exact ⟨config, pairs, reached, rows, flags, eachStore, eachLeft, _, _, calls, filed, events⟩

section

variable {ι : Type} [DecidableEq ι] [Fintype ι] (i : ι) (rt : Runtime) (store : Store ι)
  (supply : Supply) (quiet : Quiet store)

include quiet

theorem run_report_clash (request : SubmitReport) (reportDigest : String)
    (digested : digestJson rt request.report = .ok reportDigest)
    (absent : store.events.byKey request.businessKey = none)
    (refused : store.admits i
      ((progress i store supply).drawn rt (preparedItem rt request reportDigest)) = false) :
    ∃ after, runTx i (appendReport rt request) store supply =
      some (.error .integrityError, after, supply.used) := by
  obtain ⟨after, ran, alone, events⟩ := (run_insert_report i store rt supply request reportDigest quiet absent
    (preparedItem rt request reportDigest).fingerprint).2 refused
  obtain ⟨next, gone, shape⟩ := append_report_shape rt request reportDigest digested
  have again : Quiet ((after.rollback i).rollback i) := by
    rw [rollback_quiet i _ (rollback_idle i after)]
    exact rollback_alone i after alone
  refine ⟨(after.rollback i).rollback i, ?_⟩
  rw [shape]
  refine (run_recovered i store _ supply
      supply.used _ _ (run_ended i store after supply supply.used _ _ ran)).trans ?_
  change runTx i _ ((after.rollback i).rollback i) supply.used = _
  rw [run_lookup i _ supply.used again,
    show ((after.rollback i).rollback i).events = store.events from events, absent, gone]
  rfl

-- A batch of it tries again with the next id.
theorem run_attempt_clash (item : PreparedReport) (attempts : Nat)
    (absent : store.events.byKey item.request.businessKey = none)
    (refused : store.admits i ((progress i store supply).drawn rt item) = false) :
    ∃ after, runTx i (attemptBatch rt [item] (attempts + 1)) store supply =
      runTx i (attemptBatch rt [item] attempts) after supply.used ∧
      Quiet after ∧ after.events = store.events ∧
      after.nextSequence = ((progress i store supply).drawn rt item).sequence + 1 := by
  let locked := store.update i fun tx => { tx with shared := true }
  have visible := locked_visible i store quiet
  have missing : (store.events.byKeys (batchKeys [item])).find?
      (fun row => row.businessKey = item.request.businessKey) = none :=
    (by_keys_found _ _ _ (List.mem_singleton_self _)).trans absent
  have unfiled := fun onward => run_unfiled (α := List (Event × Bool)) i locked rt supply
    (reportDraft item.request item.reportDigest item.fingerprint) onward (locked_alone i store quiet)
    ((locked_admits i store quiet _).trans refused)
  let counted := locked.counted i ((progress i store supply).drawn rt item).sequence
  have ran : runTx i (insertReportBatch rt [item]) store supply =
      some (.error .integrityError, counted, supply.used) := by
    rw [insertReportBatch, run_locked i store supply quiet]
    refine (run_ask_on i locked locked supply supply
        (.selectByKeys (batchKeys [item])) _ (store.events.byKeys (batchKeys [item])) ?_).trans ?_
    · rw [respond, visible]
    · rw [insert_items_new rt 0 _ [] item [] missing (by simp)]
      exact unfiled _
  let emptied := (counted.rollback i).rollback i
  have alone : Alone i counted := alone_update i _ _ (locked_alone i store quiet)
  have again : Quiet emptied := by
    rw [show emptied = counted.rollback i from rollback_quiet i _ (rollback_idle i counted)]
    exact rollback_alone i counted alone
  have reread : runTx i (committedBatchConflict [item]) emptied supply.used =
      some (.ok none, emptied, supply.used) := by
    have read : runTx i
      (ask (.selectByKeys (batchKeys [item])) >>= fun existing =>
        pure (conflictingItem existing 0 [item])) emptied supply.used =
        some (.ok none, emptied, supply.used) := by
      refine (run_ask_on i emptied emptied supply.used supply.used
          (.selectByKeys (batchKeys [item])) _ (store.events.byKeys (batchKeys [item])) ?_).trans ?_
      · rw [respond, idle_visible i emptied (again i)]
        rfl
      · rw [conflictingItem, missing]
        rfl
    refine (run_ended i emptied emptied supply.used supply.used _ _ read).trans ?_
    rw [ended, commit_quiet i emptied (again i)]
  refine ⟨emptied, ?_, again, rfl, rfl⟩
  rw [attemptBatch]
  refine (run_recovered i store _ supply
      supply.used _ _ (run_ended i store counted supply supply.used _ _ ran)).trans ?_
  exact run_ok i emptied emptied supply.used supply.used (committedBatchConflict [item]) _ none reread

theorem run_batch_redrawn (request : SubmitReport) (reportDigest : String)
    (digested : digestJson rt request.report = .ok reportDigest)
    (absent : store.events.byKey request.businessKey = none)
    (below : ∀ row ∈ store.events.rows, row.sequence < store.nextSequence)
    (clash : ∃ row ∈ store.events.rows, row.eventId = supply.uuids 0)
    (unused : ∀ row ∈ store.events.rows, row.eventId ≠ supply.uuids 1) :
    (∃ after left, runTx i (appendEach rt [request]) store supply =
      some (.error .integrityError, after, left)) ∧
    ∃ pairs after left, runTx i (appendReportBatch rt [request]) store supply =
      some (.ok pairs, after, left) := by
  let item := preparedItem rt request reportDigest
  have made : prepareBatch rt 0 [request] = .ok [item] :=
    (prepare_batch_valid rt 0 _ _).mpr (.cons ⟨_, digested, rfl⟩ .nil)
  have refused : store.admits i ((progress i store supply).drawn rt item) = false := by
    obtain ⟨row, member, same⟩ := clash
    have clashes : ((progress i store supply).drawn rt item).clashes row = true := by
      simp [Event.clashes, Progress.drawn, drawnRow, draftRow, progress, same]
    have found : store.events.rows.all
        (fun row => !((progress i store supply).drawn rt item).clashes row) = false :=
      List.all_eq_false.mpr ⟨row, member, by simp [clashes]⟩
    rw [Store.admits, idle_visible i store (quiet i), found]
    rfl
  refine ⟨?_, ?_⟩
  · obtain ⟨after, ran⟩ :=
      run_report_clash i rt store supply quiet request reportDigest digested absent refused
    exact ⟨after, supply.used, run_error i store after supply supply.used _ _ _ ran⟩
  · obtain ⟨after, ran, again, events, next⟩ :=
      run_attempt_clash i rt store supply quiet item 2 absent refused
    have drawn : ((progress i store supply).drawn rt item).sequence =
      store.nextSequence + supply.gaps 0 := rfl
    have fits : NewIdsAhead 1 (progress i after supply.used) := by
      rw [progress, idle_visible i after (again i), events]
      refine ⟨fun row member => ?_, fun n less row member => ?_, fun m n less bound => by omega⟩
      · show row.sequence < after.nextSequence
        have less := below row member
        omega
      · obtain rfl : n = 0 := by omega
        exact unused row member
    have missing : (after.visible i).byKey request.businessKey = none := by
      rw [idle_visible i after (again i), events]
      exact absent
    have taken : (progress i after supply.used).takeAll rt [item] =
      some ([((progress i after supply.used).drawn rt item, true)],
        (progress i after supply.used).filed ((progress i after supply.used).drawn rt item)) := by
      rw [Progress.takeAll, take_new rt _ item missing]
      rfl
    obtain ⟨last, filed, _⟩ := (run_attempt i rt [item] 2 after supply.used again fits).1 _ _ taken
    have whole := congrArg (fun program => runTx i program store supply)
      (batch_prepared rt [request] [item] made)
    exact ⟨_, last, _, whole.trans (ran.trans filed)⟩

end

def retriedRequest : SubmitReport := ⟨"report-2", "scale-7", "ada", .null⟩

-- The next id is a row's: the report raises, its batch files it under the id after.
theorem sample_batch_redraws :
    ∃ config : Config (postgres Bool) (Py Outcome),
    Reaches (postgres Bool) (start reference sampleCalls) config ∧
    Quiet (config.store : Store Bool) ∧
    (∃ after left, runTx true (appendEach reference [retriedRequest]) config.store sampleSupply =
      some (.error .integrityError, after, left)) ∧
    ∃ pairs after left,
    runTx true (appendReportBatch reference [retriedRequest]) config.store sampleSupply =
      some (.ok pairs, after, left) := by
  obtain ⟨config, reached, rows, _, quiet, _⟩ := sample_run
  have sound := history_sound reference sampleCalls config reached
  have inside : sampleEvent ∈ (config.store : Store Bool).events.rows := by
    rw [rows]
    exact List.mem_singleton_self _
  have absent : (config.store : Store Bool).events.byKey retriedRequest.businessKey = none := by
    rw [EventTable.byKey, rows]
    decide
  have unused : ∀ row ∈ (config.store : Store Bool).events.rows, row.eventId ≠ sampleSupply.uuids 1 := by
    intro row member
    rw [rows] at member
    rw [List.mem_singleton.mp member]
    decide
  obtain ⟨each, whole⟩ :=
    run_batch_redrawn true reference config.store sampleSupply quiet retriedRequest _ rfl absent
    (fun row member => (sound.sequences row (.inl member)).2) ⟨sampleEvent, inside, rfl⟩ unused
  exact ⟨config, reached, quiet, each, whole⟩

end CalibrationLedger
