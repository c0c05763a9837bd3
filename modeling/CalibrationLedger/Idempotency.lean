import CalibrationLedger.Submissions

set_option autoImplicit false

-- What a call answers when its business key is taken.
namespace CalibrationLedger

open JsonText Digest Interleaving

theorem find_unique {α : Type} (items : List α) (found : α → Bool) (item : α) (member : item ∈ items)
    (holds : found item = true) (only : ∀ other ∈ items, found other = true → other = item) :
    items.find? found = some item := by
  cases result : items.find? found with
  | none => exact absurd holds (List.find?_eq_none.mp result item member)
  | some other => rw [only other (List.mem_of_find?_eq_some result) (List.find?_some result)]

def Conflict (error : PyError) : Prop :=
  ∃ details, error = .ledger details ∧ details.code = "IDEMPOTENCY_CONFLICT"

theorem check_matches (existing : Event) :
    checkIdempotency existing existing.contentFingerprint = .ok existing := by
  simp [checkIdempotency]

theorem check_conflicts (existing : Event) (fingerprint : String)
    (different : existing.contentFingerprint ≠ fingerprint) :
    ∃ error, checkIdempotency existing fingerprint = .error error ∧ Conflict error := by
  rw [checkIdempotency, if_pos different]
  exact ⟨_, rfl, _, rfl, rfl⟩

theorem by_key_committed (rt : Runtime) (signing : Text → Bytes → Prop) {ι : Type} (store : Store ι)
    (sound : Sound rt signing store) (row : Event) (member : row ∈ store.events.rows) :
    store.events.byKey row.businessKey = some row := by
  refine find_unique _ _ row member (by simp) fun other inside same => ?_
  exact sound.apart other row (.inl inside) (.inl member) (by simp [Event.clashes, of_decide_eq_true same])

theorem by_keys_committed (rt : Runtime) (signing : Text → Bytes → Prop) {ι : Type} (store : Store ι)
    (sound : Sound rt signing store) (keys : List String) (row : Event) (member : row ∈ store.events.rows)
    (asked : row.businessKey ∈ keys) :
    (store.events.byKeys keys).find? (fun other => other.businessKey = row.businessKey) = some row := by
  refine find_unique _ _ row (List.mem_filter.mpr ⟨member, by simpa using asked⟩)
    (by simp) fun other inside same => ?_
  exact sound.apart other row (.inl (List.mem_of_mem_filter inside)) (.inl member)
    (by simp [Event.clashes, of_decide_eq_true same])

theorem batch_answered (rt : Runtime) (signing : Text → Bytes → Prop) {ι : Type} (store : Store ι)
    (sound : Sound rt signing store) (keys : List String) (items : List PreparedReport)
    (pairs : List (Event × Bool)) (asked : ∀ item ∈ items, item.request.businessKey ∈ keys)
    (holds : List.Forall₂ (fun item pair =>
      store.events.Holds item.request.businessKey item.fingerprint pair.1) items pairs) :
    List.Forall₂ (fun item pair => (store.events.byKeys keys).find?
      (fun row => row.businessKey = item.request.businessKey) = some pair.1 ∧
        pair.1.contentFingerprint = item.fingerprint) items pairs := by
  induction holds with
  | nil => exact .nil
  | cons held _ ih =>
      refine .cons ⟨?_, held.matched⟩ (ih fun item later => asked item (List.mem_cons_of_mem _ later))
      rw [← held.keyed]
      exact by_keys_committed rt signing store sound keys _ held.committed
        (held.keyed ▸ asked _ List.mem_cons_self)

section

variable {ι : Type}

def Alone (i : ι) (store : Store ι) : Prop := ∀ j, j ≠ i → Idle j store

-- An outcome that leaves the committed rows as they are when its transaction ends.
structure LeavesCommittedRows {α : Type} (i : ι) (store : Store ι) (outcome : Py α) (now : Store ι) :
    Prop where
  ledger : now.toLedger = store.toLedger
  unwritten : ∀ value, outcome = .ok value →
    (now.transactions i).events = [] ∧ (now.transactions i).checkpoints = []

theorem idle_visible (i : ι) (store : Store ι) (idle : Idle i store) : store.visible i = store.events := by
  rw [Store.visible, idle]
  rfl

variable [DecidableEq ι]

theorem ended_ledger {α : Type} (i : ι) (store : Store ι) (outcome : Py α) (now : Store ι)
    (harmless : LeavesCommittedRows i store outcome now) :
    (ended i outcome now).toLedger = store.toLedger := by
  rw [← harmless.ledger]
  cases outcome with
  | error error => rfl
  | ok value =>
      obtain ⟨noRows, noCheckpoints⟩ := harmless.unwritten value rfl
      show Ledger.mk (now.visible i) (now.visibleCheckpoints i) = now.toLedger
      rw [Store.visible, Store.visibleCheckpoints, noRows, noCheckpoints, List.append_nil]
      rfl

theorem alone_update (i : ι) (store : Store ι) (change : Transaction → Transaction) (alone : Alone i store) :
    Alone i (store.update i change) := fun j other =>
      (update_other store i j change other).trans (alone j other)

variable [Fintype ι]

theorem alone_exclusive (i : ι) (store : Store ι) (alone : Alone i store) :
    store.othersExclusive i = false := by
  refine decide_eq_false fun ⟨j, other, held⟩ => ?_
  rw [alone j other] at held
  cases held

theorem alone_contested (i : ι) (store : Store ι) (event : Event) (alone : Alone i store) :
    store.contested i event = false := by
  refine decide_eq_false fun ⟨j, other, held⟩ => ?_
  rw [alone j other] at held
  cases held

variable {α β : Type}

abbrev Finishes (i : ι) (post : Py α → Store ι → Prop) (program : Tx α) (store : Store ι) : Prop :=
  Completes (postgres ι) i post program.run store

theorem finishes_ask (i : ι) (post : Py α → Store ι → Prop) (query : Statement) (next : Response query → Tx α)
    (store : Store ι) (step : ∀ supply, ∃ response after rest,
      respond i query store supply = some (response, after, rest) ∧ Finishes i post (next response) after) :
    Finishes i post (ask query >>= next) store := step

theorem finishes_bind (i : ι) (post : Py β → Store ι → Prop) (first : Tx α) (next : α → Tx β)
    (store : Store ι) (finishes : Finishes i (fun outcome now =>
      match outcome with
      | .ok value => Finishes i post (next value) now
      | .error error => post (.error error) now) first store) :
    Finishes i post (first >>= next) store := by
  refine completes_bind (postgres ι) i _ post first.run _ store finishes fun outcome now onward => ?_
  cases outcome with
  | ok value => exact onward
  | error error => exact onward

theorem finishes_transaction (i : ι) (post : Py α → Store ι → Prop) (body : Tx α) (store : Store ι)
    (finishes : Finishes i (fun outcome now => post outcome (ended i outcome now)) body store) :
    Finishes i post (transaction body) store := by
  refine completes_bind (postgres ι) i _ post body.run _ store finishes fun outcome now onward => ?_
  cases outcome with
  | ok value => exact fun supply => ⟨(), now.commit i, supply, rfl, onward⟩
  | error error => exact fun supply => ⟨(), now.rollback i, supply, rfl, onward⟩

theorem finishes_recovering (i : ι) (post : Py α → Store ι → Prop) (body handler : Tx α) (store : Store ι)
    (finishes : Finishes i (fun outcome now =>
      (outcome = .error .integrityError → Finishes i post handler (now.rollback i)) ∧
        (outcome ≠ .error .integrityError → post outcome now)) body store) :
    Finishes i post (onIntegrityError body handler) store := by
  refine completes_bind (postgres ι) i _ post body.run _ store finishes fun outcome now onward => ?_
  split
  · exact fun supply => ⟨(), now.rollback i, supply, rfl, onward.1 rfl⟩
  · rename_i other
    exact onward.2 fun same => other same

theorem finishes_at_once (i : ι) (answer : Py α → Prop) (never : ¬ answer (.error .integrityError))
    (body handler : Tx α) (store : Store ι)
    (finishes : Finishes i
      (fun outcome now => answer outcome ∧ LeavesCommittedRows i store outcome now) body store) :
    Finishes i (fun outcome now => answer outcome ∧ now.toLedger = store.toLedger)
      (onIntegrityError (transaction body) handler) store := by
  refine finishes_recovering i _ _ _ store (finishes_transaction i _ _ store ?_)
  refine completes_mono (postgres ι) i _ _ _ store
    (fun outcome now found => ⟨fun same => ?_, fun _ => ?_⟩) finishes
  · rw [same] at found
    exact absurd found.1 never
  · exact ⟨found.1, ended_ledger i store outcome now found.2⟩

theorem finishes_lookup (i : ι) (businessKey fingerprint : String) (existing : Event) (store : Store ι)
    (idle : Idle i store) (found : store.events.byKey businessKey = some existing)
    (next : Option Event → Tx (Event × Bool))
    (present : next (some existing) = do return (← checkIdempotency existing fingerprint, false)) :
    Finishes i (fun outcome now => outcome =
      (checkIdempotency existing fingerprint).map (fun event => (event, false)) ∧
      LeavesCommittedRows i store outcome now) (ask (.selectByKey businessKey) >>= next) store := by
  refine finishes_ask i _ (.selectByKey businessKey) next store fun supply =>
    ⟨some existing, store, supply, ?_, ?_⟩
  · rw [respond, idle_visible i store idle, found]
  · rw [present]
    have unwritten : (store.transactions i).events = [] ∧ (store.transactions i).checkpoints = [] := by
      rw [idle]
      exact ⟨rfl, rfl⟩
    cases checkIdempotency existing fingerprint with
    | ok event => exact ⟨rfl, rfl, fun _ _ => unwritten⟩
    | error error => exact ⟨rfl, rfl, fun _ _ => unwritten⟩

theorem finishes_lookup_first (i : ι) (businessKey fingerprint : String) (existing : Event) (store : Store ι)
    (idle : Idle i store) (found : store.events.byKey businessKey = some existing)
    (next : Option Event → Tx (Event × Bool)) (handler : Tx (Event × Bool))
    (present : next (some existing) = do return (← checkIdempotency existing fingerprint, false)) :
    Finishes i (fun outcome now => outcome =
      (checkIdempotency existing fingerprint).map (fun event => (event, false)) ∧
      now.toLedger = store.toLedger)
        (onIntegrityError (transaction (ask (.selectByKey businessKey) >>= next)) handler)
      store := by
  refine finishes_at_once i _ (fun same => ?_) _ handler store
    (finishes_lookup i businessKey fingerprint existing store idle found next present)
  unfold checkIdempotency at same
  split at same <;> cases same

end

section

variable (rt : Runtime) {ι : Type} [DecidableEq ι] [Fintype ι]

theorem finishes_lift {α β : Type} (i : ι) (post : Py β → Store ι → Prop) (value : Py α) (result : α)
    (made : value = .ok result) (next : α → Tx β) (store : Store ι)
    (finishes : Finishes i post (next result) store) :
    Finishes i post ((liftM value : Tx α) >>= next) store := by
  rw [made]
  exact finishes

theorem finishes_single (i : ι) (call : Call) (submission : Submission) (existing : Event)
    (store : Store ι) (idle : Idle i store) (asked : call.submissions rt = .ok [submission])
    (single : ∀ requests, call ≠ .batch requests)
    (found : store.events.byKey submission.businessKey = some existing) :
    Finishes i (fun outcome now => now.toLedger = store.toLedger ∧ outcome =
      (checkIdempotency existing (sha256Hex rt (fingerprintInput rt submission))).map fun event =>
        .appended event false)
      (call.program rt) store := by
  have finish : ∀ (program : Tx (Event × Bool)) (fingerprint : String),
      Finishes i (fun outcome now => outcome =
        (checkIdempotency existing fingerprint).map (fun event => (event, false)) ∧
        now.toLedger = store.toLedger) program store →
      Finishes i (fun outcome now => now.toLedger = store.toLedger ∧ outcome =
        (checkIdempotency existing fingerprint).map fun event => .appended event false)
        (do return appendedOf (← program)) store := by
    intro program fingerprint finishes
    refine finishes_bind i _ program _ store
      (completes_mono (postgres ι) i _ _ _ store (fun outcome now good => ?_) finishes)
    obtain ⟨answer, ledger⟩ := good
    cases checked : checkIdempotency existing fingerprint with
    | ok event =>
        rw [checked] at answer
        rw [answer]
        exact ⟨ledger, rfl⟩
    | error error =>
        rw [checked] at answer
        rw [answer]
        exact ⟨ledger, rfl⟩
  cases call with
  | batch requests => exact absurd rfl (single requests)
  | sealing sealer => cases asked
  | report request =>
      obtain ⟨reportDigest, digested, shape⟩ := (bind_ok _ _ _).mp asked
      cases shape
      obtain ⟨fingerprint, made⟩ := fingerprint_made rt (reportSubmission request reportDigest)
      rw [← fingerprint_of_members rt _ fingerprint made]
      refine finish _ fingerprint (finishes_lift i _ _ reportDigest digested _ store ?_)
      refine finishes_lift i _ _ fingerprint made _ store ?_
      exact finishes_lookup_first i _ fingerprint existing store idle found _ _ rfl
  | revision previousEventId request =>
      obtain ⟨reportDigest, digested, shape⟩ := (bind_ok _ _ _).mp asked
      cases shape
      obtain ⟨fingerprint, made⟩ :=
        fingerprint_made rt (revisionSubmission previousEventId request reportDigest)
      rw [← fingerprint_of_members rt _ fingerprint made]
      refine finish _ fingerprint (finishes_lift i _ _ reportDigest digested _ store ?_)
      refine finishes_lift i _ _ fingerprint made _ store ?_
      exact finishes_lookup_first i _ fingerprint existing store idle found _ _ rfl
  | revocation previousEventId request =>
      cases asked
      obtain ⟨fingerprint, made⟩ := fingerprint_made rt (revocationSubmission previousEventId request)
      rw [← fingerprint_of_members rt _ fingerprint made]
      refine finish _ fingerprint (finishes_lift i _ _ fingerprint made _ store ?_)
      exact finishes_lookup_first i _ fingerprint existing store idle found _ _ rfl

theorem attempt_shape (prepared : List PreparedReport) (left : Nat) : ∃ otherwise,
    attemptBatch rt prepared left = onIntegrityError (transaction (insertReportBatch rt prepared)) (do
      match ← committedBatchConflict prepared with
      | some conflict => throw conflict
      | none => otherwise) := by
  cases left with
  | zero => exact ⟨throw .integrityError, rfl⟩
  | succ left => exact ⟨attemptBatch rt prepared left, rfl⟩

theorem finishes_insert_batch (i : ι) (post : Py (List (Event × Bool)) → Store ι → Prop)
    (prepared : List PreparedReport) (store : Store ι) (idle : Idle i store) (alone : Alone i store)
    (onward : ∀ now, now.toLedger = store.toLedger → Alone i now → (now.transactions i).events = [] →
      (now.transactions i).checkpoints = [] →
      Finishes i post (insertItems rt 0 (store.events.byKeys (batchKeys prepared)) [] prepared) now) :
    Finishes i post (insertReportBatch rt prepared) store := by
  let locked := store.update i fun tx => { tx with shared := true }
  have noRows : (locked.transactions i).events = [] := by
    rw [update_same, idle]
    rfl
  have noCheckpoints : (locked.transactions i).checkpoints = [] := by
    rw [update_same, idle]
    rfl
  refine finishes_ask i _ .lockShared _ store fun supply => ⟨(), locked, supply, ?_, ?_⟩
  · rw [respond, alone_exclusive i store alone]
    rfl
  · refine finishes_ask i _ (.selectByKeys (batchKeys prepared)) _ locked fun supply =>
      ⟨store.events.byKeys (batchKeys prepared), locked, supply, ?_, ?_⟩
    · rw [respond, Store.visible, noRows]
      rfl
    · exact onward locked rfl (alone_update i store _ alone) noRows noCheckpoints

theorem insert_items_repeated (index : Nat) (resolved : List Event) (items : List PreparedReport)
    (pairs : List (Event × Bool)) (answered : List.Forall₂ (fun item pair =>
      resolved.find? (fun row => row.businessKey = item.request.businessKey) = some pair.1 ∧
        pair.1.contentFingerprint = item.fingerprint) items pairs) :
    insertItems rt index resolved [] items = return pairs.map fun pair => (pair.1, false) := by
  induction answered generalizing index with
  | nil => rfl
  | cons answer _ ih =>
      obtain ⟨found, matched⟩ := answer
      rw [insertItems]
      simp only [found, ← matched, check_matches, ih]
      rfl

theorem batch_collision_conflict (index : Nat) (firstIndex : List (Nat × PreparedReport))
    (items : List PreparedReport) (error : PyError)
    (collides : batchCollision index firstIndex items = some error) : Conflict error := by
  induction items generalizing index firstIndex with
  | nil => cases collides
  | cons item rest ih =>
      rw [batchCollision] at collides
      split at collides
      · exact ih _ _ collides
      · split at collides
        · cases collides
          exact ⟨_, rfl, rfl⟩
        · exact ih _ _ collides

-- An item whose key is taken by a row with another fingerprint.
def Refused (resolved : List Event) (items : List PreparedReport) : Prop := ∃ item ∈ items, ∃ row,
  resolved.find? (fun row => row.businessKey = item.request.businessKey) = some row ∧
  row.contentFingerprint ≠ item.fingerprint

theorem refused_rest (resolved : List Event) (item : PreparedReport) (rest : List PreparedReport)
    (refused : Refused resolved (item :: rest)) (passes : ∀ row,
      resolved.find? (fun row => row.businessKey = item.request.businessKey) = some row →
        row.contentFingerprint = item.fingerprint) : Refused resolved rest := by
  obtain ⟨other, member, row, found, different⟩ := refused
  rcases List.mem_cons.mp member with rfl | later
  · exact absurd (passes row found) different
  · exact ⟨other, later, row, found, different⟩

theorem refused_append (resolved more : List Event) (items : List PreparedReport)
    (refused : Refused resolved items) :
    Refused (resolved ++ more) items := by
  obtain ⟨item, member, row, found, different⟩ := refused
  exact ⟨item, member, row, by rw [List.find?_append, found]; rfl, different⟩

theorem conflicting_item_found (existing : List Event) (index : Nat) (items : List PreparedReport)
    (refused : Refused existing items) :
    ∃ error, conflictingItem existing index items = some error ∧ Conflict error := by
  induction items generalizing index with
  | nil =>
      obtain ⟨_, member, _⟩ := refused
      cases member
  | cons item rest ih =>
      rw [conflictingItem]
      split
      · rename_i absent
        exact ih _ (refused_rest existing item rest refused fun row
            found => by rw [absent] at found; cases found)
      · rename_i row found
        split
        · exact ⟨_, rfl, _, rfl, rfl⟩
        · rename_i matched
          refine ih _ (refused_rest existing item rest refused fun other again => ?_)
          rw [found] at again
          cases again
          simpa using matched

theorem finishes_new_event {α : Type} (i : ι) (post : Py α → Store ι → Prop) (draft : Draft)
    (next : Event → Tx α) (store : Store ι)
    (onward : ∀ eventId occurredAt, Finishes i post (next (draftRow rt draft eventId occurredAt)) store) :
    Finishes i post (newEvent rt draft >>= next) store := by
  rw [new_event_draws]
  refine finishes_ask i post .uuidFactory _ store fun supply => ⟨supply.uuids 0, store, _, rfl, ?_⟩
  refine finishes_ask i post .clock _ store fun supply => ⟨supply.clocks 0, store, _, rfl, ?_⟩
  exact onward _ _

theorem finishes_flush {α : Type} (i : ι) (post : Py α → Store ι → Prop) (event : Event) (next : Event → Tx α)
    (store : Store ι) (alone : Alone i store)
    (raises : ∀ now, now.toLedger = store.toLedger → post (.error .integrityError) now)
    (onward : ∀ row now, now.toLedger = store.toLedger → Alone i now → Finishes i post (next row) now) :
    Finishes i post (flushEvent event >>= next) store := by
  intro supply
  let value := store.nextSequence + (supply.gaps 0 : Int)
  let advanced : Store ι := { store with nextSequence := value + 1 }
  let counted := advanced.update i fun tx => { tx with allocated := some value }
  have aloneCounted : Alone i counted := alone_update i advanced _ alone
  refine ⟨value, counted, { supply with gaps := fun n => supply.gaps (n + 1) }, rfl, fun supply => ?_⟩
  let row : Event := { event with sequence := value }
  cases admitted : counted.admits i row with
  | false =>
      refine ⟨false, counted, supply, ?_, raises counted rfl⟩
      show (if !counted.admits i row then _ else _) = _
      rw [admitted]
      rfl
  | true =>
      let inserted := counted.update i fun tx => { tx with allocated := none, events := tx.events ++ [row] }
      refine ⟨true, inserted, supply, ?_, onward row inserted rfl (alone_update i counted _ aloneCounted)⟩
      show (if !counted.admits i row then _ else if counted.contested i row then _ else _) = _
      rw [admitted, alone_contested i counted row aloneCounted]
      rfl

theorem with_index_conflict (index : Nat) (error : PyError) (conflict : Conflict error) :
    ∃ other, (withIndex index (.error error) : Py Event) = .error other ∧ Conflict other := by
  obtain ⟨details, rfl, code⟩ := conflict
  exact ⟨_, rfl, _, rfl, code⟩

theorem finishes_refused_items (i : ι) (index : Nat) (resolved appended : List Event)
    (items : List PreparedReport) (store : Store ι) (alone : Alone i store)
    (refused : Refused resolved items) :
    Finishes i (fun outcome now =>
      (∃ error, outcome = .error error ∧ (error = .integrityError ∨ Conflict error)) ∧
      now.toLedger = store.toLedger) (insertItems rt index resolved appended items) store := by
  induction items generalizing index resolved appended store with
  | nil =>
      obtain ⟨_, member, _⟩ := refused
      cases member
  | cons item rest ih =>
      have onward : ∀ (more appended : List Event) (entry : Event × Bool) (now : Store ι),
        now.toLedger = store.toLedger →
          Alone i now → Refused more rest →
          Finishes i (fun outcome now =>
            (∃ error, outcome = .error error ∧ (error = .integrityError ∨ Conflict error)) ∧
            now.toLedger = store.toLedger) (do
              let later ← insertItems rt (index + 1) more appended rest
              return entry :: later) now := by
        intro more appended entry now ledger aloneNow refusedMore
        refine finishes_bind i _ _ _ now
          (completes_mono (postgres ι) i _ _ _ now (fun outcome final found => ?_)
          (ih (index + 1) more appended now aloneNow refusedMore))
        obtain ⟨⟨error, rfl, kind⟩, same⟩ := found
        exact ⟨⟨error, rfl, kind⟩, same.trans ledger⟩
      unfold insertItems
      dsimp only
      split
      · rename_i existing found
        by_cases matched : existing.contentFingerprint = item.fingerprint
        · rw [← matched, check_matches]
          refine onward resolved appended (existing, false) store rfl alone
            (refused_rest resolved item rest refused fun row again => ?_)
          rw [found] at again
          cases again
          exact matched
        · obtain ⟨error, checked, conflict⟩ := check_conflicts existing item.fingerprint matched
          obtain ⟨other, indexed, again⟩ := with_index_conflict index error conflict
          rw [checked, indexed]
          exact ⟨⟨other, rfl, .inr again⟩, rfl⟩
      · rename_i unresolved
        have refusedRest := refused_rest resolved item rest refused fun row found => by
          rw [unresolved] at found
          cases found
        split
        · refine finishes_new_event rt i _ _ _ store fun eventId occurredAt => ?_
          refine finishes_flush i _ _ _ store alone
            (fun now same => ⟨⟨_, rfl, .inl rfl⟩, same⟩) fun row now same aloneNow => ?_
          exact onward _ _ (row, true) now same aloneNow (refused_append resolved [row] rest refusedRest)
        · rename_i event _
          exact onward _ _ (event, false) store rfl alone refusedRest

theorem finishes_batch_conflict (i : ι) (prepared : List PreparedReport) (left : Nat) (store : Store ι)
    (idle : Idle i store) (alone : Alone i store)
    (refused : Refused (store.events.byKeys (batchKeys prepared)) prepared) :
    Finishes i (fun outcome now => (∃ error, outcome = .error error ∧ Conflict error) ∧
      now.toLedger = store.toLedger)
      (attemptBatch rt prepared left) store := by
  obtain ⟨otherwise, shape⟩ := attempt_shape rt prepared left
  rw [shape]
  refine finishes_recovering i _ _ _ store (finishes_transaction i _ _ store ?_)
  refine finishes_insert_batch rt i _ prepared store idle alone fun now same aloneNow _ _ => ?_
  refine completes_mono (postgres ι) i _ _ _ now (fun outcome final found => ?_)
    (finishes_refused_items rt i 0 _ [] prepared now aloneNow refused)
  obtain ⟨⟨error, rfl, kind⟩, ledger⟩ := found
  refine ⟨fun integrity => ?_,
    fun other => ⟨⟨error, rfl, kind.resolve_left fun same => other (congrArg _ same)⟩,
    ledger.trans same⟩⟩
  -- The rows are read again, and they still refuse the item.
  let emptied := (ended i (Except.error error : Py (List (Event × Bool))) final).rollback i
  have idleAgain : Idle i emptied := rollback_idle i _
  have ledgerAgain : emptied.toLedger = store.toLedger := ledger.trans same
  have eventsAgain : emptied.events = store.events := congrArg Ledger.events ledgerAgain
  obtain ⟨conflict, found, kept⟩ := conflicting_item_found _ 0 prepared refused
  refine finishes_bind i _ (committedBatchConflict prepared) _ emptied (finishes_transaction i _ _ emptied ?_)
  refine finishes_ask i _ (.selectByKeys (batchKeys prepared)) _ emptied fun supply =>
    ⟨store.events.byKeys (batchKeys prepared), emptied, supply, ?_, ?_⟩
  · rw [respond, idle_visible i emptied idleAgain, eventsAgain]
  · rw [found]
    refine ⟨⟨conflict, rfl, kept⟩, ?_⟩
    refine (ended_ledger i emptied (.ok (some conflict)) emptied ⟨rfl, fun _ _ => ?_⟩).trans ledgerAgain
    rw [idleAgain]
    exact ⟨rfl, rfl⟩

variable (signing : Text → Bytes → Prop)

theorem repeated_single (i : ι) (call : Call) (submission : Submission) (event : Event)
    (store : Store ι) (sound : Sound rt signing store) (idle : Idle i store)
    (asked : call.submissions rt = .ok [submission]) (single : ∀ requests, call ≠ .batch requests)
    (holds : store.events.Holds submission.businessKey
      (sha256Hex rt (fingerprintInput rt submission)) event) :
    Finishes i (fun outcome now => outcome = .ok (.appended event false) ∧ now.toLedger = store.toLedger)
      (call.program rt) store := by
  have found := by_key_committed rt signing store sound event holds.committed
  rw [holds.keyed] at found
  refine completes_mono (postgres ι) i _ _ _ store (fun outcome now good => ?_)
    (finishes_single rt i call submission event store idle asked single found)
  obtain ⟨ledger, answer⟩ := good
  rw [← holds.matched, check_matches] at answer
  exact ⟨answer, ledger⟩

theorem repeated_batch (i : ι) (requests : List SubmitReport) (prepared : List PreparedReport)
    (pairs : List (Event × Bool)) (store : Store ι) (sound : Sound rt signing store) (idle : Idle i store)
    (alone : Alone i store) (made : prepareBatch rt 0 requests = .ok prepared)
    (apart : batchCollision 0 [] prepared = none) (holds : List.Forall₂ (fun item pair =>
      store.events.Holds item.request.businessKey item.fingerprint pair.1) prepared pairs) :
    Finishes i (fun outcome now => outcome = .ok (.batch (pairs.map fun pair => (pair.1, false))) ∧
      now.toLedger = store.toLedger) ((Call.batch requests).program rt) store := by
  refine finishes_bind i _ _ _ store (finishes_lift i _ _ prepared made _ store ?_)
  rw [apart]
  obtain ⟨otherwise, shape⟩ := attempt_shape rt prepared (batchInsertAttempts - 1)
  dsimp only
  rw [shape]
  have answered := batch_answered rt signing store sound (batchKeys prepared) prepared pairs
    (fun item member => List.mem_map_of_mem member) holds
  refine completes_mono (postgres ι) i _ _ _ store (fun outcome now good => ?_)
    (finishes_at_once i (fun outcome => outcome = .ok (pairs.map fun pair => (pair.1, false)))
      (by simp) _ _ store
      (finishes_insert_batch rt i _ prepared store idle alone fun now same _ noRows noCheckpoints => ?_))
  · obtain ⟨rfl, ledger⟩ := good
    exact ⟨rfl, ledger⟩
  · rw [insert_items_repeated rt 0 _ prepared pairs answered]
    exact ⟨rfl, same, fun _ _ => ⟨noRows, noCheckpoints⟩⟩

def Outcome.repeated : Outcome → Option Outcome
  | .appended event _ => some (.appended event false)
  | .batch pairs => some (.batch (pairs.map fun pair => (pair.1, false)))
  | .sealing _ => none

theorem repeated_call (i : ι) (call : Call) (outcome repeated : Outcome) (store : Store ι)
    (sound : Sound rt signing store) (idle : Idle i store) (alone : Alone i store)
    (recorded : Recorded rt store.events call outcome) (again : outcome.repeated = some repeated) :
    Finishes i (fun answer now => answer = .ok repeated ∧ now.toLedger = store.toLedger)
      (call.program rt) store := by
  cases outcome with
  | sealing result => cases again
  | appended event created =>
      cases again
      cases call with
      | batch requests => exact absurd recorded id
      | sealing sealer => exact absurd recorded id
      | report request =>
          obtain ⟨reportDigest, found, digested, made, holds⟩ := recorded
          rw [fingerprint_of_members rt (reportSubmission request reportDigest) found made] at holds
          refine repeated_single rt signing i _ (reportSubmission request reportDigest) event store
            sound idle ?_ (by simp) holds
          rw [Call.submissions, digested]
          rfl
      | revision previousEventId request =>
          obtain ⟨reportDigest, found, digested, made, holds⟩ := recorded
          rw [fingerprint_of_members rt
            (revisionSubmission previousEventId request reportDigest) found made] at holds
          refine repeated_single rt signing
            i _ (revisionSubmission previousEventId request reportDigest) event store sound
            idle ?_ (by simp) holds
          rw [Call.submissions, digested]
          rfl
      | revocation previousEventId request =>
          obtain ⟨found, made, holds⟩ := recorded
          rw [fingerprint_of_members rt (revocationSubmission previousEventId request) found made] at holds
          exact repeated_single rt signing i _ (revocationSubmission previousEventId request) event
            store sound idle rfl
            (by simp) holds
  | batch pairs =>
      cases again
      cases call with
      | batch requests =>
          obtain ⟨prepared, made, apart, holds⟩ := recorded
          exact repeated_batch rt signing i requests prepared pairs store sound idle alone made apart holds
      | report _ => exact absurd recorded id
      | revision _ _ => exact absurd recorded id
      | revocation _ _ => exact absurd recorded id
      | sealing _ => exact absurd recorded id

theorem conflicting_call (i : ι) (call : Call) (submissions : List Submission) (submission : Submission)
    (row : Event) (store : Store ι) (sound : Sound rt signing store) (idle : Idle i store)
    (alone : Alone i store) (asked : call.submissions rt = .ok submissions)
    (member : submission ∈ submissions) (inside : row ∈ store.events.rows)
    (keyed : row.businessKey = submission.businessKey)
    (differs : row.contentFingerprint ≠ sha256Hex rt (fingerprintInput rt submission)) :
    Finishes i (fun answer now => (∃ error, answer = .error error ∧ Conflict error) ∧
      now.toLedger = store.toLedger)
      (call.program rt) store := by
  have single : (∀ requests, call ≠ .batch requests) → submissions = [submission] →
      Finishes i (fun answer now => (∃ error, answer = .error error ∧ Conflict error) ∧
        now.toLedger = store.toLedger)
        (call.program rt) store := by
    rintro notBatch rfl
    have found := by_key_committed rt signing store sound row inside
    rw [keyed] at found
    obtain ⟨error, checked, conflict⟩ := check_conflicts row _ differs
    refine completes_mono (postgres ι) i _ _ _ store (fun outcome now good => ?_)
      (finishes_single rt i call submission row store idle asked notBatch found)
    rw [checked] at good
    exact ⟨⟨error, good.2, conflict⟩, good.1⟩
  cases call with
  | sealing sealer =>
      cases asked
      cases member
  | report request =>
      obtain ⟨reportDigest, _, shape⟩ := (bind_ok _ _ _).mp asked
      cases shape
      exact single (by simp) (by rw [List.mem_singleton.mp member])
  | revision previousEventId request =>
      obtain ⟨reportDigest, _, shape⟩ := (bind_ok _ _ _).mp asked
      cases shape
      exact single (by simp) (by rw [List.mem_singleton.mp member])
  | revocation previousEventId request =>
      cases asked
      exact single (by simp) (by rw [List.mem_singleton.mp member])
  | batch requests =>
      obtain ⟨prepared, made, shape⟩ := (bind_ok _ _ _).mp asked
      cases shape
      obtain ⟨item, within, rfl⟩ := List.mem_map.mp member
      refine finishes_bind i _ _ _ store (finishes_lift i _ _ prepared made _ store ?_)
      cases apart : batchCollision 0 [] prepared with
      | some error => exact ⟨⟨error, rfl, batch_collision_conflict 0 [] prepared error apart⟩, rfl⟩
      | none =>
          have refused : Refused (store.events.byKeys (batchKeys prepared)) prepared := by
            refine ⟨item, within, row, ?_, ?_⟩
            · rw [show item.request.businessKey = row.businessKey from keyed.symm]
              refine by_keys_committed rt signing store sound (batchKeys prepared) row inside ?_
              rw [keyed]
              exact List.mem_map_of_mem within
            · rw [prepared_fingerprint rt item
                (prepare_batch_prepared rt 0 requests prepared made item within)]
              exact differs
          refine completes_mono (postgres ι) i _ _ _ store (fun outcome now good => ?_)
            (finishes_batch_conflict rt i prepared _ store idle alone refused)
          obtain ⟨⟨error, rfl, conflict⟩, ledger⟩ := good
          exact ⟨⟨error, rfl, conflict⟩, ledger⟩

-- Whenever no transaction is open: a call that once succeeded answers with the
-- same events, created by nobody, and a call that reuses a key for anything else
-- is refused. Neither changes the tables.
theorem submissions_are_idempotent (calls : ι → Call) (config : Config (postgres ι) (Py Outcome))
    (reached : Reaches (postgres ι) (start rt calls) config) (quiet : Quiet config.store) :
    (∀ i outcome repeated, finished (postgres ι) config i = some (.ok outcome) →
      outcome.repeated = some repeated →
      ∀ j supply, ∃ final rest, runAlone (postgres ι) j ((calls i).program rt).run config.store supply =
        some (.ok repeated, final, rest) ∧ final.toLedger = config.store.toLedger) ∧
    (∀ call submissions submission row, Call.submissions rt call = .ok submissions →
      submission ∈ submissions →
      row ∈ config.store.events.rows → row.businessKey = submission.businessKey → submission ≠ row.submitted →
      CollisionFree rt.toHashFunction [fingerprintInput rt submission, fingerprintInput rt row.submitted] →
      ∀ j supply, ∃ error final rest, runAlone (postgres ι) j (call.program rt).run config.store supply =
        some (.error error, final, rest) ∧ Conflict error ∧ final.toLedger = config.store.toLedger) := by
  have sound := history_sound rt calls config reached
  have alone : ∀ j, Alone j config.store := fun j other _ => quiet other
  constructor
  · intro i outcome repeated answer again j supply
    have recorded := history_recorded rt calls config reached i outcome answer
    obtain ⟨answer, final, rest, ran, rfl, ledger⟩ := completes_run (postgres ι) j _ _ config.store
      (repeated_call rt _ j (calls i) outcome repeated config.store sound (quiet j)
        (alone j) recorded again) supply
    exact ⟨final, rest, ran, ledger⟩
  · intro call submissions submission row asked member inside keyed different free j supply
    have differs := row_differs rt _ config.store sound row inside submission
      (call_shaped rt call submissions asked submission member) different free
    obtain ⟨answer, final, rest, ran, ⟨error, rfl, conflict⟩, ledger⟩ :=
      completes_run (postgres ι) j _ _ config.store
      (conflicting_call rt _ j call submissions submission row config.store sound (quiet j)
        (alone j) asked member inside
        keyed differs) supply
    exact ⟨error, final, rest, ran, conflict, ledger⟩

end

theorem sample_submissions_idempotent : ∃ config : Config (postgres Bool) (Py Outcome),
    (∀ supply, ∃ final rest,
      runAlone (postgres Bool) true ((sampleCalls false).program reference).run config.store supply =
      some (.ok (.appended sampleEvent false), final, rest) ∧ final.toLedger = config.store.toLedger) ∧
    (∀ supply, ∃ error final rest, runAlone (postgres Bool) true
      ((Call.revocation (sampleUuid 1) ⟨"report-1", "ada", "mistyped"⟩).program reference).run
        config.store supply =
        some (.error error, final, rest) ∧ Conflict error ∧ final.toLedger = config.store.toLedger) := by
  obtain ⟨config, reached, rows, _, quiet, answer⟩ := sample_run
  obtain ⟨repeats, refuses⟩ := submissions_are_idempotent reference sampleCalls config reached quiet
  refine ⟨config, repeats false _ _ answer rfl true,
    refuses _ _ _ sampleEvent rfl (List.mem_singleton_self _) ?_ rfl
    (by decide) ?_ true⟩
  · rw [rows]
    exact List.mem_singleton_self _
  · have free : ∀ a ∈
      [fingerprintInput reference (revocationSubmission (sampleUuid 1) ⟨"report-1", "ada", "mistyped"⟩),
        fingerprintInput reference sampleEvent.submitted], ∀ b ∈
        [fingerprintInput reference (revocationSubmission (sampleUuid 1) ⟨"report-1", "ada", "mistyped"⟩),
        fingerprintInput reference sampleEvent.submitted],
          reference.digest a = reference.digest b → a = b := by
      decide +kernel
    exact free

end CalibrationLedger
