import CalibrationLedger.Library.Undisturbed
import CalibrationLedger.Audit.Completion

set_option autoImplicit false

-- What a poll of the exporter comes to when nothing hinders it.
namespace CalibrationLedger

open JsonText Digest Interleaving Histories

-- No outage, no row locked by another transaction, and a clock that a lease can be added to.
def Unhindered (leaseDuration : Int) (supply : Nat → Choice) : Prop :=
  ∀ n, (supply n).outage = false ∧ (∀ id, (supply n).locked id = false) ∧
    ∃ expires, (supply n).clock.plus leaseDuration = .ok expires

section

variable {κ : Type}

-- What every statement of a session does to the store.
structure SessionEffect (before after : AuditStore κ) : Prop where
  life : Lifecycle after
  forward : Forward before after
  ledger : after.ledger = before.ledger

theorem session_effect_refl (store : AuditStore κ) (life : Lifecycle store) : SessionEffect store store :=
  ⟨life, forward_refl store, rfl⟩

theorem session_effect_trans (a b c : AuditStore κ) (first : SessionEffect a b)
    (second : SessionEffect b c) : SessionEffect a c :=
  ⟨second.life, forward_trans a b c first.forward second.forward, second.ledger.trans first.ledger⟩

theorem session_effect_answer (k : κ) (store : AuditStore κ) (life : Lifecycle store) (choice : Choice)
    (request : AuditQuery) (careful : CheckedBefore request store) :
    SessionEffect store (store.answer k choice request).2 := by
  have effects := answer_effects k store request choice life.filed careful
  obtain ⟨onward, same, still⟩ := onward_effects k request store _ effects life
  exact ⟨still, ⟨onward, artifacts_effects k request store _ effects⟩, same⟩

theorem session_effect_log (k : κ) (store : AuditStore κ) (life : Lifecycle store) (entry : LogEntry) :
    SessionEffect store { store with logs := store.logs ++ [(k, entry)] } :=
  ⟨⟨⟨life.filed.packages, life.filed.consumers⟩, life.order, life.covered, life.distinct, life.stored,
    life.kept, life.replayed,
    life.faithful⟩, ⟨⟨ledger_grows_refl _, fun _ row found => ⟨row, found, evolves_refl row⟩,
      List.prefix_rfl, List.prefix_rfl⟩,
    fun _ _ => id⟩, rfl⟩

-- A row that only a pending cancellation can have changed.
def KeptOrCancelled (before after : Option AuditPackage) : Prop :=
  after = before ∨ ∃ old new, before = some old ∧ after = some new ∧
    (old.status = .cancelling ∨ old.status = .cancelled) ∧
    new.status = .cancelled

theorem kept_or_cancelled_trans (a b c : Option AuditPackage) (first : KeptOrCancelled a b)
    (second : KeptOrCancelled b c) : KeptOrCancelled a c := by
  rcases first with rfl | ⟨old, mid, rfl, rfl, was, done⟩
  · exact second
  · rcases second with rfl | ⟨again, new, same, rfl, _, still⟩
    · exact .inr ⟨old, mid, rfl, rfl, was, done⟩
    · exact .inr ⟨old, new, rfl, rfl, was, still⟩

theorem kept_or_cancelled_unfinished (before after : Option AuditPackage)
    (spared : KeptOrCancelled before after) (row : AuditPackage) (found : before = some row)
    (apart : row.status ≠ .cancelling ∧ row.status ≠ .cancelled) : after = some row := by
  rcases spared with same | ⟨old, _, is, _, was, _⟩
  · rw [same, found]
  · rw [found] at is
    cases is
    rcases was with asked | done
    · exact absurd asked apart.1
    · exact absurd done apart.2

theorem kept_or_cancelled_before (before after : Option AuditPackage)
    (spared : KeptOrCancelled before after) (row : AuditPackage) (found : after = some row)
    (apart : row.status ≠ .cancelled) : before = some row := by
  rcases spared with same | ⟨_, new, _, is, _, done⟩
  · rw [← same, found]
  · rw [found] at is
    cases is
    exact absurd done apart

theorem kept_or_cancelled_settled (packages : Nat → Option AuditPackage) (row : AuditPackage)
    (moment : Instant) (found : packages row.id = some row)
    (due : row.status = .cancelled ∨ row.stale moment = true) (id : Nat) :
    KeptOrCancelled (packages id)
      (Function.update packages row.id (some (row.applyCancelled moment)) id) := by
  by_cases same : id = row.id
  · subst id
    rw [Function.update_self]
    refine .inr ⟨row, _, found, rfl, ?_, rfl⟩
    rcases due with done | stale
    · exact .inr done
    · exact .inl (stale_status row moment stale).1
  · rw [Function.update_of_ne same]
    exact .inl rfl

theorem kept_or_cancelled_candidates (k : κ) (moment : Instant) (candidates : List AuditPackage)
    (store : AuditStore κ) (apart : candidates.Pairwise fun a b => a.id ≠ b.id)
    (chosen : ∀ row ∈ candidates, store.packages row.id = some row ∧ row.stale moment = true) (id : Nat) :
    KeptOrCancelled (store.packages id)
      ((candidates.foldl (AuditStore.settleRow k moment) store).packages id) := by
  induction candidates generalizing store with
  | nil => exact .inl rfl
  | cons row rest ih =>
      obtain ⟨others, later⟩ := List.pairwise_cons.mp apart
      obtain ⟨found, stale⟩ := chosen row List.mem_cons_self
      refine kept_or_cancelled_trans _ _ _ (kept_or_cancelled_settled store.packages row moment found
          (.inr stale) id) (ih _ later fun other inside => ?_)
      obtain ⟨still, due⟩ := chosen other (List.mem_cons_of_mem row inside)
      exact ⟨(Function.update_of_ne (others other inside).symm _ _).trans still, due⟩

theorem settle_locked (k : κ) (store : AuditStore κ) (life : Lifecycle store) (choice : Choice)
    (moment : Instant) :
    ∃ rows, (store.answer k choice (.settleSkipLocked moment)).1 = .ok rows ∧
      ∀ id, KeptOrCancelled (store.packages id)
        ((store.answer k choice (.settleSkipLocked moment)).2.packages id) := by
  have chosen : ∀ row ∈ store.rows.filter fun row => row.stale moment && !choice.locked row.id,
      store.packages row.id = some row ∧ row.stale moment = true := by
    intro row inside
    obtain ⟨member, fits⟩ := List.mem_filter.mp inside
    exact ⟨(mem_rows store life.filed row).mp member, (Bool.and_eq_true_iff.mp fits).1⟩
  rw [AuditStore.answer, AuditStore.settleAll, if_pos]
  · exact ⟨_, rfl, kept_or_cancelled_candidates k moment _ store
      ((rows_distinct store life.filed).filter _) chosen⟩
  · rw [List.all_eq_true]
    intro row inside
    obtain ⟨found, stale⟩ := chosen row inside
    exact in_order_shape _ (moves_in_order _ row _ (.settle row moment (.inr stale))
        (life.order row.id row found))

theorem settle_one (k : κ) (store : AuditStore κ) (life : Lifecycle store) (choice : Choice) (id : Nat)
    (moment : Instant)
    (due : ∀ row, store.packages id = some row → row.status = .cancelled ∨ row.stale moment = true) :
    ∃ row, (store.answer k choice (.settleById id moment)).1 = .ok row ∧
      ∀ other, KeptOrCancelled (store.packages other)
        ((store.answer k choice (.settleById id moment)).2.packages other) := by
  rw [AuditStore.answer]
  cases found : store.packages id with
  | none => exact ⟨none, rfl, fun _ => .inl rfl⟩
  | some row =>
      have shaped := in_order_shape _ (moves_in_order _ row _ (.settle row moment (due row found))
          (life.order id row found))
      dsimp only
      rw [AuditStore.transact]
      dsimp only
      rw [if_neg (by simp [shaped])]
      refine ⟨_, rfl, fun other => ?_⟩
      have named := (life.filed.packages id row found).1
      subst named
      exact kept_or_cancelled_settled store.packages row moment found (due row found) other

end

section

variable {κ : Type} (k : κ) (leaseDuration : Int)

theorem attains_value_query (store : AuditStore κ) (request : AuditQuery)
    (good : Reply request → AuditStore κ → Prop)
    (answers : ∀ choice : Choice, (∀ id, choice.locked id = false) →
      good (store.answer k choice request).1 (store.answer k choice request).2) :
    AttainsValue (auditing κ) k (Unhindered leaseDuration) good (query request) store := by
  refine attains_call (auditing κ) k _ _ _ _ store fun supply kept => ?_
  obtain ⟨up, free, _⟩ := kept 0
  have answered : auditRespond k (.sql request) store supply =
      some (some (store.answer k (supply 0) request).1, (store.answer k (supply 0) request).2,
        fun n => supply (n + 1)) := by
    rw [auditRespond, up]
    rfl
  exact ⟨_, _, _, answered, fun n => kept (n + 1),
    attains_done (auditing κ) k _ _ _ _ ⟨_, rfl, answers (supply 0) free⟩⟩

theorem attains_value_clock (store : AuditStore κ) : AttainsValue (auditing κ) k (Unhindered leaseDuration)
    (fun moment now => now = store ∧ ∃ expires, moment.plus leaseDuration = .ok expires)
    (orClock none) store := by
  refine attains_call (auditing κ) k _ _ _ _ store fun supply kept => ?_
  exact ⟨_, _, _, rfl, fun n => kept (n + 1), attains_done (auditing κ) k _ _ _ _ ⟨_, rfl, rfl, (kept 0).2.2⟩⟩

theorem attains_value_log (store : AuditStore κ) (entry : LogEntry) :
    AttainsValue (auditing κ) k (Unhindered leaseDuration)
    (fun _ now => now = { store with logs := store.logs ++ [(k, entry)] }) (issue (.log entry)) store := by
  refine attains_call (auditing κ) k _ _ _ _ store fun supply kept => ?_
  exact ⟨_, _, _, rfl, fun n => kept (n + 1), attains_done (auditing κ) k _ _ _ _ ⟨_, rfl, rfl⟩⟩

-- What leaves every row as it is but for cancellations.
def KeepsOrCancels (before after : AuditStore κ) : Prop :=
  SessionEffect before after ∧ ∀ id, KeptOrCancelled (before.packages id) (after.packages id)

theorem keeps_or_cancels_refl (store : AuditStore κ) (life : Lifecycle store) : KeepsOrCancels store store :=
  ⟨session_effect_refl store life, fun _ => .inl rfl⟩

theorem keeps_or_cancels_trans (a b c : AuditStore κ) (first : KeepsOrCancels a b)
    (second : KeepsOrCancels b c) : KeepsOrCancels a c :=
  ⟨session_effect_trans a b c first.1 second.1, fun id => kept_or_cancelled_trans _ _ _ (first.2 id)
    (second.2 id)⟩

theorem attains_value_settle_each (moment : Instant) (ids : List Nat) (store : AuditStore κ)
    (life : Lifecycle store)
    (due : ∀ id ∈ ids, ∀ row, store.packages id = some row → row.status = .cancelled ∨
      row.stale moment = true) :
    AttainsValue (auditing κ) k (Unhindered leaseDuration) (fun _ => KeepsOrCancels store)
      (settleEach moment ids) store := by
  induction ids generalizing store with
  | nil => exact attains_value_pure (auditing κ) k _ _ _ store (keeps_or_cancels_refl store life)
  | cons id rest ih =>
      have first := due id List.mem_cons_self
      refine attains_value_bind (auditing κ) k _ (fun reply now => (∃ row, reply = .ok row) ∧
          KeepsOrCancels store now) _ _ _ store
        (attains_value_query k leaseDuration store (.settleById id moment) _ fun choice _ => ?_) ?_
      · obtain ⟨row, settled, spared⟩ := settle_one k store life choice id moment first
        exact ⟨⟨row, settled⟩, session_effect_answer k store life choice
          (.settleById id moment) first, spared⟩
      · rintro _ now ⟨⟨row, rfl⟩, spares⟩
        refine attains_value_bind
          (auditing κ) k _ (fun _ => KeepsOrCancels now) _ (settleEach moment rest) _ now
            (ih now spares.1.life ?_) ?_
        · intro other inside after found
          by_cases done : after.status = .cancelled
          · exact .inl done
          · exact due other (List.mem_cons_of_mem id inside) after
              (kept_or_cancelled_before _ _ (spares.2 other) after found done)
        · exact fun more later onward =>
            attains_value_pure (auditing κ) k _ _ _ later (keeps_or_cancels_trans _ _ _ spares onward)

theorem attains_value_settle (postgresql : Bool) (store : AuditStore κ) (life : Lifecycle store) :
    AttainsValue (auditing κ) k (Unhindered leaseDuration) (fun _ => KeepsOrCancels store)
      (settleStaleCancelling postgresql none) store := by
  refine attains_value_bind (auditing κ) k _ _ _ _ _ store (attains_value_clock k leaseDuration store) ?_
  rintro moment store ⟨rfl, _⟩
  cases postgresql with
  | true =>
      refine attains_value_bind (auditing κ) k _ (fun reply now => (∃ rows, reply = .ok rows) ∧
          KeepsOrCancels store now) _ _ _ store
        (attains_value_query k leaseDuration store (.settleSkipLocked moment) _ fun choice _ => ?_) ?_
      · obtain ⟨rows, settled, spared⟩ := settle_locked k store life choice moment
        exact ⟨⟨rows, settled⟩, session_effect_answer k store life choice
          (.settleSkipLocked moment) trivial, spared⟩
      · rintro _ now ⟨⟨rows, rfl⟩, spares⟩
        exact attains_value_pure (auditing κ) k _ _ _ now spares
  | false =>
      refine attains_value_bind (auditing κ) k _ (fun ids now => now = store ∧
        ids = (store.rows.filter fun row => row.stale moment).map AuditPackage.id) _ _ _ store
        (attains_value_query k leaseDuration store (.selectStale moment) _ fun choice _ => ⟨rfl, rfl⟩) ?_
      rintro _ store ⟨rfl, rfl⟩
      refine attains_value_settle_each k leaseDuration moment _ store life fun id inside row found => ?_
      obtain ⟨stale, member, rfl⟩ := List.mem_map.mp inside
      obtain ⟨filed, due⟩ := List.mem_filter.mp member
      rw [(mem_rows store life.filed stale).mp filed] at found
      cases found
      exact .inr due

theorem attains_value_log_settled (packages : List AuditPackage) (store : AuditStore κ)
    (life : Lifecycle store) :
    AttainsValue (auditing κ) k (Unhindered leaseDuration) (fun _ => KeepsOrCancels store)
      (logSettled packages) store := by
  induction packages generalizing store with
  | nil => exact attains_value_pure (auditing κ) k _ _ _ store (keeps_or_cancels_refl store life)
  | cons package rest ih =>
      refine attains_value_bind (auditing κ) k _ _ _ _ _ store (attains_value_log k leaseDuration store _) ?_
      rintro _ _ rfl
      have logged := session_effect_log k store life
        (.cancelConfirmed package.packageId "lease_expired" package.attemptCount)
      exact attains_value_mono
        (auditing κ) k _ _ _ _ _ (fun _ now spares => keeps_or_cancels_trans store _ now
          ⟨logged, fun _ => .inl rfl⟩ spares)
        (ih _ logged.life)

end

section

variable {κ : Type} (k : κ) (leaseDuration : Int) (store : AuditStore κ)

-- The body changes nothing and comes to what Python code comes to.
def BehavesAs {α : Type} (outcome : Py α) (body : AuditTx α) : Prop :=
  Attains (auditing κ) k (Unhindered leaseDuration) (fun found now => found = outcome.mapError .raised ∧
      now = store) body.run store

theorem behaves_as_return {α : Type} (value : α) : BehavesAs k leaseDuration store (.ok value) (pure value) :=
  attains_done (auditing κ) k _ _ _ store ⟨rfl, rfl⟩

theorem behaves_as_raising {α : Type} (outcome : Py α) :
    BehavesAs k leaseDuration store outcome (raising outcome) := by
  cases outcome <;> exact attains_done (auditing κ) k _ _ _ store ⟨rfl, rfl⟩

theorem behaves_as_bind {α β : Type} (outcome : Py α) (after : α → Py β) (body : AuditTx α)
    (next : α → AuditTx β) (first : BehavesAs k leaseDuration store outcome body)
    (second : ∀ value, BehavesAs k leaseDuration store (after value) (next value)) :
    BehavesAs k leaseDuration store (outcome >>= after) (body >>= next) := by
  refine attains_bind (auditing κ) k _ _ _ body.run _ store first ?_
  rintro _ now ⟨rfl, same⟩
  subst same
  cases outcome with
  | error error => exact attains_done (auditing κ) k _ _ _ _ ⟨rfl, rfl⟩
  | ok value => exact second value

theorem behaves_as_map {α β : Type} (entries : List α) (plain : α → Py β) (each : α → AuditTx β)
    (alike : ∀ entry, BehavesAs k leaseDuration store (plain entry) (each entry)) :
    BehavesAs k leaseDuration store (entries.mapM plain) (entries.mapM each) := by
  induction entries with
  | nil => exact behaves_as_return k leaseDuration store []
  | cons entry rest ih =>
      rw [List.mapM_cons, List.mapM_cons]
      exact behaves_as_bind k leaseDuration store _ _ _ _ (alike entry) fun value =>
        behaves_as_bind k leaseDuration store _ _ _ _ ih fun more => behaves_as_return k leaseDuration store _

theorem behaves_as_read : BehavesAs k leaseDuration store (.ok store.ledger) (query .readLedger) :=
  attains_mono (auditing κ) k _ _ _ _ store (fun _ _ ⟨_, is, same, found⟩ => ⟨by rw [is, found]; rfl, same⟩)
    (attains_value_query k leaseDuration store .readLedger
      (fun ledger now => now = store ∧ ledger = store.ledger) fun _ _ => ⟨rfl, rfl⟩)

variable (claimed : AuditPackage) (found : store.packages claimed.id = some claimed)
  (building : claimed.status = .building)

include found building

theorem behaves_as_check : BehavesAs k leaseDuration store (.ok ()) (checkBuildCancelled claimed) := by
  have read := attains_value_query k leaseDuration store (.selectStatus claimed.id)
    (fun status now => now = store ∧ status = some .building)
    fun _ _ => ⟨rfl, by rw [AuditStore.answer, found, Option.map_some, building]⟩
  refine attains_bind (auditing κ) k _ _ _ (query (.selectStatus claimed.id)).run _ store read ?_
  rintro _ store ⟨_, rfl, rfl, rfl⟩
  exact attains_done (auditing κ) k _ _ _ store ⟨rfl, rfl⟩

theorem behaves_as_archive (env : Exporting) (keyring : Keyring) : BehavesAs k leaseDuration store
    (loadBundleAt env.toRuntime store.ledger claimed keyring >>= buildArchive env)
    (readArchive env claimed keyring) := by
  have check := behaves_as_check k leaseDuration store claimed found building
  have read := behaves_as_read k leaseDuration store
  have raised : ∀ {α : Type} (outcome : Py α), BehavesAs k leaseDuration store outcome (raising outcome) :=
    fun outcome => behaves_as_raising k leaseDuration store outcome
  refine behaves_as_bind k leaseDuration store _ _ _ _ ?_ fun bundle => ?_
  · have identical : ∀ {α : Type} (outcome : Py α), id outcome = outcome := fun _ => rfl
    rw [loadBundleAt, loadBundle, loadBundle]
    simp only [identical]
    refine behaves_as_bind k leaseDuration store (.ok store.ledger) _ _ _ read fun ledger => ?_
    cases ledger.checkpoint claimed.checkpointId with
    | none => exact raised _
    | some checkpoint =>
        refine behaves_as_bind k leaseDuration store (.ok ()) _ _ _ check fun _ => ?_
        refine behaves_as_bind k leaseDuration store (.ok store.ledger) _ _ _ read fun ledger => ?_
        split
        · exact raised _
        · refine behaves_as_bind k leaseDuration store (.ok ()) _ _ _ check fun _ => ?_
          refine behaves_as_bind k leaseDuration
            store _ _ _ _ (behaves_as_map k leaseDuration store _ _ _ fun event => ?_) fun entries => ?_
          · refine behaves_as_bind k leaseDuration store (.ok store.ledger) _ _ _ read fun ledger => ?_
            refine behaves_as_bind k leaseDuration store _ _ _ _ (raised _) fun receipt => ?_
            exact behaves_as_bind k leaseDuration store (.ok ()) _ _ _ check fun _ =>
              behaves_as_return k leaseDuration store _
          · exact behaves_as_bind k leaseDuration store _ _ _ _ (raised _) fun view =>
              behaves_as_return k leaseDuration store _
  · exact behaves_as_bind k leaseDuration store (.ok ())
      (fun _ => buildArchive env bundle) _ _ check fun _ => raised _

end

-- The code and the reason build_once records of what it raised.
def failureOf (env : Exporting) : PyError → String × Text
  | .ledger error => (error.code, error.message)
  | error => ("AUDIT_EXPORT_FAILED", (env.describe error).take maxFailureReason)

section

variable {κ : Type}

-- How a package ends by what its build came to.
def EndsAs (env : Exporting) (new : AuditPackage) (store : AuditStore κ) : Py BuiltArchive → Prop
  | .ok archive => new.status = .ready ∧ new.eventCount = some archive.eventCount ∧
      ∃ artifact, store.artifacts new.packageId = some artifact ∧
      artifact.zipContent = archive.content ∧ artifact.sha256 = archive.sha256
  | .error error => new.status = .failed ∧ new.failureCode = some (failureOf env error).1 ∧
      new.failureReason = some ((failureOf env error).2.take maxFailureReason)

theorem ends_as_done (env : Exporting) (new : AuditPackage) (store : AuditStore κ) (outcome : Py BuiltArchive)
    (ends : EndsAs env new store outcome) : new.status = .ready ∨ new.status = .failed := by
  cases outcome with
  | ok archive => exact .inl ends.1
  | error error => exact .inr ends.1

theorem ends_as_forward (env : Exporting) (new : AuditPackage) (store later : AuditStore κ)
    (outcome : Py BuiltArchive) (forward : Forward store later) (ends : EndsAs env new store outcome) :
    EndsAs env new later outcome := by
  cases outcome with
  | ok archive =>
      obtain ⟨ready, counted, artifact, stored, content, digest⟩ := ends
      exact ⟨ready, counted, artifact, forward.artifacts _ artifact stored, content, digest⟩
  | error error => exact ends

def NonePending (store : AuditStore κ) : Prop :=
  ∀ id row, store.packages id = some row → row.status ≠ .pending

-- What a worker finds to claim, and how it claims it.
def ClaimEffect (store now : AuditStore κ) : Option AuditPackage → Prop
  | none => now = store ∧ NonePending store
  | some claimed => ∃ old workerId moment expires, store.packages claimed.id = some old ∧
      (old.status = .pending ∨ old.status = .building) ∧
      claimed = old.claim workerId moment expires ∧
      now.packages = Function.update store.packages claimed.id (some claimed)

theorem eligible_pending (row : AuditPackage) (moment : Instant) (pending : row.status = .pending) :
    row.eligible moment = true := by
  simp [AuditPackage.eligible, pending]

variable (k : κ) (store : AuditStore κ) (life : Lifecycle store)

include life

theorem claim_effect (workerId : String) (moment expires : Instant) (candidate : Option AuditPackage)
    (chosen : ∀ row, candidate = some row → store.packages row.id = some row ∧ row.eligible moment = true)
    (missing : candidate = none → NonePending store) :
    ∃ found, (store.claim k workerId moment (.ok expires) candidate).1 = .ok (.ok found) ∧
      ClaimEffect store (store.claim k workerId moment (.ok expires) candidate).2 found := by
  cases candidate with
  | none => exact ⟨none, rfl, rfl, missing rfl⟩
  | some row =>
      obtain ⟨found, eligible⟩ := chosen row rfl
      have shaped := in_order_shape
        _ (moves_in_order _ row _ (.claim row workerId moment expires eligible) (life.order row.id row found))
      rw [AuditStore.claim, AuditStore.transact]
      dsimp only
      rw [if_neg (by simp [shaped])]
      exact ⟨_, rfl, row, workerId, moment, expires, found,
        (eligible_status row moment eligible).imp_right And.left, rfl, rfl⟩

theorem fail_alone (choice : Choice) (claimed : AuditPackage) (code : String) (reason : Text)
    (found : store.packages claimed.id = some claimed) (building : claimed.status = .building) :
    (store.answer k choice (.failOrCancel claimed code reason)).1 = .ok (.status .failed) ∧
      ∃ entry, (store.answer k choice (.failOrCancel claimed code reason)).2 =
        store.put entry (claimed.fail code reason choice.clock) ∧
        entry.id = claimed.id := by
  have moves : Moves (.terminal .failOrCancel claimed (.status .failed)) claimed
      (claimed.fail code reason choice.clock) :=
    .fail claimed claimed code reason choice.clock building rfl
  have shaped := in_order_shape _ (moves_in_order _ claimed _ moves (life.order claimed.id claimed found))
  have decided : failOrCancel claimed code reason choice.clock (some claimed) =
      { reply := .status .failed, write := some (claimed.fail code reason choice.clock) } := by
    rw [failOrCancel, if_neg (by rw [building]; decide), if_neg (by simp [building])]
  rw [AuditStore.answer, AuditStore.transact, found, decided]
  dsimp only
  rw [if_neg (by simp [shaped])]
  exact ⟨rfl, _, rfl, rfl⟩

end

section

variable {κ : Type} (k : κ) (leaseDuration : Int) (env : Exporting) (keyring : Keyring) (store : AuditStore κ)

-- What the build of a package comes to in this ledger.
abbrev builds (ledger : Ledger) (row : AuditPackage) : Py BuiltArchive :=
  loadBundleAt env.toRuntime ledger row keyring >>= buildArchive env

theorem attains_value_attempt {α : Type} (post : Except AuditError α → AuditStore κ → Prop) (body : AuditTx α)
    (attains : Attains (auditing κ) k (Unhindered leaseDuration) post body.run store) :
    AttainsValue (auditing κ) k (Unhindered leaseDuration) post (attempt body) store :=
  attains_bind (auditing κ) k _ post _ body.run _ store attains fun outcome now found =>
    attains_done (auditing κ) k _ _ _ now ⟨outcome, rfl, found⟩

-- The package ends as its build did, and no other is touched.
def BuildEffect (outcome : Py BuiltArchive) (claimed : AuditPackage) (before after : AuditStore κ) : Prop :=
  SessionEffect before after ∧
    ∃ new, after.packages = Function.update before.packages claimed.id (some new) ∧
    EndsAs env new after outcome

theorem attains_value_committed (request : AuditQuery)
    (reply : Reply request → Except Rejection BuildResult) (good : AuditStore κ → Prop)
    (answers : ∀ choice, (∃ result, reply (store.answer k choice request).1 = .ok result) ∧
      good (store.answer k choice request).2) :
    AttainsValue (auditing κ) k (Unhindered leaseDuration) (fun _ => good)
      (query request >>= fun found => committed (reply found)) store := by
  refine attains_value_bind (auditing κ) k _ (fun found now => (∃ result, reply found = .ok result) ∧
      good now) _ _ _ store
    (attains_value_query k leaseDuration store request _ fun choice _ => answers choice) ?_
  rintro found now ⟨⟨result, is⟩, fits⟩
  rw [is]
  exact attains_value_pure (auditing κ) k _ _ result now fits

variable (life : Lifecycle store)

include life

theorem attains_value_claim (postgresql : Bool) (workerId : String) :
    AttainsValue (auditing κ) k (Unhindered leaseDuration)
    (fun found now => SessionEffect store now ∧ ClaimEffect store now found)
    (claimPackage postgresql workerId leaseDuration none) store := by
  refine attains_value_bind (auditing κ) k _ _ _ _ _ store (attains_value_clock k leaseDuration store) ?_
  rintro moment store ⟨rfl, expires, fits⟩
  have replied : ∀ reply now,
    (SessionEffect store now ∧ ∃ found, reply = .ok (.ok found) ∧ ClaimEffect store now found) →
      AttainsValue (auditing κ) k (Unhindered leaseDuration) (fun found now => SessionEffect store now ∧
        ClaimEffect store now found)
        (committed reply >>= raising) now := by
    rintro _ now ⟨course, found, rfl, takes⟩
    exact attains_value_pure (auditing κ) k _ _ found now ⟨course, takes⟩
  cases postgresql with
  | true =>
      refine attains_value_bind (auditing κ) k _ _ _ _ _ store
        (attains_value_query k leaseDuration store
          (.claimSkipLocked workerId moment leaseDuration) _ fun choice free => ⟨?_, ?_⟩) replied
      · exact session_effect_answer k store life choice
          (.claimSkipLocked workerId moment leaseDuration) trivial
      · rw [AuditStore.answer, fits]
        refine claim_effect k store life workerId moment expires _ (fun row found => ?_) fun missing id
          row found pending => ?_
        · have fit := List.find?_some found
          exact ⟨(mem_rows store life.filed row).mp (List.mem_of_find?_eq_some found),
            (Bool.and_eq_true_iff.mp fit).1⟩
        · have member : row ∈ store.rows :=
            (mem_rows store life.filed row).mpr (by rw [(life.filed.packages id row found).1, found])
          exact absurd (List.find?_eq_none.mp missing row member)
            (by simp [eligible_pending row moment pending, free])
  | false =>
      refine attains_value_bind (auditing κ) k _ (fun found now => now = store ∧
        found = (store.rows.find? fun row => row.eligible moment).map AuditPackage.id) _ _ _ store
        (attains_value_query k leaseDuration store (.selectEligible moment) _ fun choice _ => ⟨rfl, rfl⟩) ?_
      rintro _ store ⟨rfl, rfl⟩
      cases first : store.rows.find? fun row => row.eligible moment with
      | none =>
          refine attains_value_pure (auditing κ) k _ _ none store
            ⟨session_effect_refl store life, rfl, fun id row found pending => ?_⟩
          have member : row ∈ store.rows :=
            (mem_rows store life.filed row).mpr (by rw [(life.filed.packages id row found).1, found])
          exact absurd (List.find?_eq_none.mp first row member)
            (by simp [eligible_pending row moment pending])
      | some row =>
          have eligible := List.find?_some first
          have found := (mem_rows store life.filed row).mp (List.mem_of_find?_eq_some first)
          dsimp only [Option.map_some]
          rw [fits]
          refine attains_value_bind (auditing κ) k _ (fun lease now => now = store ∧
              lease = expires) _ (raising (.ok expires)) _ store
            (attains_value_pure (auditing κ) k _ _ expires store ⟨rfl, rfl⟩) ?_
          rintro expires store ⟨rfl, rfl⟩
          refine attains_value_bind (auditing κ) k _ _ _ _ _ store
            (attains_value_query k leaseDuration store
              (.claimById row.id workerId moment expires) _ fun choice _ => ⟨?_, ?_⟩) replied
          · exact session_effect_answer k store life choice
              (.claimById row.id workerId moment expires) trivial
          · rw [AuditStore.answer, found, Option.filter_some, if_pos eligible]
            refine claim_effect k store life workerId moment expires (some row)
              (fun other same => ?_) fun missing => ?_
            · cases same
              exact ⟨found, eligible⟩
            · cases missing

theorem attains_value_build (claimed : AuditPackage) (found : store.packages claimed.id = some claimed)
    (building : claimed.status = .building)
    (sane : builds env keyring store.ledger claimed ≠ .error .integrityError) :
    AttainsValue (auditing κ) k (Unhindered leaseDuration)
      (fun _ => BuildEffect env (builds env keyring store.ledger claimed) claimed store)
      (buildOnce env claimed keyring) store := by
  have read := behaves_as_archive k leaseDuration store claimed found building env keyring
  change BehavesAs k leaseDuration store (builds env keyring store.ledger claimed) _ at read
  generalize builds env keyring store.ledger claimed = outcome at read sane
  have failed : ∀ error, ∀ code reason, failureOf env error = (code, reason) →
    AttainsValue (auditing κ) k (Unhindered leaseDuration)
      (fun _ => BuildEffect env (.error error) claimed store)
      (query (.failOrCancel claimed code reason) >>= committed) store := by
    intro error code reason is
    refine attains_value_committed k leaseDuration store
      (.failOrCancel claimed code reason) id _ fun choice => ?_
    obtain ⟨reply, entry, written, named⟩ := fail_alone k store life choice claimed code reason found building
    refine ⟨⟨_, reply⟩, session_effect_answer k store life choice
      (.failOrCancel claimed code reason) trivial, claimed.fail code reason choice.clock, ?_⟩
    rw [written, ← named]
    exact ⟨rfl, rfl, by rw [is]; rfl, by rw [is]; rfl⟩
  refine attains_value_bind
    (auditing κ) k _ (fun attempted now => attempted = outcome.mapError AuditError.raised ∧
      now = store) _ _ _ store
    (attains_value_attempt k leaseDuration store
      (fun attempted now => attempted = outcome.mapError AuditError.raised ∧ now = store) _ read) ?_
  rintro _ store ⟨rfl, rfl⟩
  cases outcome with
  | ok archive =>
      refine attains_value_committed k leaseDuration store (.finalWrite claimed archive) id _ fun choice => ?_
      have course := session_effect_answer k store life choice (.finalWrite claimed archive) trivial
      rw [final_write_done k store life choice claimed claimed archive found building rfl] at course ⊢
      exact ⟨⟨_, rfl⟩, course, claimed.complete archive choice.clock, rfl, rfl, rfl,
        claimed.artifact archive choice.clock,
        Function.update_self .., rfl, rfl⟩
  | error error =>
      cases error with
      | integrityError => exact absurd rfl sane
      | ledger error => exact failed (.ledger error) _ _ rfl
      | _ => exact failed _ _ _ rfl

end

section

variable {κ : Type} (k : κ) (env : Exporting) (exporter : Exporter)

-- One package has ended as its build did, and no other is touched.
def PackageEnded (id : Nat) (before after : AuditStore κ) : Prop :=
  ∃ row new, before.packages id = some row ∧ (row.status = .pending ∨ row.status = .building) ∧
    after.packages id = some new ∧
    EndsAs env new after (builds env exporter.keyring before.ledger row) ∧
    ∀ other, other ≠ id → KeptOrCancelled (before.packages other) (after.packages other)

-- What one poll makes of the queue.
def PollEffect (before after : AuditStore κ) : Prop :=
  SessionEffect before after ∧
    ((∀ id, KeptOrCancelled (before.packages id) (after.packages id)) ∧ NonePending after ∨
      ∃ id, PackageEnded env exporter id before after)

-- No build raises an IntegrityError.
def BuildsNeverClash (ledger : Ledger) : Prop :=
  ∀ row, Covered ledger row → builds env exporter.keyring ledger row ≠ .error .integrityError

theorem attains_value_poll (store : AuditStore κ) (life : Lifecycle store)
    (sane : BuildsNeverClash env exporter store.ledger) :
    AttainsValue (auditing κ) k (Unhindered exporter.leaseDuration)
      (fun _ => PollEffect env exporter store) (exporterPoll env exporter) store := by
  refine attains_value_bind (auditing κ) k _ _ _ _ _ store
    (attains_value_settle k exporter.leaseDuration exporter.postgresql store life) ?_
  intro settled between first
  refine attains_value_bind (auditing κ) k _ _ _ _ _ between
    (attains_value_log_settled k exporter.leaseDuration settled between first.1.life) ?_
  intro _ logged second
  have spares := keeps_or_cancels_trans store between logged first second
  refine attains_value_bind (auditing κ) k _ _ _ _ _ logged
    (attains_value_claim k exporter.leaseDuration logged spares.1.life exporter.postgresql
      exporter.workerId) ?_
  rintro (_ | claimed) now ⟨course, takes⟩
  · obtain ⟨same, cleared⟩ := takes
    subst same
    exact attains_value_pure (auditing κ) k _ _ () now ⟨spares.1, .inl ⟨spares.2, cleared⟩⟩
  obtain ⟨old, workerId, moment, expires, held, due, is, written⟩ := takes
  have found : now.packages claimed.id = some claimed := by rw [written, Function.update_self]
  have sameBuild : builds env exporter.keyring now.ledger claimed =
      builds env exporter.keyring store.ledger old := by
    rw [course.ledger, spares.1.ledger, is]
    rfl
  have before : store.packages claimed.id = some old :=
    kept_or_cancelled_before _ _ (spares.2 claimed.id) old held
      (by rcases due with status | status <;> rw [status] <;> decide)
  have covered := life.covered claimed.id old before
  refine attains_value_bind (auditing κ) k _ _ _ _ _ now
    (attains_value_build k exporter.leaseDuration env exporter.keyring now course.life claimed found
    (by rw [is]; rfl) (by rw [sameBuild]; exact sane old covered)) ?_
  rintro result last ⟨further, new, updated, ends⟩
  refine attains_value_mono (auditing κ) k _ _ _ _ last ?_
    (attains_value_log k exporter.leaseDuration last (outcomeEntry claimed result))
  rintro _ final rfl
  have report := session_effect_log k last further.life (outcomeEntry claimed result)
  have whole := session_effect_trans
    _ _ _ (session_effect_trans _ _ _ (session_effect_trans _ _ _ spares.1 course) further) report
  refine ⟨whole, .inr ⟨claimed.id, old, new, before, due, ?_, ?_, fun other apart => ?_⟩⟩
  · exact (congrFun updated claimed.id).trans (Function.update_self ..)
  · rw [← sameBuild]
    exact ends_as_forward env new last _ _ report.forward ends
  · change KeptOrCancelled (store.packages other) (last.packages other)
    rw [updated, Function.update_of_ne apart, written, Function.update_of_ne apart]
    exact spares.2 other

end

end CalibrationLedger
