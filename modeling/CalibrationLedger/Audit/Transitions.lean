import Mathlib.Logic.Relation
import CalibrationLedger.Audit.Service

set_option autoImplicit false

-- Everything a statement can do to the audit tables.
namespace CalibrationLedger

open JsonText Digest Interleaving

-- Which columns are filled in in which status. The check constraint follows from
-- it; by itself it would not be kept, saying nothing of the artifact and
-- cancellation columns of a pending or failed row.
structure AuditPackage.InOrder (package : AuditPackage) : Prop where
  digest : package.artifactSha256.isSome = decide (package.status = .ready)
  size : package.artifactSizeBytes.isSome = decide (package.status = .ready)
  counted : package.eventCount.isSome = decide (package.status = .ready)
  finished : package.readyAt.isSome = decide (package.status = .ready)
  code : package.failureCode.isSome = decide (package.status = .failed)
  reason : package.failureReason.isSome = decide (package.status = .failed)
  broken : package.failedAt.isSome = decide (package.status = .failed)
  owned : package.leaseOwner.isSome = decide (package.status = .building ∨ package.status = .cancelling)
  leased : package.leaseExpiresAt.isSome = decide (package.status = .building ∨ package.status = .cancelling)
  asked : package.cancelRequestedAt.isSome =
    decide (package.status = .cancelling ∨ package.status = .cancelled)
  withdrawn : package.cancelledAt.isSome = decide (package.status = .cancelled)

theorem in_order_shape (package : AuditPackage) (order : package.InOrder) : package.stateShape = true := by
  obtain ⟨digest, size, counted, finished, code, reason, broken, owned, leased, asked, withdrawn⟩ := order
  cases status : package.status <;>
    simp [AuditPackage.stateShape, ← Option.not_isSome, status, digest, size, counted, finished, code,
      reason, broken,
      owned, leased, asked, withdrawn]

-- What a transaction can turn a row into, by what it is.
inductive Moves : Action → AuditPackage → AuditPackage → Prop where
  | claim (old : AuditPackage) (workerId : String) (moment expires : Instant)
      (eligible : old.eligible moment = true) :
      Moves (.claim workerId moment) old (old.claim workerId moment expires)
  | settle (old : AuditPackage) (moment : Instant) (due : old.status = .cancelled ∨ old.stale moment = true) :
      Moves (.settle moment) old (old.applyCancelled moment)
  | retry (old : AuditPackage) (now : Instant) (failed : old.status = .failed) : Moves .retry old
      (old.requeue now)
  | withdraw (old : AuditPackage) (now : Instant) (pending : old.status = .pending) :
      Moves .cancel old (old.withdraw now)
  | requestCancel (old : AuditPackage) (now : Instant) (building : old.status = .building) :
      Moves .cancel old (old.requestCancel now)
  | confirm (exit : Exit) (claimed old : AuditPackage) (now : Instant) (asked : old.status = .cancelling)
      (owned : exit = .finishCancelled → old.leaseOwner = claimed.leaseOwner) :
      Moves (.terminal exit claimed (.status .cancelled)) old (old.applyCancelled now)
  | complete (claimed old : AuditPackage) (archive : BuiltArchive) (now : Instant)
      (building : old.status = .building)
      (owned : old.leaseOwner = claimed.leaseOwner) :
      Moves (.terminal .finalWrite claimed (.status .ready)) old (old.complete archive now)
  | fail (claimed old : AuditPackage) (code : String) (reason : Text) (now : Instant)
      (building : old.status = .building)
      (owned : old.leaseOwner = claimed.leaseOwner) :
      Moves (.terminal .failOrCancel claimed (.status .failed)) old (old.fail code reason now)

-- The row a terminal transaction finds is no longer its claim's.
def Lost (exit : Exit) (claimed old : AuditPackage) : Prop :=
  match exit with
  | .finalWrite => old.status ≠ .cancelling ∧ old.status ≠ .cancelled ∧
      (old.status ≠ .building ∨ old.leaseOwner ≠ claimed.leaseOwner)
  | .finishCancelled => old.status ≠ .cancelled ∧
      ¬(old.status = .cancelling ∧ old.leaseOwner = claimed.leaseOwner)
  | .failOrCancel => old.status ≠ .cancelling ∧ (old.status ≠ .building ∨ old.leaseOwner ≠ claimed.leaseOwner)

-- When a transaction leaves the row as it is.
inductive LeavesRow : Action → Option AuditPackage → Prop where
  | missing (exit : Exit) (claimed : AuditPackage) : LeavesRow (.terminal exit claimed (.status .failed)) none
  | superseded (exit : Exit) (claimed old : AuditPackage) (early : exit ≠ .failOrCancel)
      (done : old.status = .cancelled) :
      LeavesRow (.terminal exit claimed .superseded) (some old)
  | lost (exit : Exit) (claimed old : AuditPackage) (lost : Lost exit claimed old) :
      LeavesRow (.terminal exit claimed (.status old.status)) (some old)
  | retry (old : AuditPackage) : LeavesRow .retry (some old)
  | cancel (old : AuditPackage) : LeavesRow .cancel (some old)

-- Only the step to ready adds an artifact, where there was none.
def Delivers (old new : AuditPackage) (before after : Uuid → Option AuditPackageArtifact) : Prop :=
  new.status ≠ .ready ∧ after = before ∨
    ∃ archive now, new = old.complete archive now ∧ before old.packageId = none ∧
      after = Function.update before old.packageId (some (old.artifact archive now))

-- The boundary of a package is a checkpoint over some event of its instrument.
def Covered (ledger : Ledger) (package : AuditPackage) : Prop :=
  ∃ checkpoint, ledger.checkpoint package.checkpointId = some checkpoint ∧
    ledger.instrumentEvents package.instrumentId checkpoint.lastEventSequence ≠ []

structure Fresh (ledger : Ledger) (draft : AuditPackage) : Prop where
  pending : draft.status = .pending
  order : draft.InOrder
  uncounted : draft.attemptCount = 0
  covered : Covered ledger draft

def Follower (ledger : Ledger) (predecessor : Option Uuid) (checkpointId : Uuid) : Prop :=
  ∃ checkpoint ∈ ledger.checkpoints, checkpoint.checkpointId = checkpointId ∧
    checkpoint.previousCheckpointId = predecessor

-- The transactions a query can end in, and on which row where it names one.
def Issues (request : AuditQuery) (action : Action) (id : Nat) : Prop :=
  match request, action with
  | .claimSkipLocked workerId _ _, .claim name _ => name = workerId
  | .claimById _ workerId _ _, .claim name _ => name = workerId
  | .settleSkipLocked _, .settle _ => True
  | .settleById _ _, .settle _ => True
  | .finalWrite claimed _, .terminal exit named _ => exit = .finalWrite ∧ named = claimed ∧ id = claimed.id
  | .finishCancelled claimed, .terminal exit named _ => exit = .finishCancelled ∧ named = claimed ∧
      id = claimed.id
  | .failOrCancel claimed _ _, .terminal exit named _ => exit = .failOrCancel ∧ named = claimed ∧
      id = claimed.id
  | .requestRetry _, .retry => True
  | .cancelPackage _, .cancel => True
  | _, _ => False

section

variable {κ : Type}

-- One row written, or one transaction that wrote none.
inductive Effect (i : κ) (request : AuditQuery) (store : AuditStore κ) : AuditStore κ → Prop where
  | created (row : AuditPackage) (new : store.nextId ≤ row.id) (fresh : Fresh store.ledger row)
      (apart : ∀ other ∈ store.rows, other.packageId ≠ row.packageId ∧
        other.idempotencyKey ≠ row.idempotencyKey) :
      Effect i request store { store.put ⟨i, .create, row.id, none, some row⟩ row with nextId := row.id + 1 }
  | moved (action : Action) (id : Nat) (old new : AuditPackage)
      (artifacts : Uuid → Option AuditPackageArtifact)
      (issued : Issues request action id) (found : store.packages id = some old)
      (moves : Moves action old new)
      (delivers : Delivers old new store.artifacts artifacts) :
      Effect i request store { store.put ⟨i, action, id, some old, some new⟩ new with artifacts }
  | declined (action : Action) (id : Nat) (issued : Issues request action id)
      (declines : LeavesRow action (store.packages id)) :
      Effect i request store { store with
        journal := store.journal ++ [⟨i, action, id, store.packages id, store.packages id⟩] }
  | registered (row : AuditConsumer) (new : store.nextConsumer ≤ row.id)
      (unread : row.lastCheckpointId = none)
      (apart : ∀ other ∈ store.consumerRows, other.consumerId ≠ row.consumerId) :
      Effect i request store { store with
        consumers := Function.update store.consumers row.id (some row), nextConsumer := row.id + 1 }
  | advanced (id : Nat) (consumer row : AuditConsumer) (checkpointId : Uuid)
      (found : store.consumers id = some consumer)
      (follows : Follower store.ledger consumer.lastCheckpointId checkpointId)
      (moved : row.lastCheckpointId = some checkpointId)
      (named : row.id = consumer.id ∧ row.consumerId = consumer.consumerId) :
      Effect i request store { store with
        consumers := Function.update store.consumers id (some row)
        acknowledged := store.acknowledged ++ [⟨i, id, checkpointId⟩] }

-- What the code owes before the queries that do not check by themselves.
def CheckedBefore (query : AuditQuery) (store : AuditStore κ) : Prop :=
  match query with
  | .insertPackage draft => Fresh store.ledger draft
  | .insertConsumer draft => draft.lastCheckpointId = none
  | .settleById id moment => ∀ row, store.packages id = some row → row.status = .cancelled ∨
      row.stale moment = true
  | .advanceCursor _ predecessor checkpointId _ => Follower store.ledger predecessor checkpointId
  | _ => True

-- Rows stand under their own ids.
structure Filed (store : AuditStore κ) : Prop where
  packages : ∀ id row, store.packages id = some row → row.id = id ∧ id < store.nextId
  consumers : ∀ id row, store.consumers id = some row → row.id = id ∧ id < store.nextConsumer

theorem mem_rows (store : AuditStore κ) (filed : Filed store) (row : AuditPackage) :
    row ∈ store.rows ↔ store.packages row.id = some row := by
  rw [AuditStore.rows, List.mem_filterMap]
  constructor
  · rintro ⟨id, _, found⟩
    rw [(filed.packages id row found).1]
    exact found
  · exact fun found => ⟨row.id, List.mem_range.mpr (filed.packages row.id row found).2, found⟩

theorem mem_consumer_rows (store : AuditStore κ) (filed : Filed store) (row : AuditConsumer) :
    row ∈ store.consumerRows ↔ store.consumers row.id = some row := by
  rw [AuditStore.consumerRows, List.mem_filterMap]
  constructor
  · rintro ⟨id, _, found⟩
    rw [(filed.consumers id row found).1]
    exact found
  · exact fun found => ⟨row.id, List.mem_range.mpr (filed.consumers row.id row found).2, found⟩

theorem rows_distinct (store : AuditStore κ) (filed : Filed store) :
    store.rows.Pairwise fun a b => a.id ≠ b.id := by
  rw [AuditStore.rows, List.pairwise_filterMap]
  refine List.Pairwise.imp ?_ List.nodup_range
  intro left right apart a foundA b foundB same
  apply apart
  rw [← (filed.packages left a foundA).1, same, (filed.packages right b foundB).1]

end

-- A decision is one of the moves, or none of them.
def Decided {α : Type} (action : α → Action) (found : Option AuditPackage) (decision : Decision α) : Prop :=
  decision.write = none ∧ LeavesRow (action decision.reply) found ∨
    ∃ old new, found = some old ∧ decision.write = some new ∧ Moves (action decision.reply) old new ∧
      (new.status ≠ .ready ∧ decision.artifact = none ∨
        ∃ archive now, new = old.complete archive now ∧ decision.artifact = some (old.artifact archive now))

theorem final_write_decided (claimed : AuditPackage) (archive : BuiltArchive) (now : Instant)
    (found : Option AuditPackage) :
    Decided (.terminal .finalWrite claimed) found (finalWrite claimed archive now found) := by
  cases found with
  | none => exact .inl ⟨rfl, .missing _ claimed⟩
  | some old =>
      rw [finalWrite]
      by_cases asked : old.status = .cancelling
      · rw [if_pos asked]
        exact .inr ⟨old, _, rfl, rfl, .confirm .finalWrite claimed old now asked (by simp),
          .inl ⟨by simp [AuditPackage.applyCancelled], rfl⟩⟩
      · rw [if_neg asked]
        by_cases done : old.status = .cancelled
        · rw [if_pos done]
          exact .inl ⟨rfl, .superseded _ claimed old (by simp) done⟩
        · rw [if_neg done]
          by_cases lost : old.status ≠ .building ∨ old.leaseOwner ≠ claimed.leaseOwner
          · rw [if_pos lost]
            exact .inl ⟨rfl, .lost .finalWrite claimed old ⟨asked, done, lost⟩⟩
          · rw [if_neg lost]
            obtain ⟨building, owned⟩ := not_or.mp lost
            exact .inr ⟨old, _, rfl, rfl, .complete claimed old archive now (not_not.mp building)
              (not_not.mp owned),
              .inr ⟨archive, now, rfl, rfl⟩⟩

theorem finish_cancelled_decided (claimed : AuditPackage) (now : Instant) (found : Option AuditPackage) :
    Decided (.terminal .finishCancelled claimed) found (finishCancelled claimed now found) := by
  cases found with
  | none => exact .inl ⟨rfl, .missing _ claimed⟩
  | some old =>
      rw [finishCancelled]
      by_cases owned : old.status = .cancelling ∧ old.leaseOwner = claimed.leaseOwner
      · rw [if_pos owned]
        exact .inr ⟨old, _, rfl, rfl, .confirm .finishCancelled claimed old now owned.1 fun _ => owned.2,
          .inl ⟨by simp [AuditPackage.applyCancelled], rfl⟩⟩
      · rw [if_neg owned]
        by_cases done : old.status = .cancelled
        · rw [if_pos done]
          exact .inl ⟨rfl, .superseded _ claimed old (by simp) done⟩
        · rw [if_neg done]
          exact .inl ⟨rfl, .lost .finishCancelled claimed old ⟨done, owned⟩⟩

theorem fail_or_cancel_decided (claimed : AuditPackage) (code : String) (reason : Text) (now : Instant)
    (found : Option AuditPackage) :
    Decided (.terminal .failOrCancel claimed) found (failOrCancel claimed code reason now found) := by
  cases found with
  | none => exact .inl ⟨rfl, .missing _ claimed⟩
  | some old =>
      rw [failOrCancel]
      by_cases asked : old.status = .cancelling
      · rw [if_pos asked]
        exact .inr ⟨old, _, rfl, rfl, .confirm .failOrCancel claimed old now asked (by simp),
          .inl ⟨by simp [AuditPackage.applyCancelled], rfl⟩⟩
      · rw [if_neg asked]
        by_cases lost : old.status ≠ .building ∨ old.leaseOwner ≠ claimed.leaseOwner
        · rw [if_pos lost]
          exact .inl ⟨rfl, .lost .failOrCancel claimed old ⟨asked, lost⟩⟩
        · rw [if_neg lost]
          obtain ⟨building, owned⟩ := not_or.mp lost
          exact .inr ⟨old, _, rfl, rfl, .fail claimed old code reason now (not_not.mp building)
            (not_not.mp owned),
            .inl ⟨by simp [AuditPackage.fail], rfl⟩⟩

theorem retry_decided (packageId : Uuid) (now : Instant) (row : AuditPackage) :
    Decided (fun _ => .retry) (some row) (requestRetry packageId now (some row)) := by
  rw [requestRetry]
  cases status : row.status with
  | failed => exact .inr ⟨row, _, rfl, rfl, .retry row now status, .inl ⟨by simp [AuditPackage.requeue], rfl⟩⟩
  | pending => exact .inl ⟨rfl, .retry row⟩
  | building => exact .inl ⟨rfl, .retry row⟩
  | ready => exact .inl ⟨rfl, .retry row⟩
  | cancelling => exact .inl ⟨rfl, .retry row⟩
  | cancelled => exact .inl ⟨rfl, .retry row⟩

theorem cancel_decided (packageId : Uuid) (now : Instant) (row : AuditPackage) :
    Decided (fun _ => .cancel) (some row) (cancelPackage packageId now (some row)) := by
  rw [cancelPackage]
  cases status : row.status with
  | pending =>
      exact .inr ⟨row, _, rfl, rfl, .withdraw row now status, .inl ⟨by simp [AuditPackage.withdraw], rfl⟩⟩
  | building =>
      exact .inr ⟨row, _, rfl, rfl, .requestCancel row now status,
        .inl ⟨by simp [AuditPackage.requestCancel], rfl⟩⟩
  | ready => exact .inl ⟨rfl, .cancel row⟩
  | failed => exact .inl ⟨rfl, .cancel row⟩
  | cancelling => exact .inl ⟨rfl, .cancel row⟩
  | cancelled => exact .inl ⟨rfl, .cancel row⟩

section

variable {κ : Type} (i : κ) (store : AuditStore κ)

abbrev Effects (i : κ) (request : AuditQuery) (before after : AuditStore κ) : Prop :=
  Relation.ReflTransGen (Effect i request) before after

variable (request : AuditQuery)

theorem transact_effects {α : Type} (action : α → Action) (id : Nat) (decision : Decision α)
    (issued : ∀ reply, Issues request (action reply) id)
    (decided : Decided action (store.packages id) decision) :
    Effects i request store (store.transact i action id decision).2 := by
  rcases decided with ⟨unwritten, declines⟩ | ⟨old, new, found, written, moves, delivers⟩
  · rw [AuditStore.transact, unwritten]
    exact .single (.declined _ id (issued _) declines)
  · rw [AuditStore.transact, written]
    dsimp only
    by_cases shaped : new.stateShape = true
    · rw [if_neg (by simp [shaped])]
      rcases delivers with ⟨unfinished, none⟩ | ⟨archive, now, completes, delivered⟩
      · rw [none, found]
        exact .single (.moved _ id old new store.artifacts (issued _) found moves (.inl ⟨unfinished, rfl⟩))
      · rw [delivered]
        dsimp only
        by_cases taken : (store.artifacts (old.artifact archive now).packageId).isSome = true
        · rw [if_pos taken]
        · rw [if_neg taken, found]
          exact .single (.moved _ id old new _ (issued _) found moves
              (.inr ⟨archive, now, completes, by simpa [AuditPackage.artifact] using taken, rfl⟩))
    · rw [if_pos (by simp [shaped])]

theorem claim_effects (workerId : String) (moment : Instant) (expires : Py Instant)
    (candidate : Option AuditPackage) (issued : ∀ id, Issues request (.claim workerId moment) id)
    (chosen : ∀ row, candidate = some row → store.packages row.id = some row ∧ row.eligible moment = true) :
    Effects i request store (store.claim i workerId moment expires candidate).2 := by
  cases candidate with
  | none => exact .refl
  | some row =>
      obtain ⟨found, eligible⟩ := chosen row rfl
      cases expires with
      | error _ => exact .refl
      | ok expires =>
          rw [AuditStore.claim]
          refine transact_effects i store request _ _ _ (fun _ => issued row.id) ?_
          exact .inr ⟨row, _, found, rfl, .claim row workerId moment expires eligible,
            .inl ⟨by simp [AuditPackage.claim], rfl⟩⟩

theorem settle_effects (moment : Instant) (candidates : List AuditPackage)
    (apart : candidates.Pairwise fun a b => a.id ≠ b.id)
    (issued : ∀ id, Issues request (.settle moment) id)
    (chosen : ∀ row ∈ candidates, store.packages row.id = some row ∧ row.stale moment = true) :
    Effects i request store (candidates.foldl (AuditStore.settleRow i moment) store) := by
  induction candidates generalizing store with
  | nil => exact .refl
  | cons row rest ih =>
      obtain ⟨others, later⟩ := List.pairwise_cons.mp apart
      obtain ⟨found, stale⟩ := chosen row List.mem_cons_self
      refine .head (.moved (.settle moment) row.id row (row.applyCancelled moment) store.artifacts
        (issued row.id) found
        (.settle row moment (.inr stale)) (.inl ⟨by simp [AuditPackage.applyCancelled], rfl⟩)) ?_
      apply ih _ later
      intro other inside
      obtain ⟨still, due⟩ := chosen other (List.mem_cons_of_mem row inside)
      refine ⟨?_, due⟩
      simp [AuditStore.put, Function.update_of_ne (others other inside).symm, still]

theorem insert_effects (draft : AuditPackage) (gap : Nat) (fresh : Fresh store.ledger draft) :
    Effects i request store (store.insertPackage i draft gap).2 := by
  rw [AuditStore.insertPackage]
  split
  · exact .refl
  · rename_i apart
    split
    · exact .refl
    · split
      · exact .refl
      · refine .single (.created { draft with id := store.nextId + gap } (by simp) ?_ ?_)
        · exact ⟨fresh.pending,
            ⟨fresh.order.digest, fresh.order.size, fresh.order.counted, fresh.order.finished,
            fresh.order.code,
            fresh.order.reason, fresh.order.broken, fresh.order.owned, fresh.order.leased, fresh.order.asked,
            fresh.order.withdrawn⟩, fresh.uncounted, fresh.covered⟩
        · simpa using apart

theorem answer_effects (choice : Choice) (filed : Filed store) (careful : CheckedBefore request store) :
    Effects i request store (store.answer i choice request).2 := by
  cases request with
  | insertPackage draft => exact insert_effects i store _ draft choice.gap careful
  | claimSkipLocked workerId moment leaseDuration =>
      refine claim_effects i store _ workerId moment _ _ (fun _ => rfl) fun row found => ?_
      have chosen := List.find?_some found
      simp only [Bool.and_eq_true] at chosen
      exact ⟨(mem_rows store filed row).mp (List.mem_of_find?_eq_some found), chosen.1⟩
  | claimById id workerId moment expires =>
      refine claim_effects i store _ workerId moment _ _ (fun _ => rfl) fun row found => ?_
      obtain ⟨at_id, eligible⟩ := Option.filter_eq_some_iff.mp found
      rw [(filed.packages id row at_id).1]
      exact ⟨at_id, eligible⟩
  | settleSkipLocked moment =>
      rw [AuditStore.answer, AuditStore.settleAll]
      split
      · refine settle_effects i store _ moment _ ((rows_distinct store filed).filter _)
          (fun _ => trivial) fun row inside => ?_
        obtain ⟨member, chosen⟩ := List.mem_filter.mp inside
        simp only [Bool.and_eq_true] at chosen
        exact ⟨(mem_rows store filed row).mp member, chosen.1⟩
      · exact .refl
  | settleById id moment =>
      rw [AuditStore.answer]
      cases found : store.packages id with
      | none => exact .refl
      | some row =>
          refine transact_effects i store _ _ _ _ (fun _ => trivial) ?_
          exact .inr ⟨row, _, found, rfl, .settle row moment (careful row found),
            .inl ⟨by simp [AuditPackage.applyCancelled], rfl⟩⟩
  | finalWrite claimed archive =>
      exact transact_effects i store _ _ _ _ (fun _ => ⟨rfl, rfl, rfl⟩)
        (final_write_decided claimed archive choice.clock _)
  | finishCancelled claimed =>
      exact transact_effects i store _ _ _ _ (fun _ => ⟨rfl, rfl, rfl⟩)
        (finish_cancelled_decided claimed choice.clock _)
  | failOrCancel claimed code reason =>
      exact transact_effects i store _ _ _ _ (fun _ => ⟨rfl, rfl, rfl⟩)
        (fail_or_cancel_decided claimed code reason choice.clock _)
  | requestRetry packageId =>
      rw [AuditStore.answer]
      cases found : store.byPackageId packageId with
      | none => exact .refl
      | some row =>
          refine transact_effects i store _ _ _ _ (fun _ => trivial) ?_
          rw [(mem_rows store filed row).mp (List.mem_of_find?_eq_some found)]
          exact retry_decided packageId choice.clock row
  | cancelPackage packageId =>
      rw [AuditStore.answer]
      cases found : store.byPackageId packageId with
      | none => exact .refl
      | some row =>
          refine transact_effects i store _ _ _ _ (fun _ => trivial) ?_
          rw [(mem_rows store filed row).mp (List.mem_of_find?_eq_some found)]
          exact cancel_decided packageId choice.clock row
  | insertConsumer draft =>
      rw [AuditStore.answer, AuditStore.insertConsumer]
      split
      · exact .refl
      · rename_i apart
        refine .single (.registered { draft with id := store.nextConsumer + choice.gap } (by simp) careful ?_)
        intro other inside same
        exact apart (List.any_eq_true.mpr ⟨other, inside, by simp [same]⟩)
  | advanceCursor id predecessor checkpointId now =>
      rw [AuditStore.answer, AuditStore.advanceCursor]
      cases found : store.consumers id with
      | none => exact .refl
      | some consumer =>
          dsimp only
          by_cases expected : consumer.lastCheckpointId = predecessor
          · rw [if_neg (by simp [expected])]
            split
            · exact .refl
            · exact .single (.advanced id consumer _ checkpointId found
                  (by rw [expected]; exact careful) rfl ⟨rfl, rfl⟩)
          · rw [if_pos expected]
  | _ => exact .refl

end

end CalibrationLedger
