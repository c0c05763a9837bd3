import CalibrationLedger.Library.Histories
import CalibrationLedger.Growth
import CalibrationLedger.Audit.Transitions

set_option autoImplicit false

-- What holds of the package rows, their artifacts and the journal at all times.
namespace CalibrationLedger

open JsonText Digest Interleaving Histories

-- What a package is asked for never changes.
def AuditPackage.identity (package : AuditPackage) : Nat × Uuid × String × String × String × Uuid × Instant :=
  (package.id, package.packageId, package.idempotencyKey, package.requestFingerprint, package.instrumentId,
    package.checkpointId, package.createdAt)

-- What becomes of a row: a ready one stays as it is, a cancelled one cancelled, and
-- a cancelling one stays as it is until it is cancelled.
structure Evolves (before after : AuditPackage) : Prop where
  same : after.identity = before.identity
  ready : before.status = .ready → after = before
  cancelled : before.status = .cancelled → after.status = .cancelled
  cancelling : before.status = .cancelling → after.status = .cancelled ∨ after = before

theorem evolves_refl (row : AuditPackage) : Evolves row row := ⟨rfl, fun _ => rfl, id, fun _ => .inr rfl⟩

theorem evolves_trans (a b c : AuditPackage) (first : Evolves a b) (second : Evolves b c) : Evolves a c where
  same := second.same.trans first.same
  ready done := by
    rw [first.ready done] at second
    exact second.ready done
  cancelled done := second.cancelled (first.cancelled done)
  cancelling asked := by
    rcases first.cancelling asked with done | rfl
    · exact .inl (second.cancelled done)
    · exact second.cancelling asked

theorem eligible_status (row : AuditPackage) (moment : Instant) (eligible : row.eligible moment = true) :
    row.status = .pending ∨ row.status = .building ∧ row.expired moment = true := by
  simpa [AuditPackage.eligible] using eligible

theorem stale_status (row : AuditPackage) (moment : Instant) (stale : row.stale moment = true) :
    row.status = .cancelling ∧ row.expired moment = true := by
  simpa [AuditPackage.stale] using stale

theorem moves_evolve (action : Action) (old new : AuditPackage) (moves : Moves action old new) :
    Evolves old new := by
  cases moves with
  | claim old workerId moment expires eligible =>
      rcases eligible_status old moment eligible with pending | ⟨building, _⟩
      · exact ⟨rfl, by simp [pending], by simp [pending], by simp [pending]⟩
      · exact ⟨rfl, by simp [building], by simp [building], by simp [building]⟩
  | settle old moment due =>
      have was : old.status = .cancelled ∨ old.status = .cancelling := due.imp id fun stale =>
        (stale_status old moment stale).1
      refine ⟨rfl, fun ready => ?_, fun _ => rfl, fun _ => .inl rfl⟩
      rcases was with done | asked
      · simp [ready] at done
      · simp [ready] at asked
  | retry old now failed => exact ⟨rfl, by simp [failed], by simp [failed], by simp [failed]⟩
  | withdraw old now pending => exact ⟨rfl, by simp [pending], by simp [pending], by simp [pending]⟩
  | requestCancel old now building => exact ⟨rfl, by simp [building], by simp [building], by simp [building]⟩
  | confirm exit claimed old now asked owned => exact ⟨rfl, by simp [asked], fun _ => rfl, fun _ => .inl rfl⟩
  | complete claimed old archive now building owned =>
      exact ⟨rfl, by simp [building], by simp [building], by simp [building]⟩
  | fail claimed old code reason now building owned =>
      exact ⟨rfl, by simp [building], by simp [building], by simp [building]⟩

theorem moves_in_order (action : Action) (old new : AuditPackage) (moves : Moves action old new)
    (order : old.InOrder) :
    new.InOrder := by
  obtain ⟨digest, size, counted, finished, code, reason, broken, owned, leased, asked, withdrawn⟩ := order
  cases moves with
  | claim old workerId moment expires eligible =>
      rcases eligible_status old moment eligible with status | ⟨status, _⟩ <;>
        constructor <;> simp [AuditPackage.claim, digest, size, counted, finished, code, reason, broken,
          asked, withdrawn, status]
  | settle old moment due =>
      have was : old.status = .cancelled ∨ old.status = .cancelling := due.imp id fun stale =>
        (stale_status old moment stale).1
      rcases was with status | status <;>
        constructor <;> simp [AuditPackage.applyCancelled, digest, size, counted, finished, code,
          reason, broken, asked, status]
  | retry old now status =>
      constructor <;> simp [AuditPackage.requeue, digest, size, counted, finished, status]
  | withdraw old now status =>
      constructor <;>
        simp [AuditPackage.withdraw, digest, size, counted, finished, code, reason, broken, owned,
          leased, status]
  | requestCancel old now status =>
      constructor <;>
        simp [AuditPackage.requestCancel, digest, size, counted, finished, code, reason, broken, owned,
          leased, withdrawn, status]
  | confirm exit claimed old now status _ =>
      constructor <;> simp [AuditPackage.applyCancelled, digest, size, counted, finished, code, reason,
        broken, asked, status]
  | complete claimed old archive now status _ =>
      constructor <;> simp [AuditPackage.complete, code, reason, broken, asked, withdrawn, status]
  | fail claimed old failure text now status _ =>
      constructor <;> simp [AuditPackage.fail, digest, size, counted, finished, asked, withdrawn, status]

theorem instrument_events_kept (before after : Ledger) (grows : LedgerGrows before after)
    (checkpoint : Checkpoint) (member : checkpoint ∈ before.checkpoints) (instrumentId : String) :
    after.instrumentEvents instrumentId checkpoint.lastEventSequence =
      before.instrumentEvents instrumentId checkpoint.lastEventSequence := by
  rw [Ledger.instrumentEvents, Ledger.instrumentEvents, grows.sealed checkpoint member]

theorem covered_grows (before after : Ledger) (grows : LedgerGrows before after) (package : AuditPackage)
    (covered : Covered before package) : Covered after package := by
  obtain ⟨checkpoint, found, events⟩ := covered
  refine ⟨checkpoint, grown_checkpoint before after grows _ checkpoint found, ?_⟩
  rw [instrument_events_kept before after grows checkpoint (List.mem_of_find?_eq_some found)]
  exact events

section

variable {κ : Type}

-- The rows a journal leaves.
def rowsAfter (journal : List (Entry κ)) : Nat → Option AuditPackage :=
  journal.foldl (fun rows entry => Function.update rows entry.id entry.after) fun _ => none

theorem rows_after_snoc (journal : List (Entry κ)) (entry : Entry κ) :
    rowsAfter (journal ++ [entry]) = Function.update (rowsAfter journal) entry.id entry.after := by
  rw [rowsAfter, List.foldl_append]
  rfl

-- What a journal entry can be.
inductive LawfulEntry : Entry κ → Prop where
  | created (caller : κ) (row : AuditPackage) (pending : row.status = .pending)
      (uncounted : row.attemptCount = 0) :
      LawfulEntry ⟨caller, .create, row.id, none, some row⟩
  | moved (caller : κ) (action : Action) (id : Nat) (old new : AuditPackage) (moves : Moves action old new) :
      LawfulEntry ⟨caller, action, id, some old, some new⟩
  | declined (caller : κ) (action : Action) (id : Nat) (found : Option AuditPackage)
      (declines : LeavesRow action found) :
      LawfulEntry ⟨caller, action, id, found, found⟩

-- How an entry stands to the journal before it.
def Faithful (earlier : List (Entry κ)) (entry : Entry κ) : Prop :=
  entry.before = rowsAfter earlier entry.id ∧ LawfulEntry entry ∧ ∀ row, entry.before = some row → row.InOrder

structure Lifecycle (store : AuditStore κ) : Prop where
  filed : Filed store
  order : ∀ id row, store.packages id = some row → row.InOrder
  covered : ∀ id row, store.packages id = some row → Covered store.ledger row
  distinct : ∀ a b left right, store.packages a = some left → store.packages b = some right →
    left.packageId = right.packageId ∨ left.idempotencyKey = right.idempotencyKey → a = b
  stored : ∀ packageId artifact, store.artifacts packageId = some artifact →
    ∃ id row, store.packages id = some row ∧
    row.packageId = packageId ∧ row.status = .ready ∧ row.artifactSha256 = some artifact.sha256 ∧
    row.artifactSizeBytes = some artifact.sizeBytes
  kept : ∀ id row, store.packages id = some row → row.status = .ready →
    (store.artifacts row.packageId).isSome = true
  replayed : store.packages = rowsAfter store.journal
  faithful : Throughout Faithful store.journal

theorem put_cases {α : Type} (table : Nat → Option α) (id : Nat) (new : α) (n : Nat) (row : α)
    (found : Function.update table id (some new) n = some row) :
    n = id ∧ row = new ∨ n ≠ id ∧ table n = some row := by
  by_cases same : n = id
  · subst n
    rw [Function.update_self] at found
    exact .inl ⟨rfl, (Option.some.inj found).symm⟩
  · rw [Function.update_of_ne same] at found
    exact .inr ⟨same, found⟩

theorem put_new (packages : Nat → Option AuditPackage) (id : Nat) (new : AuditPackage) :
    Function.update packages id (some new) id = some new := Function.update_self id _ packages

variable (i : κ) (store : AuditStore κ)

theorem unfiled_new (filed : Filed store) (id : Nat) (new : store.nextId ≤ id) :
    store.packages id = none := by
  cases found : store.packages id with
  | none => rfl
  | some row =>
      have less := (filed.packages id row found).2
      omega

theorem lifecycle_created (row : AuditPackage) (new : store.nextId ≤ row.id)
    (fresh : Fresh store.ledger row)
    (apart : ∀ other ∈ store.rows, other.packageId ≠ row.packageId ∧
      other.idempotencyKey ≠ row.idempotencyKey)
    (life : Lifecycle store) :
    Lifecycle { store.put ⟨i, .create, row.id, none, some row⟩ row with nextId := row.id + 1 } := by
  have absent := unfiled_new store life.filed row.id new
  have others : ∀ n other, store.packages n = some other → other.packageId ≠ row.packageId ∧
      other.idempotencyKey ≠ row.idempotencyKey :=
    fun n other found =>
      apart other ((mem_rows store life.filed other).mpr
        (by rw [(life.filed.packages n other found).1, found]))
  refine ⟨⟨?_, life.filed.consumers⟩, ?_, ?_, ?_, ?_, ?_, ?_, ?_⟩
  · intro n found at_n
    rcases put_cases _ _ _ n found at_n with ⟨rfl, rfl⟩ | ⟨_, old⟩
    · exact ⟨rfl, Nat.lt_succ_self _⟩
    · obtain ⟨named, less⟩ := life.filed.packages n found old
      exact ⟨named, show n < row.id + 1 by omega⟩
  · intro n found at_n
    rcases put_cases _ _ _ n found at_n with ⟨rfl, rfl⟩ | ⟨_, old⟩
    · exact fresh.order
    · exact life.order n found old
  · intro n found at_n
    rcases put_cases _ _ _ n found at_n with ⟨rfl, rfl⟩ | ⟨_, old⟩
    · exact fresh.covered
    · exact life.covered n found old
  · intro a b left right at_a at_b same
    rcases put_cases _ _ _ a left at_a with ⟨isA, rfl⟩ | ⟨_, oldA⟩ <;>
      rcases put_cases _ _ _ b right at_b with ⟨isB, rfl⟩ | ⟨_, oldB⟩
    · exact isA.trans isB.symm
    · exact absurd same (by simp [(others b right oldB).1.symm, (others b right oldB).2.symm])
    · exact absurd same (by simp [(others a left oldA).1, (others a left oldA).2])
    · exact life.distinct a b left right oldA oldB same
  · intro packageId artifact at_id
    obtain ⟨id, found, held, rest⟩ := life.stored packageId artifact at_id
    have other : id ≠ row.id := by
      rintro rfl
      rw [absent] at held
      cases held
    exact ⟨id, found, by simp [AuditStore.put, Function.update_of_ne other, held], rest⟩
  · intro n found at_n ready
    rcases put_cases _ _ _ n found at_n with ⟨rfl, rfl⟩ | ⟨_, old⟩
    · simp [fresh.pending] at ready
    · exact life.kept n found old ready
  · simp [AuditStore.put, rows_after_snoc, life.replayed]
  · refine (throughout_snoc _ _ _).mpr
      ⟨life.faithful, ?_, .created i row fresh.pending fresh.uncounted, fun _ none => by cases none⟩
    rw [← life.replayed]
    exact absent.symm

theorem lifecycle_declined (action : Action) (id : Nat) (declines : LeavesRow action (store.packages id))
    (life : Lifecycle store) :
    Lifecycle { store with journal := store.journal ++
      [⟨i, action, id, store.packages id, store.packages id⟩] } := by
  refine ⟨⟨life.filed.packages, life.filed.consumers⟩, life.order, life.covered, life.distinct,
    life.stored, life.kept, ?_, ?_⟩
  · rw [rows_after_snoc, ← life.replayed, Function.update_eq_self]
  · refine (throughout_snoc _ _ _).mpr ⟨life.faithful, ?_, .declined i action id _ declines, life.order id⟩
    rw [← life.replayed]

theorem lifecycle_moved (action : Action) (id : Nat) (old new : AuditPackage)
    (artifacts : Uuid → Option AuditPackageArtifact) (found : store.packages id = some old)
    (moves : Moves action old new) (delivers : Delivers old new store.artifacts artifacts)
    (life : Lifecycle store) :
    Lifecycle { store.put ⟨i, action, id, some old, some new⟩ new with artifacts } := by
  have evolves := moves_evolve action old new moves
  obtain ⟨sameId, samePackage, sameKey, _, sameInstrument, sameCheckpoint, _⟩ := by
    simpa only [AuditPackage.identity, Prod.mk.injEq] using evolves.same
  refine ⟨⟨?_, life.filed.consumers⟩, ?_, ?_, ?_, ?_, ?_, ?_, ?_⟩
  · intro n row at_n
    rcases put_cases _ _ _ n row at_n with ⟨rfl, rfl⟩ | ⟨_, still⟩
    · exact ⟨sameId.trans (life.filed.packages _ old found).1, (life.filed.packages _ old found).2⟩
    · exact life.filed.packages n row still
  · intro n row at_n
    rcases put_cases _ _ _ n row at_n with ⟨rfl, rfl⟩ | ⟨_, still⟩
    · exact moves_in_order action old row moves (life.order _ old found)
    · exact life.order n row still
  · intro n row at_n
    rcases put_cases _ _ _ n row at_n with ⟨rfl, rfl⟩ | ⟨_, still⟩
    · have covered := life.covered _ old found
      rw [Covered] at covered ⊢
      rw [sameCheckpoint, sameInstrument]
      exact covered
    · exact life.covered n row still
  · intro a b left right at_a at_b same
    rcases put_cases _ _ _ a left at_a with ⟨isA, rfl⟩ | ⟨_, oldA⟩ <;>
      rcases put_cases _ _ _ b right at_b with ⟨isB, rfl⟩ | ⟨_, oldB⟩
    · exact isA.trans isB.symm
    · exact isA.trans (life.distinct id b old right found oldB (by rw [← samePackage, ← sameKey]; exact same))
    · exact (life.distinct a id left old oldA found
          (by rw [← samePackage, ← sameKey]; exact same)).trans isB.symm
    · exact life.distinct a b left right oldA oldB same
  · intro packageId artifact at_id
    have earlier : store.artifacts packageId = some artifact → ∃ n row,
        Function.update store.packages id (some new) n = some row ∧ row.packageId = packageId ∧
        row.status = .ready ∧
          row.artifactSha256 = some artifact.sha256 ∧ row.artifactSizeBytes = some artifact.sizeBytes := by
      intro held
      obtain ⟨n, row, at_n, named, ready, rest⟩ := life.stored packageId artifact held
      by_cases same : n = id
      · subst n
        rw [found] at at_n
        cases at_n
        refine ⟨id, new, put_new _ id new, ?_⟩
        rw [evolves.ready ready]
        exact ⟨named, ready, rest⟩
      · exact ⟨n, row, by rw [Function.update_of_ne same, at_n], named, ready, rest⟩
    rcases delivers with ⟨_, rfl⟩ | ⟨archive, now, rfl, absent, rfl⟩
    · exact earlier at_id
    · dsimp only at at_id
      by_cases same : packageId = old.packageId
      · subst packageId
        rw [Function.update_self] at at_id
        cases at_id
        exact ⟨id, old.complete archive now, put_new _ id _, rfl, rfl, rfl, rfl⟩
      · rw [Function.update_of_ne same] at at_id
        exact earlier at_id
  · intro n row at_n ready
    rcases put_cases _ _ _ n row at_n with ⟨rfl, rfl⟩ | ⟨other, still⟩
    · rcases delivers with ⟨unfinished, _⟩ | ⟨archive, now, rfl, absent, rfl⟩
      · exact absurd ready unfinished
      · simp [AuditPackage.complete]
    · have held := life.kept n row still ready
      rcases delivers with ⟨_, rfl⟩ | ⟨archive, now, rfl, absent, rfl⟩
      · exact held
      · have apart : row.packageId ≠ old.packageId := fun same =>
          other (life.distinct n id row old still found (.inl same))
        simpa [Function.update_of_ne apart] using held
  · simp [AuditStore.put, rows_after_snoc, life.replayed]
  · refine (throughout_snoc _ _ _).mpr ⟨life.faithful, ?_, .moved i action id old new moves,
      fun row same => life.order id row (found.trans same)⟩
    rw [← life.replayed]
    exact found.symm

theorem lifecycle_effect (request : AuditQuery) (after : AuditStore κ)
    (effect : Effect i request store after) (life : Lifecycle store) : Lifecycle after := by
  cases effect with
  | created row new fresh apart => exact lifecycle_created i store row new fresh apart life
  | moved action id old new artifacts issued found moves delivers =>
      exact lifecycle_moved i store action id old new artifacts found moves delivers life
  | declined action id issued declines => exact lifecycle_declined i store action id declines life
  | registered row new unread apart =>
      refine ⟨⟨life.filed.packages, ?_⟩, life.order, life.covered, life.distinct, life.stored,
        life.kept, life.replayed, life.faithful⟩
      intro n found at_n
      rcases put_cases _ _ _ n found at_n with ⟨rfl, rfl⟩ | ⟨_, old⟩
      · exact ⟨rfl, Nat.lt_succ_self _⟩
      · obtain ⟨named, less⟩ := life.filed.consumers n found old
        exact ⟨named, show n < row.id + 1 by omega⟩
  | advanced id consumer row checkpointId found follows moved named =>
      refine ⟨⟨life.filed.packages, ?_⟩, life.order, life.covered, life.distinct, life.stored,
        life.kept, life.replayed, life.faithful⟩
      intro n other at_n
      rcases put_cases _ _ _ n other at_n with ⟨rfl, rfl⟩ | ⟨_, old⟩
      · rw [named.1]
        exact life.filed.consumers _ consumer found
      · exact life.filed.consumers n other old

theorem evolves_effect (request : AuditQuery) (after : AuditStore κ)
    (effect : Effect i request store after) (filed : Filed store) (id : Nat) (row : AuditPackage)
    (found : store.packages id = some row) :
    ∃ later, after.packages id = some later ∧ Evolves row later := by
  cases effect with
  | created fresh new _ apart =>
      have different : id ≠ fresh.id := by
        rintro rfl
        rw [unfiled_new store filed fresh.id new] at found
        cases found
      exact ⟨row, by simp [AuditStore.put, Function.update_of_ne different, found], evolves_refl row⟩
  | moved action n old new artifacts issued at_n moves delivers =>
      by_cases same : id = n
      · subst id
        rw [found] at at_n
        cases at_n
        exact ⟨new, put_new _ n new, moves_evolve action row new moves⟩
      · exact ⟨row, by simp [AuditStore.put, Function.update_of_ne same, found], evolves_refl row⟩
  | declined action n issued declines => exact ⟨row, found, evolves_refl row⟩
  | registered consumer new unread apart => exact ⟨row, found, evolves_refl row⟩
  | advanced n consumer moved checkpointId at_n follows is named => exact ⟨row, found, evolves_refl row⟩

theorem evolves_effects (request : AuditQuery) (after : AuditStore κ)
    (effects : Effects i request store after) (life : Lifecycle store) (id : Nat) (row : AuditPackage)
    (found : store.packages id = some row) :
    Lifecycle after ∧ ∃ later, after.packages id = some later ∧ Evolves row later := by
  induction effects with
  | refl => exact ⟨life, row, found, evolves_refl row⟩
  | tail _ effect ih =>
      obtain ⟨kept, mid, at_mid, early⟩ := ih
      obtain ⟨later, at_later, late⟩ := evolves_effect i _ request _ effect kept.filed id mid at_mid
      exact ⟨lifecycle_effect i _ request _ effect kept, later, at_later,
        evolves_trans row mid later early late⟩

theorem lifecycle_empty (ledger : Ledger) : Lifecycle (AuditStore.empty κ ledger) := by
  refine ⟨⟨?_, ?_⟩, ?_, ?_, ?_, ?_, ?_, rfl, throughout_nil _⟩
  · intro id row found
    cases found
  · intro id row found
    cases found
  · intro id row found
    cases found
  · intro id row found
    cases found
  · intro a b left right found
    cases found
  · intro packageId artifact found
    cases found
  · intro id row found
    cases found

end

end CalibrationLedger
