import CalibrationLedger.Audit.Lifecycle

set_option autoImplicit false

-- Workers that claim in names of their own: who holds the lease of a row holds
-- the last claim of its package.
namespace CalibrationLedger

open JsonText Digest Interleaving Histories

section

variable {κ : Type}

def Entry.claims (id : Nat) (entry : Entry κ) : Bool :=
  match entry.action with
  | .claim _ _ => entry.id = id
  | _ => false

def claimCount (journal : List (Entry κ)) (id : Nat) : Nat := (journal.filter (Entry.claims id)).length

def lastClaim (journal : List (Entry κ)) (id : Nat) : Option (Entry κ) := newest (Entry.claims id) journal

-- No claim of the package succeeded after the one that gave i this object.
def HoldsNewestClaim (journal : List (Entry κ)) (i : κ) (claimed : AuditPackage) : Prop :=
  ∃ claim, lastClaim journal claimed.id = some claim ∧ claim.caller = i ∧ claim.after = some claimed

-- names gives the worker id a session claims with.
variable (names : κ → Option String)

-- What a build knows of the claim it was given.
structure Held (i : κ) (claimed : AuditPackage) (store : AuditStore κ) : Prop where
  named : ∃ owner, names i = some owner ∧ claimed.leaseOwner = some owner
  current : ∀ row, store.packages claimed.id = some row → row.leaseOwner = claimed.leaseOwner →
    HoldsNewestClaim store.journal i claimed

structure Fence (store : AuditStore κ) : Prop where
  counted : ∀ id row, store.packages id = some row → row.attemptCount = claimCount store.journal id
  absent : ∀ id, store.packages id = none → claimCount store.journal id = 0
  holder : ∀ id row owner, store.packages id = some row → row.leaseOwner = some owner →
    ∃ claim claimed, lastClaim store.journal id = some claim ∧ claim.after = some claimed ∧
      claimed.leaseOwner = some owner ∧ names claim.caller = some owner
  exact : Throughout (fun earlier entry => ∀ exit claimed returned old,
    entry.action = .terminal exit claimed returned → entry.before = some old → old.leaseOwner ≠ none →
      entry.id = claimed.id ∧
      (old.leaseOwner = claimed.leaseOwner ↔ HoldsNewestClaim earlier entry.caller claimed)) store.journal

def LeasePermits (i : κ) (request : AuditQuery) (store : AuditStore κ) : Prop :=
  match request with
  | .claimSkipLocked workerId _ _ => names i = some workerId
  | .claimById _ workerId _ _ => names i = some workerId
  | .finalWrite claimed _ => Held names i claimed store
  | .finishCancelled claimed => Held names i claimed store
  | .failOrCancel claimed _ _ => Held names i claimed store
  | _ => True

theorem last_claim_snoc (journal : List (Entry κ)) (entry : Entry κ) (id : Nat) :
    lastClaim (journal ++ [entry]) id = if entry.claims id then some entry else lastClaim journal id :=
  newest_snoc _ journal entry

theorem claim_count_snoc (journal : List (Entry κ)) (entry : Entry κ) (id : Nat) :
    claimCount (journal ++ [entry]) id = claimCount journal id + if entry.claims id then 1 else 0 := by
  rw [claimCount, claimCount, List.filter_append, List.length_append, List.filter_singleton]
  cases entry.claims id <;> rfl

theorem moves_lease (action : Action) (old new : AuditPackage) (moves : Moves action old new) :
    (∃ workerId moment expires, action = .claim workerId moment ∧ new = old.claim workerId moment expires) ∨
      (∀ workerId moment, action ≠ .claim workerId moment) ∧ new.attemptCount = old.attemptCount ∧
        (new.leaseOwner = none ∨ new.leaseOwner = old.leaseOwner) := by
  cases moves with
  | claim old workerId moment expires eligible => exact .inl ⟨workerId, moment, expires, rfl, rfl⟩
  | settle old moment due => exact .inr ⟨by simp, rfl, .inl rfl⟩
  | retry old now failed => exact .inr ⟨by simp, rfl, .inl rfl⟩
  | withdraw old now pending => exact .inr ⟨by simp, rfl, .inr rfl⟩
  | requestCancel old now building => exact .inr ⟨by simp, rfl, .inr rfl⟩
  | confirm exit claimed old now asked owned => exact .inr ⟨by simp, rfl, .inl rfl⟩
  | complete claimed old archive now building owned => exact .inr ⟨by simp, rfl, .inl rfl⟩
  | fail claimed old code reason now building owned => exact .inr ⟨by simp, rfl, .inl rfl⟩

theorem leaves_row_no_claim (action : Action) (found : Option AuditPackage)
    (declines : LeavesRow action found) (workerId : String) (moment : Instant) :
    action ≠ .claim workerId moment := by cases declines <;> simp

theorem claims_other (i : κ) (action : Action) (id n : Nat) (before after : Option AuditPackage)
    (other : ∀ workerId moment, action ≠ .claim workerId moment) :
    Entry.claims n ⟨i, action, id, before, after⟩ = false := by
  cases action with
  | claim workerId moment => exact absurd rfl (other workerId moment)
  | _ => rfl

variable (i : κ) (request : AuditQuery) (store : AuditStore κ)

-- What the code owes for a terminal transaction makes ownership and being the last
-- claim the same thing.
theorem terminal_exact (action : Action) (id : Nat) (issued : Issues request action id)
    (permits : LeasePermits names i request store) (fence : Fence names store)
    (found : Option AuditPackage) (at_id : store.packages id = found) (exit : Exit)
    (claimed : AuditPackage) (returned : BuildResult) (old : AuditPackage)
    (is : action = .terminal exit claimed returned) (before : found = some old)
    (leased : old.leaseOwner ≠ none) :
    id = claimed.id ∧ (old.leaseOwner = claimed.leaseOwner ↔ HoldsNewestClaim store.journal i claimed) := by
  subst is
  have held : Held names i claimed store ∧ id = claimed.id := by
    cases request <;> first | exact False.elim issued | skip
    · obtain ⟨_, rfl, named⟩ := issued
      exact ⟨permits, named⟩
    · obtain ⟨_, rfl, named⟩ := issued
      exact ⟨permits, named⟩
    · obtain ⟨_, rfl, named⟩ := issued
      exact ⟨permits, named⟩
  obtain ⟨held, rfl⟩ := held
  have at_claimed : store.packages claimed.id = some old := at_id.trans before
  refine ⟨rfl, held.current old at_claimed, fun current => ?_⟩
  obtain ⟨owner, owned⟩ := Option.ne_none_iff_exists'.mp leased
  obtain ⟨claim, taken, last, after, takenOwner, _⟩ := fence.holder claimed.id old owner at_claimed owned
  obtain ⟨own, lastOwn, _, given⟩ := current
  rw [lastOwn] at last
  cases last
  rw [given] at after
  cases after
  rw [owned, takenOwner]

theorem fence_unclaimed (entry : Entry κ) (after : AuditStore κ)
    (isJournal : after.journal = store.journal ++ [entry]) (unclaimed : ∀ n, entry.claims n = false)
    (kept : ∀ n row, after.packages n = some row →
      (store.packages n = none ∧ row.attemptCount = 0 ∧ row.leaseOwner = none) ∨
      ∃ old, store.packages n = some old ∧ row.attemptCount = old.attemptCount ∧
        (row.leaseOwner = none ∨ row.leaseOwner = old.leaseOwner))
    (stays : ∀ n, after.packages n = none → store.packages n = none)
    (ends : ∀ exit claimed returned old, entry.action = .terminal exit claimed returned →
      entry.before = some old →
      old.leaseOwner ≠ none →
        entry.id = claimed.id ∧
        (old.leaseOwner = claimed.leaseOwner ↔ HoldsNewestClaim store.journal entry.caller claimed))
    (fence : Fence names store) : Fence names after := by
  have count : ∀ n, claimCount after.journal n = claimCount store.journal n := by
    intro n
    rw [isJournal, claim_count_snoc, unclaimed n]
    rfl
  refine ⟨fun n row found => ?_, fun n none => ?_, fun n row owner found leased => ?_, ?_⟩
  · rw [count]
    rcases kept n row found with ⟨new, zero, _⟩ | ⟨old, at_n, same, _⟩
    · rw [zero, fence.absent n new]
    · rw [same, fence.counted n old at_n]
  · rw [count]
    exact fence.absent n (stays n none)
  · rw [isJournal, last_claim_snoc, unclaimed n]
    rcases kept n row found with ⟨_, _, free⟩ | ⟨old, at_n, _, free | same⟩
    · rw [free] at leased
      cases leased
    · rw [free] at leased
      cases leased
    · rw [same] at leased
      exact fence.holder n old owner at_n leased
  · rw [isJournal]
    exact (throughout_snoc _ _ _).mpr ⟨fence.exact, ends⟩

theorem fence_claimed (workerId : String) (moment expires : Instant) (id : Nat) (old : AuditPackage)
    (found : store.packages id = some old) (named : names i = some workerId) (fence : Fence names store)
    (after : AuditStore κ)
    (isPackages : after.packages =
      Function.update store.packages id (some (old.claim workerId moment expires)))
    (isJournal : after.journal = store.journal ++
      [⟨i, .claim workerId moment, id, some old, some (old.claim workerId moment expires)⟩]) :
    Fence names after := by
  have chooses : ∀ n,
    Entry.claims n (⟨i, .claim workerId moment, id, some old,
      some (old.claim workerId moment expires)⟩ : Entry κ) =
      decide (id = n) := fun _ => rfl
  refine ⟨fun n row at_n => ?_, fun n none => ?_, fun n row owner at_n leased => ?_, ?_⟩
  · rw [isPackages] at at_n
    rw [isJournal, claim_count_snoc, chooses]
    rcases put_cases _ _ _ n row at_n with ⟨rfl, rfl⟩ | ⟨other, still⟩
    · simp [AuditPackage.claim, fence.counted _ old found]
    · simp [other.symm, fence.counted n row still]
  · rw [isPackages] at none
    rw [isJournal, claim_count_snoc, chooses]
    by_cases same : n = id
    · subst n
      simp at none
    · rw [Function.update_of_ne same] at none
      simp [Ne.symm same, fence.absent n none]
  · rw [isPackages] at at_n
    rw [isJournal, last_claim_snoc, chooses]
    rcases put_cases _ _ _ n row at_n with ⟨rfl, rfl⟩ | ⟨other, still⟩
    · have owns : owner = workerId := by simpa [AuditPackage.claim] using leased.symm
      subst owner
      exact ⟨⟨i, .claim workerId moment, n, some old, some (old.claim workerId moment expires)⟩,
        _, by simp, rfl, rfl, named⟩
    · rw [if_neg (by simp [other.symm])]
      exact fence.holder n row owner still leased
  · rw [isJournal]
    refine (throughout_snoc _ _ _).mpr ⟨fence.exact, fun exit claimed returned old is => ?_⟩
    cases is

theorem fence_effect (after : AuditStore κ) (effect : Effect i request store after) (life : Lifecycle store)
    (permits : LeasePermits names i request store) (fence : Fence names store) : Fence names after := by
  cases effect with
  | created row new fresh apart =>
      have absent := unfiled_new store life.filed row.id new
      refine fence_unclaimed names store ⟨i, .create, row.id, none, some row⟩ _ rfl (fun _ => rfl)
        (fun n found at_n => ?_)
        (fun n none => ?_) (fun _ _ _ _ is => by cases is) fence
      · rcases put_cases _ _ _ n found at_n with ⟨rfl, rfl⟩ | ⟨_, still⟩
        · have free : found.leaseOwner = none := by simpa [fresh.pending] using fresh.order.owned
          exact .inl ⟨absent, fresh.uncounted, free⟩
        · exact .inr ⟨found, still, rfl, .inr rfl⟩
      · by_cases same : n = row.id
        · rw [same, absent]
        · simpa [AuditStore.put, Function.update_of_ne same] using none
  | moved action id old new artifacts issued found moves delivers =>
      rcases moves_lease action old new moves with ⟨workerId, moment, expires, rfl, rfl⟩ | ⟨unclaimed,
        attempts, lease⟩
      · have named : names i = some workerId := by
          cases request <;> first | exact False.elim issued | skip
          · rw [show workerId = _ from issued]
            exact permits
          · rw [show workerId = _ from issued]
            exact permits
        exact fence_claimed names i store workerId moment expires id old found named fence _ rfl rfl
      · refine fence_unclaimed names store ⟨i, action, id, some old, some new⟩ _ rfl
          (fun n => claims_other i action id n _ _ unclaimed) (fun n row at_n => ?_) (fun n none => ?_)
          (fun exit claimed returned before is same leased =>
            terminal_exact names i request store action id issued permits fence
              (some old) found exit claimed returned before is same leased)
          fence
        · rcases put_cases _ _ _ n row at_n with ⟨rfl, rfl⟩ | ⟨_, still⟩
          · exact .inr ⟨old, found, attempts, lease⟩
          · exact .inr ⟨row, still, rfl, .inr rfl⟩
        · by_cases same : n = id
          · subst n
            simp [AuditStore.put] at none
          · simpa [AuditStore.put, Function.update_of_ne same] using none
  | declined action id issued declines =>
      exact fence_unclaimed names store ⟨i, action, id, store.packages id, store.packages id⟩ _ rfl
        (fun n => claims_other i action id n _ _ (leaves_row_no_claim action _ declines))
        (fun n row at_n => .inr ⟨row, at_n, rfl, .inr rfl⟩) (fun _ none => none)
        (fun exit claimed returned before is same leased =>
          terminal_exact names i request store action id issued permits fence _ rfl exit claimed
            returned before is same leased)
        fence
  | registered row new unread apart => exact ⟨fence.counted, fence.absent, fence.holder, fence.exact⟩
  | advanced id consumer row checkpointId found follows moved named =>
      exact ⟨fence.counted, fence.absent, fence.holder, fence.exact⟩

theorem held_unclaimed (claimed : AuditPackage) (entry : Entry κ) (after : AuditStore κ)
    (isJournal : after.journal = store.journal ++ [entry]) (unclaimed : ∀ n, entry.claims n = false)
    (kept : ∀ row, after.packages claimed.id = some row → row.leaseOwner = none ∨
      ∃ old, store.packages claimed.id = some old ∧ row.leaseOwner = old.leaseOwner)
    (held : Held names i claimed store) : Held names i claimed after := by
  refine ⟨held.named, fun row found owned => ?_⟩
  obtain ⟨owner, _, isOwner⟩ := held.named
  rcases kept row found with free | ⟨old, at_claimed, same⟩
  · rw [free, isOwner] at owned
    cases owned
  · obtain ⟨claim, last, own, given⟩ := held.current old at_claimed (same.symm.trans owned)
    refine ⟨claim, ?_, own, given⟩
    rw [isJournal, last_claim_snoc, unclaimed]
    exact last

theorem held_effect (claimed : AuditPackage) (after : AuditStore κ)
    (effect : Effect i request store after)
    (unclaiming : ∀ workerId moment id, ¬Issues request (.claim workerId moment) id)
    (held : Held names i claimed store) :
    Held names i claimed after := by
  cases effect with
  | created row new fresh apart =>
      refine held_unclaimed names i store claimed
        ⟨i, .create, row.id, none, some row⟩ _ rfl (fun _ => rfl) (fun found at_id => ?_) held
      rcases put_cases _ _ _ _ found at_id with ⟨_, rfl⟩ | ⟨_, still⟩
      · exact .inl (by simpa [fresh.pending] using fresh.order.owned)
      · exact .inr ⟨found, still, rfl⟩
  | moved action id old new artifacts issued found moves delivers =>
      rcases moves_lease action old new moves with ⟨workerId, moment, expires, rfl,
        rfl⟩ | ⟨unclaimed, _, lease⟩
      · exact absurd issued (unclaiming workerId moment id)
      · refine held_unclaimed names i store claimed ⟨i, action, id, some old, some new⟩ _ rfl
          (fun n => claims_other i action id n _ _ unclaimed) (fun row at_id => ?_) held
        rcases put_cases _ _ _ _ row at_id with ⟨rfl, rfl⟩ | ⟨_, still⟩
        · exact lease.imp id fun same => ⟨old, found, same⟩
        · exact .inr ⟨row, still, rfl⟩
  | declined action id issued declines =>
      exact held_unclaimed names i store claimed ⟨i, action, id, store.packages id, store.packages id⟩ _ rfl
        (fun n => claims_other i action id n _ _ (leaves_row_no_claim action _ declines))
        (fun row at_id => .inr ⟨row, at_id, rfl⟩) held
  | registered row new unread apart => exact ⟨held.named, held.current⟩
  | advanced id consumer row checkpointId found follows moved named => exact ⟨held.named, held.current⟩

theorem lease_permits_effect (after : AuditStore κ) (effect : Effect i request store after)
    (permits : LeasePermits names i request store) :
    LeasePermits names i request after := by
  cases request with
  | claimSkipLocked workerId moment leaseDuration => exact permits
  | claimById id workerId moment expires => exact permits
  | finalWrite claimed archive =>
      exact held_effect names i _ store claimed after effect (fun _ _ _ => id) permits
  | finishCancelled claimed =>
      exact held_effect names i _ store claimed after effect (fun _ _ _ => id) permits
  | failOrCancel claimed code reason =>
      exact held_effect names i _ store claimed after effect (fun _ _ _ => id) permits
  | _ => trivial

end

end CalibrationLedger
