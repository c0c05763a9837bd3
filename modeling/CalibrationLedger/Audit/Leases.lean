import CalibrationLedger.Audit.Deployment

set_option autoImplicit false

-- What a lease is worth: who gets one, and what a build does with one it has lost.
namespace CalibrationLedger

open JsonText Digest Interleaving Histories

section

variable {ι κ : Type} [DecidableEq ι] [Fintype ι] [DecidableEq κ] (names : κ → Option String)
variable (unique : ∀ i j owner, names i = some owner → names j = some owner → i = j)
variable (env : Exporting) (calls : ι → Call) (jobs : κ → AuditCall)

include unique

theorem fenced_deployed (fences : ∀ i, (jobs i).Fenced names i) (deployment : Deployment ι κ)
    (reached : (deploy env calls jobs).Reaches deployment) :
    Deployed True names unique env calls jobs deployment :=
  (deployed_run True names unique env calls jobs _ _
    (deploy_deployed True names unique env calls jobs (fun _ => fences)) reached).1

end

section

variable {κ : Type} (entry : Entry κ)

theorem claim_entry (lawful : LawfulEntry entry) (workerId : String) (moment : Instant)
    (is : entry.action = .claim workerId moment) :
    ∃ old, entry.before = some old ∧ old.eligible moment = true := by
  cases lawful with
  | created caller row pending uncounted => cases is
  | declined caller action id found declines =>
      exact absurd is (leaves_row_no_claim action found declines workerId moment)
  | moved caller action id old new moves =>
      cases is
      cases moves with
      | claim old workerId moment expires eligible => exact ⟨old, rfl, eligible⟩

theorem eligible_lease (row : AuditPackage) (moment : Instant) (eligible : row.eligible moment = true) :
    row.status = .pending ∨
      row.status = .building ∧ ∃ expires, row.leaseExpiresAt = some expires ∧
      expires.micros < moment.micros := by
  refine (eligible_status row moment eligible).imp id fun ⟨building, late⟩ => ⟨building, ?_⟩
  rw [AuditPackage.expired] at late
  split at late
  · rename_i expires leased
    exact ⟨expires, leased, of_decide_eq_true late⟩
  · cases late

theorem terminal_owner (lawful : LawfulEntry entry) (exit : Exit) (claimed old new : AuditPackage)
    (returned : BuildResult) (is : entry.action = .terminal exit claimed returned)
    (before : entry.before = some old) (after : entry.after = some new)
    (differs : old.status ≠ new.status) (ends : new.status = .ready ∨ new.status = .failed) :
    old.status = .building ∧ old.leaseOwner = claimed.leaseOwner := by
  cases lawful with
  | created caller row pending uncounted => cases is
  | declined caller action id found declines =>
      cases before
      cases after
      exact absurd rfl differs
  | moved caller action id old new moves =>
      cases before
      cases after
      cases is
      cases moves with
      | confirm exit claimed old now asked owned => rcases ends with ready | failed <;> contradiction
      | complete claimed old archive now building owned => exact ⟨building, owned⟩
      | fail claimed old code reason now building owned => exact ⟨building, owned⟩

theorem leaves_cancelling (lawful : LawfulEntry entry) (old new : AuditPackage)
    (before : entry.before = some old) (after : entry.after = some new)
    (asked : old.status = .cancelling) (leaves : new.status ≠ .cancelling) :
    new.status = .cancelled ∧
      ((∃ moment expires, entry.action = .settle moment ∧ old.leaseExpiresAt = some expires ∧
        expires.micros < moment.micros) ∨
        ∃ exit claimed returned, entry.action = .terminal exit claimed returned) := by
  cases lawful with
  | created caller row pending uncounted => cases before
  | declined caller action id found declines =>
      cases before
      cases after
      exact absurd asked leaves
  | moved caller action id old new moves =>
      cases before
      cases after
      cases moves with
      | claim old workerId moment expires eligible =>
          rcases eligible_status old moment eligible with pending | ⟨building, _⟩
          · simp [asked] at pending
          · simp [asked] at building
      | settle old moment due =>
          refine ⟨rfl, .inl ?_⟩
          rcases due with done | stale
          · simp [asked] at done
          · have late := (stale_status old moment stale).2
            rw [AuditPackage.expired] at late
            split at late
            · rename_i expires leased
              exact ⟨moment, expires, rfl, leased, of_decide_eq_true late⟩
            · cases late
      | retry old now failed => simp [asked] at failed
      | withdraw old now pending => simp [asked] at pending
      | requestCancel old now building => simp [asked] at building
      | confirm exit claimed old now asked owned => exact ⟨rfl, .inr ⟨exit, claimed, _, rfl⟩⟩
      | complete claimed old archive now building owned => simp [asked] at building
      | fail claimed old code reason now building owned => simp [asked] at building

end

section

variable {ι κ : Type} [DecidableEq ι] [Fintype ι] [DecidableEq κ] (names : κ → Option String)
variable (unique : ∀ i j owner, names i = some owner → names j = some owner → i = j)
variable (env : Exporting) (calls : ι → Call) (jobs : κ → AuditCall) (fences : ∀ i, (jobs i).Fenced names i)

include unique fences

theorem leases_are_fenced (now : Deployment ι κ) (reached : (deploy env calls jobs).Reaches now) :
    now.audit.store.packages = rowsAfter now.audit.store.journal ∧
    (∀ earlier entry later, now.audit.store.journal = earlier ++ entry :: later →
      entry.before = rowsAfter earlier entry.id ∧
      ∀ workerId moment, entry.action = .claim workerId moment → ∃ old, entry.before = some old ∧
        (old.status = .pending ∨
          old.status = .building ∧ ∃ expires, old.leaseExpiresAt = some expires ∧
          expires.micros < moment.micros)) ∧
    (∀ i postgresql workerId leaseDuration moment found,
      jobs i = .claim postgresql workerId leaseDuration moment →
      finished (auditing κ) now.audit i = some (.ok (.claimed found)) → OnlyClaimed i found now.audit.store) ∧
    (∀ id row, now.audit.store.packages id = some row →
        row.attemptCount = claimCount now.audit.store.journal id) ∧
    ∀ earlier entry later exit claimed returned old new, now.audit.store.journal = earlier ++ entry :: later →
      entry.action = .terminal exit claimed returned → entry.before = some old → entry.after = some new →
      old.status ≠ new.status → (new.status = .ready ∨ new.status = .failed) →
      ∃ claim, lastClaim earlier entry.id = some claim ∧ claim.caller = entry.caller ∧
      claim.after = some claimed := by
  have deployed := fenced_deployed names unique env calls jobs fences now reached
  have life := deployed.disciplined.inv.life
  have fence := deployed.disciplined.inv.fence trivial
  refine ⟨life.replayed, fun earlier entry later split => ?_,
    fun i postgresql workerId leaseDuration moment found asks ended => ?_,
    fence.counted, fun earlier entry later exit claimed returned old new split is before after
      differs ends => ?_⟩
  · obtain ⟨faithful, lawful, _⟩ := life.faithful earlier entry later split
    refine ⟨faithful, fun workerId moment is => ?_⟩
    obtain ⟨old, before, eligible⟩ := claim_entry entry lawful workerId moment is
    exact ⟨old, before, eligible_lease old moment eligible⟩
  · have concluded := deployed_concluded True names unique env calls jobs now deployed i _ ended
    rw [asks] at concluded
    exact concluded
  · obtain ⟨_, lawful, order⟩ := life.faithful earlier entry later split
    obtain ⟨building, owned⟩ :=
      terminal_owner entry lawful exit claimed old new returned is before after differs ends
    have leased : old.leaseOwner ≠ none := by
      have some := (order old before).owned
      rw [building] at some
      exact Option.isSome_iff_ne_none.mp (by simpa using some)
    obtain ⟨same, exact⟩ := fence.exact earlier entry later split exit claimed returned old is before leased
    rw [same]
    exact exact.mp owned

theorem cancellations_are_confirmed (now : Deployment ι κ) (reached : (deploy env calls jobs).Reaches now)
    (earlier : List (Entry κ)) (entry : Entry κ) (later : List (Entry κ)) (old new : AuditPackage)
    (split : now.audit.store.journal = earlier ++ entry :: later) (before : entry.before = some old)
    (after : entry.after = some new) (asked : old.status = .cancelling) (leaves : new.status ≠ .cancelling) :
    new.status = .cancelled ∧
      ((∃ moment expires, entry.action = .settle moment ∧ old.leaseExpiresAt = some expires ∧
        expires.micros < moment.micros) ∨
        ∃ exit claimed returned, entry.action = .terminal exit claimed returned ∧
          (old.leaseOwner = claimed.leaseOwner ↔
            ∃ claim, lastClaim earlier entry.id = some claim ∧ claim.caller = entry.caller ∧
            claim.after = some claimed)) := by
  have deployed := fenced_deployed names unique env calls jobs fences now reached
  obtain ⟨_, lawful, order⟩ := deployed.disciplined.inv.life.faithful earlier entry later split
  have leased : old.leaseOwner ≠ none := by
    have some := (order old before).owned
    rw [asked] at some
    exact Option.isSome_iff_ne_none.mp (by simpa using some)
  obtain ⟨done, ways⟩ := leaves_cancelling entry lawful old new before after asked leaves
  refine ⟨done, ways.imp id fun ⟨exit, claimed, returned, is⟩ => ⟨exit, claimed, returned, is, ?_⟩⟩
  obtain ⟨same, exact⟩ :=
    (deployed.disciplined.inv.fence trivial).exact earlier entry later split exit claimed returned old
      is before leased
  rw [same]
  exact exact

end

-- One package, two workers in names of their own, and a cancellation. Neither worker
-- has the boundary's key.
def sampleNames : Fin 4 → Option String
  | 1 => some "a"
  | 2 => some "b"
  | _ => none

def sampleContest : Fin 4 → AuditCall
  | 0 => .create "scale-7" "export-1" none
  | 1 => .run ⟨true, "a", 1, []⟩ 1
  | 2 => .run ⟨true, "b", 1, []⟩ 1
  | 3 => .cancel (sampleUuid 9)

theorem sample_names_unique (i j : Fin 4) (owner : String) (left : sampleNames i = some owner)
    (right : sampleNames j = some owner) : i = j := by
  have apart : ∀ i j, sampleNames i ≠ none → sampleNames i = sampleNames j → i = j := by decide
  exact apart i j (by simp [left]) (left.trans right.symm)

theorem sample_contest_fenced : ∀ i, (sampleContest i).Fenced sampleNames i
  | 0 => trivial
  | 1 => rfl
  | 2 => rfl
  | 3 => trivial

theorem sample_lease_fenced : ∃ (now : Deployment Bool (Fin 4)) (row : AuditPackage),
    (deploy sampleExporting sampleCalls sampleContest).Reaches now ∧ now.audit.store.packages 1 = some row ∧
    row.status = .failed ∧ row.attemptCount = 2 ∧ claimCount now.audit.store.journal 1 = 2 := by
  have ran : ∃ final ∈
    runSchedule (auditing (Fin 4)) (List.replicate 6 0 ++ List.replicate 4 1 ++ List.replicate 11 2)
      (sampleSessions sampleContest) sampleChoices,
      ∃ row ∈ final.1.store.packages 1, row.status = .failed ∧ row.attemptCount = 2 := by decide +kernel
  obtain ⟨⟨final, rest⟩, run, row, found, failed, attempts⟩ := ran
  obtain ⟨ledger, reached, _⟩ := sample_deployment sampleContest _ final rest run
  obtain ⟨_, _, _, counted, _⟩ :=
    leases_are_fenced sampleNames sample_names_unique sampleExporting sampleCalls sampleContest
    sample_contest_fenced _ reached
  exact ⟨_, row, reached, found, failed, attempts, (counted 1 row found).symm.trans attempts⟩

-- What a build_once call was given.
def Entry.claimed {κ : Type} (entry : Entry κ) : Option AuditPackage :=
  match entry.action with
  | .terminal _ claimed _ => some claimed
  | _ => none

theorem entry_claimed {κ : Type} (entry : Entry κ) (claimed : AuditPackage)
    (given : entry.claimed = some claimed) :
    ∃ exit returned, entry.action = .terminal exit claimed returned := by
  rw [Entry.claimed] at given
  split at given
  · rename_i exit found returned is
    cases given
    exact ⟨exit, returned, is⟩
  · cases given

-- A worker sees its own cancellation and confirms it.
theorem sample_cancellation_confirmed :
    ∃ (now : Deployment Bool (Fin 4)) (earlier : List (Entry (Fin 4))) (entry : Entry (Fin 4))
    (claimed old new : AuditPackage), (deploy sampleExporting sampleCalls sampleContest).Reaches now ∧
      now.audit.store.journal = earlier ++ [entry] ∧ entry.claimed = some claimed ∧ entry.before = some old ∧
      old.status = .cancelling ∧ entry.after = some new ∧ new.status = .cancelled ∧
      old.leaseOwner = claimed.leaseOwner ∧
      ∃ claim, lastClaim earlier entry.id = some claim ∧ claim.after = some claimed := by
  have ran : ∃ final ∈
    runSchedule (auditing (Fin 4)) (List.replicate 6 0 ++ List.replicate 4 1 ++ [3] ++ List.replicate 3 1)
      (sampleSessions sampleContest) sampleChoices,
      ∃ entry ∈ final.1.store.journal.getLast?, ∃ claimed ∈ entry.claimed, ∃ old ∈ entry.before,
      ∃ new ∈ entry.after,
        old.status = .cancelling ∧ new.status ≠ .cancelling ∧
        old.leaseOwner = claimed.leaseOwner := by decide +kernel
  obtain ⟨⟨final, rest⟩, run, entry, last, claimed, given, old, before, new, after, asked, leaves,
    owned⟩ := ran
  obtain ⟨ledger, reached, _⟩ := sample_deployment sampleContest _ final rest run
  have split := (List.dropLast_append_getLast? entry last).symm
  obtain ⟨done, settled | ⟨exit, named, returned, is, exact⟩⟩ :=
    cancellations_are_confirmed sampleNames sample_names_unique
    sampleExporting sampleCalls sampleContest sample_contest_fenced _ reached _ entry
      [] old new split before after asked leaves
  · obtain ⟨moment, expires, is, _⟩ := settled
    obtain ⟨exit, returned, ends⟩ := entry_claimed entry claimed given
    rw [ends] at is
    cases is
  · obtain ⟨_, _, ends⟩ := entry_claimed entry claimed given
    rw [ends] at is
    cases is
    obtain ⟨claim, newest, _, left⟩ := exact.mp owned
    exact ⟨_, _, entry, claimed, old, new, reached, split, given, before, asked, after, done, owned,
      claim, newest, left⟩

-- The first worker reads its package, is overtaken by the second one, and confirms
-- the cancellation of the second one's build.
theorem lost_worker_confirms : (∀ i, (sampleContest i).Fenced sampleNames i) ∧
    ∃ now : Deployment Bool (Fin 4), (deploy sampleExporting sampleCalls sampleContest).Reaches now ∧
      ∃ entry ∈ now.audit.store.journal, ∃ claimed ∈ entry.claimed, ∃ old ∈ entry.before, ∃ new ∈ entry.after,
        old.status = .cancelling ∧ new.status = .cancelled ∧ claimed.leaseOwner = some "a" ∧
        old.leaseOwner = some "b" := by
  have ran : ∃ final ∈ runSchedule (auditing (Fin 4))
      (List.replicate 6 0 ++ List.replicate 4 1 ++ List.replicate 4 2 ++ List.replicate 5 1 ++ [3, 1])
      (sampleSessions sampleContest) sampleChoices,
      ∃ entry ∈ final.1.store.journal, ∃ claimed ∈ entry.claimed, ∃ old ∈ entry.before, ∃ new ∈ entry.after,
        old.status = .cancelling ∧ new.status = .cancelled ∧ claimed.leaseOwner = some "a" ∧
        old.leaseOwner = some "b" := by
    decide +kernel
  obtain ⟨⟨final, rest⟩, run, found⟩ := ran
  obtain ⟨ledger, reached, _⟩ := sample_deployment sampleContest _ final rest run
  exact ⟨sample_contest_fenced, _, reached, found⟩

end CalibrationLedger
