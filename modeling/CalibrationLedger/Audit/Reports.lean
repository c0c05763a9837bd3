import CalibrationLedger.Audit.Leases

set_option autoImplicit false

-- What build_once returns, against what its call did.
namespace CalibrationLedger

open JsonText Digest Interleaving Histories

section

variable {κ : Type}

-- What a call returned.
def Entry.returned (entry : Entry κ) : Option BuildResult :=
  match entry.action with
  | .terminal _ _ returned => some returned
  | _ => none

def Entry.commits (entry : Entry κ) : Prop :=
  ∃ old archive now, entry.before = some old ∧ old.status ≠ .ready ∧
    entry.after = some (old.complete archive now)

def Entry.fails (entry : Entry κ) : Prop :=
  ∃ old code reason now, entry.before = some old ∧ old.status ≠ .failed ∧
    entry.after = some (old.fail code reason now)

def Entry.cancels (entry : Entry κ) : Prop :=
  ∃ old now, entry.before = some old ∧ old.status ≠ .cancelled ∧ entry.after = some (old.applyCancelled now)

def Entry.movesTo (status : PackageStatus) (entry : Entry κ) : Prop :=
  ∃ old new, entry.before = some old ∧ entry.after = some new ∧ old.status ≠ status ∧ new.status = status

-- The call returned what it did.
structure Truthful (entry : Entry κ) (returned : BuildResult) : Prop where
  ready : returned = .status .ready ↔ entry.commits
  failed : returned = .status .failed ↔ entry.fails
  cancelled : returned = .status .cancelled ↔ entry.cancels
  superseded : returned = .superseded ↔ ¬entry.commits ∧ ¬entry.fails ∧ ¬entry.cancels

instance (exit : Exit) (claimed old : AuditPackage) : Decidable (Lost exit claimed old) :=
  match exit with
  | .finalWrite => inferInstanceAs (Decidable (old.status ≠ .cancelling ∧ old.status ≠ .cancelled ∧
      (old.status ≠ .building ∨ old.leaseOwner ≠ claimed.leaseOwner)))
  | .finishCancelled => inferInstanceAs (Decidable (old.status ≠ .cancelled ∧
      ¬(old.status = .cancelling ∧ old.leaseOwner = claimed.leaseOwner)))
  | .failOrCancel => inferInstanceAs (Decidable (old.status ≠ .cancelling ∧
      (old.status ≠ .building ∨ old.leaseOwner ≠ claimed.leaseOwner)))

-- A terminal transaction that finds its claim lost.
def Entry.lost (entry : Entry κ) : Bool :=
  match entry.action, entry.before with
  | .terminal exit claimed _, some old => Lost exit claimed old
  | _, _ => false

theorem commits_moves (entry : Entry κ) (commits : entry.commits) : entry.movesTo .ready := by
  obtain ⟨old, archive, now, before, unready, after⟩ := commits
  exact ⟨old, _, before, after, unready, rfl⟩

theorem fails_moves (entry : Entry κ) (fails : entry.fails) : entry.movesTo .failed := by
  obtain ⟨old, code, reason, now, before, unfailed, after⟩ := fails
  exact ⟨old, _, before, after, unfailed, rfl⟩

theorem cancels_moves (entry : Entry κ) (cancels : entry.cancels) : entry.movesTo .cancelled := by
  obtain ⟨old, now, before, uncancelled, after⟩ := cancels
  exact ⟨old, _, before, after, uncancelled, rfl⟩

theorem moves_once (entry : Entry κ) (left right : PackageStatus) (first : entry.movesTo left)
    (second : entry.movesTo right) :
    left = right := by
  obtain ⟨_, new, _, after, _, rfl⟩ := first
  obtain ⟨_, other, _, same, _, rfl⟩ := second
  rw [after] at same
  cases same
  rfl

theorem unmoved (entry : Entry κ) (status : PackageStatus) (same : entry.before = entry.after) :
    ¬entry.movesTo status := by
  rintro ⟨old, new, before, after, differs, rfl⟩
  rw [before, after] at same
  cases same
  exact differs rfl

theorem committed_truthful (entry : Entry κ) (commits : entry.commits) : Truthful entry (.status .ready) := by
  have moves := commits_moves entry commits
  have fails : ¬entry.fails := fun fails => by cases moves_once entry _ _ moves (fails_moves entry fails)
  have cancels : ¬entry.cancels :=
    fun cancels => by cases moves_once entry _ _ moves (cancels_moves entry cancels)
  exact ⟨by simp [commits], by simp [fails], by simp [cancels], by simp [commits]⟩

theorem failed_truthful (entry : Entry κ) (fails : entry.fails) : Truthful entry (.status .failed) := by
  have moves := fails_moves entry fails
  have commits : ¬entry.commits :=
    fun commits => by cases moves_once entry _ _ moves (commits_moves entry commits)
  have cancels : ¬entry.cancels :=
    fun cancels => by cases moves_once entry _ _ moves (cancels_moves entry cancels)
  exact ⟨by simp [commits], by simp [fails], by simp [cancels], by simp [fails]⟩

theorem cancelled_truthful (entry : Entry κ) (cancels : entry.cancels) :
    Truthful entry (.status .cancelled) := by
  have moves := cancels_moves entry cancels
  have commits : ¬entry.commits :=
    fun commits => by cases moves_once entry _ _ moves (commits_moves entry commits)
  have fails : ¬entry.fails := fun fails => by cases moves_once entry _ _ moves (fails_moves entry fails)
  exact ⟨by simp [commits], by simp [fails], by simp [cancels], by simp [cancels]⟩

theorem idle_truthful (entry : Entry κ) (returned : BuildResult) (same : entry.before = entry.after) :
    Truthful entry returned ↔ returned = .superseded := by
  have commits : ¬entry.commits := fun commits => unmoved entry _ same (commits_moves entry commits)
  have fails : ¬entry.fails := fun fails => unmoved entry _ same (fails_moves entry fails)
  have cancels : ¬entry.cancels := fun cancels => unmoved entry _ same (cancels_moves entry cancels)
  refine ⟨fun truthful => truthful.superseded.mpr ⟨commits, fails, cancels⟩, ?_⟩
  rintro rfl
  exact ⟨by simp [commits], by simp [fails], by simp [cancels], by simp [commits, fails, cancels]⟩

theorem terminal_truthful (entry : Entry κ) (lawful : LawfulEntry entry) (exit : Exit)
    (claimed old : AuditPackage) (returned : BuildResult)
    (is : entry.action = .terminal exit claimed returned) (before : entry.before = some old) :
    Truthful entry returned ↔ ¬Lost exit claimed old := by
  cases lawful with
  | created caller row pending uncounted => cases is
  | declined caller action id found declines =>
      rw [idle_truthful _ _ rfl]
      cases is
      cases before
      cases declines with
      | superseded exit claimed old early done => cases exit <;> simp [Lost, done] at early ⊢
      | lost exit claimed old lost => simp [lost]
  | moved caller action id old new moves =>
      cases is
      cases before
      cases moves with
      | confirm exit claimed old now asked owned =>
          have cancels : Entry.cancels
              (⟨caller, .terminal exit claimed (.status .cancelled), id, some old,
                some (old.applyCancelled now)⟩ : Entry κ) :=
            ⟨old, now, rfl, by simp [asked], rfl⟩
          refine iff_of_true (cancelled_truthful _ cancels) ?_
          cases exit with
          | finalWrite => exact fun lost => lost.1 asked
          | finishCancelled => exact fun lost => lost.2 ⟨asked, owned rfl⟩
          | failOrCancel => exact fun lost => lost.1 asked
      | complete claimed old archive now building owned =>
          refine iff_of_true
            (committed_truthful _ ⟨old, archive, now, rfl, by simp [building], rfl⟩) fun lost => ?_
          exact lost.2.2.elim (fun other => other building) fun other => other owned
      | fail claimed old code reason now building owned =>
          refine iff_of_true
            (failed_truthful _ ⟨old, code, reason, now, rfl, by simp [building], rfl⟩) fun lost => ?_
          exact lost.2.elim (fun other => other building) fun other => other owned

theorem moves_by (entry : Entry κ) (lawful : LawfulEntry entry) (status : PackageStatus)
    (moves : entry.movesTo status) :
    (status = .ready ∨ status = .failed →
      ∃ exit claimed, entry.action = .terminal exit claimed (.status status)) ∧
      (status = .cancelled → (∃ exit claimed, entry.action = .terminal exit claimed (.status status)) ∨
        (∃ moment, entry.action = .settle moment) ∨ entry.action = .cancel) := by
  obtain ⟨old, new, before, after, differs, rfl⟩ := moves
  cases lawful with
  | created caller row pending uncounted => cases before
  | declined caller action id found declines =>
      cases before
      cases after
      exact absurd rfl differs
  | moved caller action id old new moves =>
      cases before
      cases after
      cases moves with
      | claim old workerId moment expires eligible => simp [AuditPackage.claim]
      | settle old moment due => simp [AuditPackage.applyCancelled]
      | retry old now failed => simp [AuditPackage.requeue]
      | withdraw old now pending => simp [AuditPackage.withdraw]
      | requestCancel old now building => simp [AuditPackage.requestCancel]
      | confirm exit claimed old now asked owned =>
          exact ⟨fun _ => ⟨exit, claimed, rfl⟩, fun _ => .inl ⟨exit, claimed, rfl⟩⟩
      | complete claimed old archive now building owned =>
          exact ⟨fun _ => ⟨_, claimed, rfl⟩, fun _ => .inl ⟨_, claimed, rfl⟩⟩
      | fail claimed old code reason now building owned =>
          exact ⟨fun _ => ⟨_, claimed, rfl⟩, fun _ => .inl ⟨_, claimed, rfl⟩⟩

end

section

variable {ι κ : Type} [DecidableEq ι] [Fintype ι] [DecidableEq κ] (env : Exporting) (calls : ι → Call)
  (jobs : κ → AuditCall)

theorem builds_report_what_they_did (now : Deployment ι κ) (reached : (deploy env calls jobs).Reaches now) :
    (∀ entry ∈ now.audit.store.journal, ∀ exit claimed returned,
      entry.action = .terminal exit claimed returned →
      entry.before ≠ none → (Truthful entry returned ↔ entry.lost = false)) ∧
    ((∀ entry ∈ now.audit.store.journal, entry.lost = false) →
      (∀ i claimed keyring, jobs i = .build claimed keyring →
        (∀ result, finished (auditing κ) now.audit i = some (.ok (.built result)) → ∃ entry,
          entriesOf now.audit.store.journal i = [entry] ∧ entry.id = claimed.id ∧
          entry.returned = some result ∧
            (entry.before ≠ none → Truthful entry result)) ∧
        ∀ error, finished (auditing κ) now.audit i = some (.error error) →
          entriesOf now.audit.store.journal i = []) ∧
      (∀ entry ∈ now.audit.store.journal,
        (∀ status, status = .ready ∨ status = .failed → entry.movesTo status →
          entry.returned = some (.status status)) ∧
        (entry.movesTo .cancelled → entry.returned = some (.status .cancelled) ∨
          (∃ moment, entry.action = .settle moment) ∨ entry.action = .cancel)) ∧
      ∀ i, logsOf now.audit.store.logs i <+: outcomesOf now.audit.store.journal i ∧
        ∀ line ∈ logsOf now.audit.store.logs i, ∃ entry ∈ now.audit.store.journal, ∃ exit claimed returned,
          entry.caller = i ∧ entry.action = .terminal exit claimed returned ∧
          line = outcomeEntry claimed returned ∧
            (entry.before ≠ none → Truthful entry returned)) := by
  have deployed := free_deployed env calls jobs now reached
  have lawful : ∀ entry ∈ now.audit.store.journal, LawfulEntry entry := by
    intro entry member
    obtain ⟨_, _, _, _, lawful, _⟩ :=
      throughout_member _ _ deployed.disciplined.inv.life.faithful entry member
    exact lawful
  have exact : ∀ entry ∈ now.audit.store.journal, ∀ exit claimed returned,
    entry.action = .terminal exit claimed returned →
      entry.before ≠ none → (Truthful entry returned ↔ entry.lost = false) := by
    intro entry member exit claimed returned is present
    obtain ⟨old, before⟩ := Option.ne_none_iff_exists'.mp present
    rw [terminal_truthful entry (lawful entry member) exit claimed old returned is before,
      Entry.lost, is, before]
    simp
  refine ⟨exact, fun kept => ⟨fun i claimed keyring asks => ⟨fun result ended => ?_, fun error ended => ?_⟩,
    fun entry member => ?_, fun i => ⟨deployed.disciplined.inv.reported i, fun line logged => ?_⟩⟩⟩
  · have concluded := deployed_concluded False nameless nameless_unique env calls jobs now deployed i _ ended
    rw [asks] at concluded
    obtain ⟨entry, exit, own, named, is⟩ := concluded
    have member : entry ∈ now.audit.store.journal := List.mem_of_mem_filter (by
      rw [show now.audit.store.journal.filter (fun entry => entry.caller = i) = [entry] from own]
      exact List.mem_singleton_self entry)
    exact ⟨entry, own, named, by rw [Entry.returned, is], fun present =>
      (exact entry member exit claimed result is present).mpr (kept entry member)⟩
  · have concluded := deployed_concluded False nameless nameless_unique env calls jobs now deployed i _ ended
    rw [asks] at concluded
    exact concluded
  · refine ⟨fun status ends moves => ?_, fun moves => ?_⟩
    · obtain ⟨exit, claimed, is⟩ := (moves_by entry (lawful entry member) status moves).1 ends
      rw [Entry.returned, is]
    · refine ((moves_by entry (lawful entry member) .cancelled moves).2 rfl).imp
        (fun ⟨exit, claimed, is⟩ => ?_) id
      rw [Entry.returned, is]
  · have outcome := (deployed.disciplined.inv.reported i).subset logged
    obtain ⟨entry, own, owed⟩ := List.mem_filterMap.mp outcome
    obtain ⟨member, caller⟩ := List.mem_filter.mp own
    rw [Entry.outcome] at owed
    split at owed
    · rename_i exit claimed returned is
      cases owed
      exact ⟨entry, member, exit, claimed, returned, by simpa using caller, is, rfl, fun present =>
        (exact entry member exit claimed returned is present).mpr (kept entry member)⟩
    · cases owed

end

-- A worker that kept its claim reports its failure, and logs it once.
theorem sample_build_reported :
    ∃ now : Deployment Bool (Fin 4), (deploy sampleExporting sampleCalls sampleContest).Reaches now ∧
    logsOf now.audit.store.logs 2 = [.packageFailed (sampleUuid 9)] ∧
    ∃ entry ∈ now.audit.store.journal, entry.caller = 2 ∧ Truthful entry (.status .failed) := by
  have ran : ∃ final ∈
    runSchedule (auditing (Fin 4)) (List.replicate 6 0 ++ List.replicate 4 1 ++ List.replicate 11 2)
      (sampleSessions sampleContest) sampleChoices,
      (∀ entry ∈ final.1.store.journal, entry.lost = false) ∧
      logsOf final.1.store.logs 2 = [.packageFailed (sampleUuid 9)] ∧
      ∀ entry ∈ final.1.store.journal, entry.caller = 2 → entry.returned ≠ none →
        entry.before ≠ none ∧ entry.returned = some (.status .failed) := by decide +kernel
  obtain ⟨⟨final, rest⟩, run, kept, logged, returns⟩ := ran
  obtain ⟨ledger, reached, _⟩ := sample_deployment sampleContest _ final rest run
  obtain ⟨_, reports⟩ := builds_report_what_they_did sampleExporting sampleCalls sampleContest _ reached
  obtain ⟨_, _, lines⟩ := reports kept
  obtain ⟨entry, member, exit, claimed, returned, caller, is, _, truthful⟩ :=
    (lines 2).2 (.packageFailed (sampleUuid 9)) (by rw [logged]; simp)
  have own : entry.returned = some returned := by rw [Entry.returned, is]
  obtain ⟨present, failed⟩ := returns entry member caller (by simp [own])
  rw [own] at failed
  cases failed
  exact ⟨_, reached, logged, entry, member, caller, truthful present⟩

-- The first worker is overtaken by the second one, sees the cancellation of the second
-- one's build, and reports a failure.
theorem lost_worker_reports_failure : ∃ now : Deployment Bool (Fin 4),
    (deploy sampleExporting sampleCalls sampleContest).Reaches now ∧
    logsOf now.audit.store.logs 1 = [.packageFailed (sampleUuid 9)] ∧
    ∃ entry ∈ now.audit.store.journal, entry.caller = 1 ∧ entry.returned = some (.status .cancelling) ∧
      entry.before ≠ none ∧ entry.before = entry.after ∧ ¬Truthful entry (.status .cancelling) := by
  have ran : ∃ final ∈ runSchedule (auditing (Fin 4))
      (List.replicate 6 0 ++ List.replicate 4 1 ++ List.replicate 4 2 ++ [3] ++ List.replicate 4 1)
      (sampleSessions sampleContest) sampleChoices,
      logsOf final.1.store.logs 1 = [.packageFailed (sampleUuid 9)] ∧
      ∃ entry ∈ final.1.store.journal, entry.caller = 1 ∧ entry.returned = some (.status .cancelling) ∧
        entry.before ≠ none ∧ entry.before = entry.after := by decide +kernel
  obtain ⟨⟨final, rest⟩, run, logged, entry, member, caller, returned, present, same⟩ := ran
  obtain ⟨ledger, reached, _⟩ := sample_deployment sampleContest _ final rest run
  refine ⟨_, reached, logged, entry, member, caller, returned, present, same, fun truthful => ?_⟩
  cases (idle_truthful entry _ same).mp truthful

end CalibrationLedger
