import CalibrationLedger.Audit.Archives

set_option autoImplicit false

-- A build that keeps its package ends with the whole archive stored.
namespace CalibrationLedger

open JsonText Digest Interleaving Histories

section

variable {κ : Type}

-- The package is being built, and by the worker that claimed it.
def StillBuilding (claimed : AuditPackage) (store : AuditStore κ) : Prop :=
  ∃ row, store.packages claimed.id = some row ∧ row.status = .building ∧ row.leaseOwner = claimed.leaseOwner

-- The archive stands in the artifact table, and the row of its package says so.
def ArchiveStored (claimed : AuditPackage) (archive : BuiltArchive) (store : AuditStore κ) : Prop :=
  ∃ row artifact, store.packages claimed.id = some row ∧ row.status = .ready ∧
    row.identity = claimed.identity ∧
    store.artifacts row.packageId = some artifact ∧ artifact.zipContent = archive.content ∧
    artifact.sha256 = archive.sha256 ∧
    row.artifactSha256 = some archive.sha256 ∧ row.eventCount = some archive.eventCount

theorem archive_stored_forward (claimed : AuditPackage) (archive : BuiltArchive)
    (store later : AuditStore κ) (forward : Forward store later)
    (stored : ArchiveStored claimed archive store) : ArchiveStored claimed archive later := by
  obtain ⟨row, artifact, found, ready, same, kept, content⟩ := stored
  obtain ⟨new, still, evolves⟩ := forward.onward.rows claimed.id row found
  cases evolves.ready ready
  exact ⟨row, artifact, still, ready, same, forward.artifacts _ artifact kept, content⟩

theorem final_write_done (i : κ) (store : AuditStore κ) (life : Lifecycle store) (choice : Choice)
    (claimed row : AuditPackage) (archive : BuiltArchive) (found : store.packages claimed.id = some row)
    (building : row.status = .building) (owned : row.leaseOwner = claimed.leaseOwner) :
    store.answer i choice (.finalWrite claimed archive) = (.ok (.status .ready),
      { store.put ⟨i, .terminal .finalWrite claimed (.status .ready), claimed.id, some row,
        some (row.complete archive choice.clock)⟩
          (row.complete archive choice.clock) with
        artifacts := Function.update store.artifacts row.packageId
            (some (row.artifact archive choice.clock)) }) := by
  have moves : Moves (.terminal .finalWrite claimed (.status .ready)) row
      (row.complete archive choice.clock) :=
    .complete claimed row archive choice.clock building owned
  have shaped := in_order_shape _ (moves_in_order _ row _ moves (life.order claimed.id row found))
  have absent := unfinished_no_artifact store life claimed.id row found (by rw [building]; decide)
  have decided : finalWrite claimed archive choice.clock (some row) =
      ⟨.status .ready, some (row.complete archive choice.clock),
        some (row.artifact archive choice.clock)⟩ := by
    rw [finalWrite, if_neg (by rw [building]; decide), if_neg (by rw [building]; decide),
      if_neg (by simp [building, owned])]
  rw [AuditStore.answer, AuditStore.transact, found, decided]
  dsimp only
  rw [if_neg (by simp [shaped]), if_neg (by simp [AuditPackage.artifact, absent])]
  rfl

theorem final_write_still_building (i : κ) (store : AuditStore κ) (life : Lifecycle store)
    (choice : Choice) (claimed : AuditPackage) (archive : BuiltArchive)
    (working : StillBuilding claimed store) (recognized : Recognized claimed store) :
    (store.answer i choice (.finalWrite claimed archive)).1 = .ok (.status .ready) ∧
      ArchiveStored claimed archive (store.answer i choice (.finalWrite claimed archive)).2 := by
  obtain ⟨row, found, building, owned⟩ := working
  rw [final_write_done i store life choice claimed row archive found building owned]
  exact ⟨rfl, row.complete archive choice.clock, row.artifact archive choice.clock,
    Function.update_self .., rfl, recognized row found,
    Function.update_self .., rfl, rfl, rfl, rfl⟩

theorem holding_recognized (claimed : AuditPackage) (store : AuditStore κ)
    (holding : Holding (some claimed) store) :
    Recognized claimed store := by
  intro row found
  obtain ⟨held, at_id, same⟩ := holding claimed rfl
  rw [found] at at_id
  cases at_id
  exact same

end

section

variable {κ : Type} [DecidableEq κ] (k : κ) (claimed : AuditPackage)

-- Whatever a session does, the package stays with its worker.
def atWork (_ : κ) (_ : AuditStatement) (store : AuditStore κ) : Prop := StillBuilding claimed store

omit [DecidableEq κ] in
theorem still_building_status (store : AuditStore κ) (working : StillBuilding claimed store) :
    (store.packages claimed.id).map AuditPackage.status = some .building := by
  obtain ⟨row, found, building, _⟩ := working
  rw [found, Option.map_some, building]

-- A build reads, and then writes its archive.
def Building (statement : AuditStatement) : Prop :=
  Reading statement ∨ ∃ archive, statement = .sql (.finalWrite claimed archive)

theorem passes_attempt {α : Type} (more : κ → AuditStatement → AuditStore κ → Prop)
    (claim : AuditStatement → AuditStore κ → Prop) (good : α → AuditStore κ → Prop)
    (bad worse : AuditError → AuditStore κ → Prop) (body : AuditTx α) (store : AuditStore κ)
    (lastsGood : ∀ value, Lasts ((forwardDiscipline κ).given more) k (good value))
    (lastsBad : ∀ error, Lasts ((forwardDiscipline κ).given more) k (bad error))
    (passes : Passes ((forwardDiscipline κ).given more) k claim good bad body store) :
    Passes ((forwardDiscipline κ).given more) k claim (Post good bad) worse (attempt body) store := by
  refine through_bind ((forwardDiscipline κ).given more) k _ _ _ _ body.run _ store
    (fun _ _ _ _ => id) passes fun outcome now _ found => ?_
  intro later inv rely
  cases outcome with
  | ok value => exact lastsGood value now later inv rely found
  | error error => exact lastsBad error now later inv rely found

variable (env : Exporting) (keyring : Keyring) (archive : BuiltArchive) (store : AuditStore κ)
  (holding : Holding (some claimed) store)
  (settled : ∀ base, LedgerGrows store.ledger base → OneChain base.checkpoints →
    (loadBundleAt env.toRuntime base claimed keyring >>= buildArchive env) = .ok archive)

include holding settled

theorem build_completes :
    Passes ((forwardDiscipline κ).given (atWork claimed)) k (fun statement _ => Building claimed statement)
    (fun result now => result = .status .ready ∧ ArchiveStored claimed archive now)
    (fun error _ => error = .database)
    (buildOnce env claimed keyring) store := by
  have fixed : ∀ outcome ledger, Rendered claimed env keyring store.ledger outcome ledger →
      outcome = .ok archive := by
    rintro outcome ledger ⟨base, since, _, chain, rfl⟩
    exact settled base since chain
  have read := archive_read (atWork claimed) k True claimed
    (fun _ _ now => still_building_status claimed now) env keyring store
  have readable : Passes ((forwardDiscipline κ).given (atWork claimed)) k
    (fun statement _ => Building claimed statement)
      (fun found now => found = archive ∧ Holding (some claimed) now) (fun error _ => error = .database)
      (readArchive env claimed keyring) store := by
    refine through_mono ((forwardDiscipline κ).given (atWork claimed)) k _ _ _ _ _ store
      (fun _ _ _ _ reading => .inl reading.1) ?_
      (through_forward (atWork claimed) k _ _ _ store read)
    rintro (error | found) now _ ⟨result, forward⟩
    · rcases result with gone | ⟨_, lively⟩ | ⟨raised, ledger, _, rendered⟩
      · exact gone
      · exact absurd trivial lively
      · exact absurd (fixed _ ledger rendered) nofun
    · exact ⟨Except.ok.inj (fixed _ _ result), holding_forward _ store now forward holding⟩
  refine passes_bind
    ((forwardDiscipline κ).given (atWork claimed)) k _ _ store _ _ (fun error _ _ _ _ => id) _ _
    (passes_attempt k (atWork claimed) _ _ _ (fun error _ => error = .database)
      (readArchive env claimed keyring) store (fun found => ?_)
      (fun error _ _ _ _ => id) readable) fun outcome now _ found => ?_
  · rintro now later _ rely ⟨same, held⟩
    exact ⟨same, holding_forward _ now later rely.2 held⟩
  · rcases outcome with error | built
    · cases found
      exact passes_throw ((forwardDiscipline κ).given (atWork claimed)) k _ _ now _ _ (fun _ _ _ _ => id) rfl
    · obtain ⟨rfl, held⟩ := found
      change Passes ((forwardDiscipline κ).given (atWork claimed))
        k _ _ _ (query (.finalWrite claimed built) >>= committed) now
      rw [query, LawfulMonad.bind_assoc]
      refine passes_ask
          ((forwardDiscipline κ).given (atWork claimed)) k _ _ now _ _ _ fun later inv rely pre =>
        ⟨.inr ⟨built, rfl⟩, fun response after before left answer => ?_⟩
      change auditRespond k (.sql (.finalWrite claimed built)) later before =
        some (response, after, left) at answer
      rw [auditRespond] at answer
      split at answer
      · cases answer
        exact passes_throw
          ((forwardDiscipline κ).given (atWork claimed)) k _ _ later _ _ (fun _ _ _ _ => id) rfl
      · cases answer
        obtain ⟨ready, stored⟩ := final_write_still_building k later inv.life (before 0) claimed built pre.2
          (holding_recognized claimed later (holding_forward _ now later rely.2 held))
        rw [ready]
        refine passes_pure ((forwardDiscipline κ).given (atWork claimed)) k
          (fun statement _ => Building claimed statement) _ _
          (fun result now => result = BuildResult.status .ready ∧ ArchiveStored claimed built now)
          (.status .ready) ?_ ⟨rfl, stored⟩
        rintro last final _ onward ⟨_, stored⟩
        exact ⟨rfl, archive_stored_forward claimed built last final onward.2 stored⟩

end

section

variable {κ : Type} [DecidableEq κ] (k : κ) (claimed : AuditPackage) (env : Exporting)
  (keyring : Keyring) (archive : BuiltArchive) (store : AuditStore κ)
  (holding : Holding (some claimed) store)
  (settled : ∀ base, LedgerGrows store.ledger base → OneChain base.checkpoints →
    (loadBundleAt env.toRuntime base claimed keyring >>= buildArchive env) = .ok archive)

include holding settled

theorem build_through :
    Through ((forwardDiscipline κ).given (atWork claimed)) k (fun statement _ _ => Building claimed statement)
    (fun outcome now => outcome = .error .database ∨ outcome = .ok (.built (.status .ready)) ∧
      ArchiveStored claimed archive now)
    ((AuditCall.build claimed keyring).program env).run store := by
  refine through_bind
    ((forwardDiscipline κ).given (atWork claimed)) k _ _ _ _ (buildOnce env claimed keyring).run _ store
    (fun _ _ _ _ => id)
    (build_completes k claimed env keyring archive store holding settled) fun outcome now _ found => ?_
  rcases outcome with error | result
  · rintro later _ _
    exact .inl (congrArg Except.error found)
  · obtain ⟨rfl, stored⟩ := found
    rintro later _ rely
    exact .inr ⟨rfl, archive_stored_forward claimed archive now later rely.2 stored⟩

end

-- A final write is the last statement of its session.
def Ending (query : AuditStatement)
    (resume : AuditResponse query → Program AuditSql (Except AuditError AuditOutcome)) : Prop :=
  query.delivers = true → ∀ response, ∃ value, resume response = .done value

theorem undelivering_ending (query : AuditStatement)
    (resume : AuditResponse query → Program AuditSql (Except AuditError AuditOutcome))
    (idle : Undelivering query) : Ending query resume := by
  intro delivers
  rw [idle] at delivers
  cases delivers

theorem build_ends (env : Exporting) (claimed : AuditPackage) (keyring : Keyring) :
    Everywhere Ending ((AuditCall.build claimed keyring).program env).run := by
  have other : ∀ body : AuditTx BuildResult, IssuesOnly (S := AuditSql) Undelivering body →
      Everywhere Ending (do return AuditOutcome.built (← body) : AuditTx AuditOutcome).run :=
        fun body stays =>
    everywhere_bind (S := AuditSql) Ending Undelivering undelivering_ending body.run _ stays
      fun outcome => by cases outcome <;> trivial
  have ending : ∀ request : AuditQuery, (AuditStatement.sql request).delivers = false →
    ∀ next : Reply request → AuditTx BuildResult,
      (∀ reply, IssuesOnly (S := AuditSql) Undelivering (next reply)) →
        Everywhere Ending
          (do return AuditOutcome.built (← query request >>= next) : AuditTx AuditOutcome).run :=
    fun request kind next each => other _ (issues_only_bind _ _ _ (issues_only_query _ request kind) each)
  change Everywhere Ending
    ((attempt (readArchive env claimed keyring) >>= _) >>= _ : AuditTx AuditOutcome).run
  rw [LawfulMonad.bind_assoc]
  refine everywhere_bind (S := AuditSql) Ending Undelivering undelivering_ending
    (attempt (readArchive env claimed keyring)).run _
    (issues_only_attempt _ _ (issues_only_archive Undelivering plain_undelivering env claimed keyring))
      fun outcome => ?_
  rcases outcome with _ | outcome
  · trivial
  · rcases outcome with (_ | _ | error) | archive
    · trivial
    · exact ending (.finishCancelled claimed) rfl _ fun reply => issues_only_committed _ reply
    · cases error with
      | integrityError => trivial
      | ledger error =>
          exact ending (.failOrCancel claimed _ _) rfl _ fun reply => issues_only_committed _ reply
      | _ => exact ending (.failOrCancel claimed _ _) rfl _ fun reply => issues_only_committed _ reply
    · refine ⟨fun _ response => ?_, fun response => ?_⟩
      · rcases response with _ | rejection | result
        · exact ⟨_, rfl⟩
        · exact ⟨_, rfl⟩
        · exact ⟨_, rfl⟩
      · rcases response with _ | rejection | result <;> trivial

section

variable {ι κ : Type} [DecidableEq ι] [Fintype ι] [DecidableEq κ] (env : Exporting) (calls : ι → Call)
  (jobs : κ → AuditCall) (k : κ) (claimed : AuditPackage)

-- As long as the session is at it, the package stays with its worker.
def Attended (deployment : Deployment ι κ) : Prop :=
  ∀ query resume, deployment.audit.sessions k = some (.call query resume) →
    StillBuilding claimed deployment.audit.store

def AttendedRun (before after : Deployment ι κ) : Prop :=
  Relation.ReflTransGen (fun before after : Deployment ι κ => before.Step after ∧
      Attended k claimed after) before after

theorem attended_reaches (before after : Deployment ι κ) (run : AttendedRun k claimed before after) :
    before.Reaches after :=
  Relation.ReflTransGen.mono (fun _ _ step => step.1) _ _ run

-- A build on its way to store this archive.
structure OnTrack (archive : BuiltArchive) (program : Program AuditSql (Except AuditError AuditOutcome))
    (store : AuditStore κ) : Prop where
  through : Through ((forwardDiscipline κ).given (atWork claimed)) k
    (fun statement _ _ => Building claimed statement)
    (fun outcome now => outcome = .error .database ∨ outcome = .ok (.built (.status .ready)) ∧
      ArchiveStored claimed archive now) program store
  ends : Everywhere Ending program

theorem on_track_step (archive : BuiltArchive) (before after : Deployment ι κ)
    (reached : (deploy env calls jobs).Reaches before) (step : before.Step after)
    (attended : Attended k claimed before)
    (tracked : ∀ program, before.audit.sessions k = some program →
      OnTrack k claimed archive program before.audit.store)
    (program : Program AuditSql (Except AuditError AuditOutcome))
    (session : after.audit.sessions k = some program) :
    OnTrack k claimed archive program after.audit.store := by
  refine ⟨?_, ?_⟩
  · exact deployment_through env calls jobs k (atWork claimed) _ _ before after reached step attended
      (fun program session => (tracked program session).through) program session
  · cases step with
    | ledger after step => exact (tracked program session).ends
    | audit after step =>
        exact everywhere_step (auditing κ) Ending before.audit after step k
          (fun program session => (tracked program session).ends) program session

theorem on_track_run (archive : BuiltArchive) (now later : Deployment ι κ)
    (reached : (deploy env calls jobs).Reaches now) (attended : Attended k claimed now)
    (run : AttendedRun k claimed now later)
    (tracked : ∀ program, now.audit.sessions k = some program →
      OnTrack k claimed archive program now.audit.store) :
    Attended k claimed later ∧ ∀ program, later.audit.sessions k = some program →
    OnTrack k claimed archive program later.audit.store := by
  induction run with
  | refl => exact ⟨attended, tracked⟩
  | tail run step ih =>
      refine ⟨step.2, on_track_step env calls jobs k claimed archive _ _ ?_ step.1 ih.1 ih.2⟩
      exact reached.trans (attended_reaches k claimed _ _ run)

omit [DecidableEq κ] in
theorem answer_total (statement : AuditStatement) (store : AuditStore κ) (supply : Nat → Choice) :
    ∃ response next rest, auditRespond k statement store supply = some (response, next, rest) := by
  cases statement with
  | sql request =>
      rw [auditRespond]
      split
      · exact ⟨_, _, _, rfl⟩
      · exact ⟨_, _, _, rfl⟩
  | _ => exact ⟨_, _, _, rfl⟩

omit [DecidableEq κ] in
theorem reading_leaves (request : AuditQuery) (reads : request.reads = true) (store : AuditStore κ)
    (supply : Nat → Choice) (response : Option (Reply request)) (next : AuditStore κ)
    (rest : Nat → Choice)
    (answer : auditRespond k (.sql request) store supply = some (response, next, rest)) :
    next = store := by
  rw [auditRespond] at answer
  split at answer
  · cases answer
    rfl
  · cases answer
    exact reads_leave request reads store (supply 0)

theorem on_track_finishes (archive : BuiltArchive)
    (program : Program AuditSql (Except AuditError AuditOutcome)) (now : Deployment ι κ)
    (reached : (deploy env calls jobs).Reaches now) (session : now.audit.sessions k = some program)
    (attended : Attended k claimed now) (tracked : OnTrack k claimed archive program now.audit.store)
    (supply : Nat → Choice) :
    ∃ final, AttendedRun k claimed now final ∧ (finished (auditing κ) final.audit k).isSome = true := by
  induction program generalizing now with
  | done value =>
      refine ⟨now, .refl, ?_⟩
      rw [(finished_done (auditing κ) now.audit k value).mpr session]
      rfl
  | call query resume ih =>
      obtain ⟨response, next, rest, answer⟩ := answer_total k query now.audit.store supply
      have step : now.Step
          ⟨now.ledger, ⟨next, Function.update now.audit.sessions k (some (resume response))⟩⟩ :=
        .audit now _ ⟨k, .inl (.step now.audit query resume response next supply rest session answer)⟩
      have resumed : Function.update now.audit.sessions k (some (resume response)) k =
        some (resume response) := Function.update_self ..
      have onTrack := on_track_step env calls jobs k claimed archive now _ reached step attended
          (fun program same => by
        rw [session] at same
        cases same
        exact tracked) (resume response) resumed
      have working : ∀ query' resume', resume response = .call query' resume' →
          StillBuilding claimed next := by
        intro other onward going
        have inv := (free_deployed env calls jobs now reached).disciplined.inv
        obtain ⟨owed, _⟩ :=
          (free_deployed env calls jobs now reached).disciplined.verified k _ session _ inv
            (audit_rely_refl False nameless k _)
        obtain ⟨building, _⟩ :=
          tracked.through _ inv (((forwardDiscipline κ).given (atWork claimed)).rely_refl k _)
          ⟨owed, attended query resume session⟩
        rcases building with ⟨request, rfl, reads⟩ | ⟨built, rfl⟩
        · rw [reading_leaves k request reads now.audit.store supply response next rest answer]
          exact attended _ resume session
        · obtain ⟨value, last⟩ := tracked.ends.1 rfl response
          rw [last] at going
          cases going
      have still : Attended k claimed
          (⟨now.ledger, ⟨next, Function.update now.audit.sessions k (some (resume response))⟩⟩ :
            Deployment ι κ) := by
        intro other onward same
        change Function.update now.audit.sessions k (some (resume response)) k = _ at same
        rw [resumed] at same
        exact working other onward (Option.some.inj same)
      obtain ⟨final, run, ended⟩ := ih response _ (reached.tail step) resumed still onTrack
      exact ⟨final, .head ⟨step, still⟩ run, ended⟩

-- A build that nobody takes the package from reads, writes its archive and answers ready,
-- or meets a database error; it records no failure, and can always go on to its end.
theorem attended_builds_complete (now : Deployment ι κ) (reached : (deploy env calls jobs).Reaches now)
    (keyring : Keyring) (call : jobs k = .build claimed keyring)
    (begins : now.audit.sessions k = some ((jobs k).program env).run) (row : AuditPackage)
    (found : now.audit.store.packages claimed.id = some row) (same : row.identity = claimed.identity)
    (building : row.status = .building) (owned : row.leaseOwner = claimed.leaseOwner)
    (legible : Legible env.toRuntime now.audit.store.ledger) (loads : Text → Option Json)
    (undoes : Undoes env.toRuntime loads)
    (narrow : ∀ event ∈ now.audit.store.ledger.events.rows, event.sequence < 2 ^ 63) :
    ∃ boundary, now.audit.store.ledger.checkpoint row.checkpointId = some boundary ∧
      (HoldsKeys (SigningKey calls) keyring (neededBy now.audit.store.ledger.checkpoints boundary) →
        ∃ receipts manifest,
        (∀ reader, HoldsKeys (SigningKey calls) reader
          (neededBy now.audit.store.ledger.checkpoints boundary) →
          CompleteArchive env.toRuntime loads now.audit.store.ledger boundary reader reader
            row.instrumentId receipts manifest) ∧
        ∀ later, AttendedRun k claimed now later →
          (∀ query resume, later.audit.sessions k = some (.call query resume) → Building claimed query) ∧
          (∀ outcome, finished (auditing κ) later.audit k = some outcome → outcome = .error .database ∨
            outcome = .ok (.built (.status .ready)) ∧
            ∃ new artifact, later.audit.store.packages claimed.id = some new ∧
              new.status = .ready ∧ new.identity = row.identity ∧ new.eventCount = some receipts.length ∧
              later.audit.store.artifacts new.packageId = some artifact ∧
              artifact.zipContent = env.zip (receiptsDirectory :: receipts ++ [manifest]) ∧
              artifact.sha256 = sha256Hex env.toRuntime artifact.zipContent) ∧
          (later.audit.sessions k ≠ none → ∃ final, AttendedRun k claimed later final ∧
            (finished (auditing κ) final.audit k).isSome = true)) := by
  have deployed := free_deployed env calls jobs now reached
  have inv := deployed.disciplined.inv
  obtain ⟨boundary, bounded, covers⟩ := inv.life.covered claimed.id row found
  refine ⟨boundary, bounded, fun holds => ?_⟩
  obtain ⟨bundle, manifest, receipts, file, loaded, made, total, _⟩ :=
    archive_buildable env calls jobs now reached legible loads undoes narrow row boundary bounded covers
      keyring holds
  refine ⟨receipts, file, fun reader reads =>
    archive_complete env calls jobs now reached legible loads undoes narrow row boundary bounded
    covers keyring reader bundle receipts file manifest loaded made reads, ?_⟩
  obtain ⟨archive, built, content, digest, counted⟩ : ∃ archive, buildArchive env bundle = .ok archive ∧
      archive.content = env.zip (receiptsDirectory :: receipts ++ [file]) ∧
      archive.sha256 = sha256Hex env.toRuntime archive.content ∧
      archive.eventCount = receipts.length :=
    ⟨_, (bind_ok _ _ _).mpr ⟨_, made, rfl⟩, rfl, rfl, total⟩
  have settled : ∀ base, LedgerGrows now.audit.store.ledger base → OneChain base.checkpoints →
      (loadBundleAt env.toRuntime base claimed keyring >>= buildArchive env) = .ok archive := by
    intro base grows chain
    rw [bundle_onward env.toRuntime now.audit.store.ledger base inv.cursors.chain chain grows row
      claimed same.symm boundary bounded keyring]
    exact (bind_ok _ _ _).mpr ⟨bundle, loaded, built⟩
  have holding : Holding (some claimed) now.audit.store := by
    rintro _ ⟨⟩
    exact ⟨row, found, same⟩
  have tracked : ∀ program, now.audit.sessions k = some program →
      OnTrack k claimed archive program now.audit.store := by
    intro program session
    rw [begins, call] at session
    cases session
    refine ⟨?_, build_ends env claimed keyring⟩
    exact build_through k claimed env keyring archive now.audit.store holding settled
  have attended : Attended k claimed now := fun _ _ _ => ⟨row, found, building, owned⟩
  intro later run
  obtain ⟨still, onTrack⟩ :=
    on_track_run env calls jobs k claimed archive now later reached attended run tracked
  have onward := reached.trans (attended_reaches k claimed now later run)
  have later_inv := (free_deployed env calls jobs later onward).disciplined.inv
  refine ⟨fun query resume session => ?_, fun outcome ended => ?_, fun alive => ?_⟩
  · obtain ⟨owed, _⟩ :=
      (free_deployed env calls jobs later onward).disciplined.verified k _ session _ later_inv
        (audit_rely_refl False nameless k _)
    exact ((onTrack _ session).through _ later_inv
      (((forwardDiscipline κ).given (atWork claimed)).rely_refl k _) ⟨owed, still query resume session⟩).1
  · have session := (finished_done (auditing κ) later.audit k outcome).mp ended
    rcases (onTrack _ session).through _ later_inv
      (((forwardDiscipline κ).given (atWork claimed)).rely_refl k _) with gone | ⟨ready, stored⟩
    · exact .inl gone
    · obtain ⟨new, artifact, at_id, done, identical, kept, bytes, sum, _, events⟩ := stored
      refine .inr ⟨ready, new, artifact, at_id, done,
        identical.trans same.symm, by rw [events, counted], kept, by rw [bytes, content], ?_⟩
      rw [sum, bytes]
      exact digest
  · obtain ⟨program, session⟩ := Option.ne_none_iff_exists'.mp alive
    exact on_track_finishes env calls jobs k claimed archive program later onward session still
      (onTrack program session) sampleChoices

end

-- The sample package as its only worker has claimed it.
def sampleClaimed : AuditPackage where
  id := 1
  packageId := sampleUuid 9
  idempotencyKey := "export-1"
  requestFingerprint := "31e6e70b4c93b6b417a2e5c9a5cf15c11b018ff14cf5c94fed98b57aa6fd9859"
  instrumentId := "scale-7"
  checkpointId := sampleUuid 2
  status := .building
  attemptCount := 1
  leaseOwner := some "a"
  leaseExpiresAt := some (sampleMoment 120000006)
  failureCode := none
  failureReason := none
  artifactSha256 := none
  artifactSizeBytes := none
  eventCount := none
  createdAt := sampleMoment 3
  updatedAt := sampleMoment 6
  readyAt := none
  failedAt := none
  cancelRequestedAt := none
  cancelledAt := none

def sampleWorker : Fin 3 → AuditCall
  | 0 => .create "scale-7" "export-1" none
  | 1 => .claim true "a" 120000000 none
  | 2 => .build sampleClaimed sampleKeyring

theorem sample_build_completes :
    ∃ now final : Deployment Bool (Fin 3), (deploy sampleArchiving sampleCalls sampleWorker).Reaches now ∧
    now.audit.store.packages 1 = some sampleClaimed ∧ AttendedRun 2 sampleClaimed now final ∧
    ∃ outcome, finished (auditing (Fin 3)) final.audit 2 = some outcome ∧ (outcome = .error .database ∨
      outcome = .ok (.built (.status .ready)) ∧ ∃ new artifact receipts manifest,
      final.audit.store.packages 1 = some new ∧
        final.audit.store.artifacts new.packageId = some artifact ∧
        artifact.zipContent = sampleArchiving.zip (receiptsDirectory :: receipts ++ [manifest]) ∧
        CompleteArchive reference
          (Function.partialInv (render (jsonFloat reference.floatRepr))) sampleLedger sampleCheckpoint
          sampleKeyring sampleKeyring "scale-7" receipts manifest) := by
  have ran : ∃ now ∈ runSchedule (auditing (Fin 3)) (List.replicate 6 0 ++ [1, 1])
    (archivingSessions sampleWorker) sampleChoices,
      now.1.store.packages 1 = some sampleClaimed := by decide +kernel
  obtain ⟨⟨config, rest⟩, run, found⟩ := ran
  have begins := run_schedule_untouched (auditing (Fin 3)) _ _ config _ rest run 2 (by decide)
  obtain ⟨ledger, reached, sealed⟩ := sample_archiving sampleWorker _ config rest run
  have seen : config.store.ledger = sampleLedger :=
    (free_deployed sampleArchiving sampleCalls sampleWorker _ reached).seen.trans sealed
  obtain ⟨boundary, bounded, builds⟩ :=
    attended_builds_complete sampleArchiving sampleCalls sampleWorker 2 sampleClaimed ⟨ledger, config⟩
    reached sampleKeyring rfl begins sampleClaimed found
      rfl rfl rfl (sample_legible _ (by rw [seen]; rfl) (by rw [seen]; rfl)) _
    (inverse_undoes reference) (by rw [seen]; decide)
  have covered : boundary ∈ config.store.ledger.checkpoints := List.mem_of_find?_eq_some bounded
  rw [seen] at covered
  cases List.mem_singleton.mp covered
  obtain ⟨receipts, manifest, complete, attended⟩ := builds fun _ _ => sample_keys _
  obtain ⟨_, _, finishes⟩ := attended ⟨ledger, config⟩ .refl
  obtain ⟨final, onward, ended⟩ := finishes (by rw [begins]; exact nofun)
  obtain ⟨outcome, answered⟩ := Option.isSome_iff_exists.mp ended
  refine ⟨_, final, reached, found, onward, outcome, answered,
    ((attended final onward).2.1 outcome answered).imp_right ?_⟩
  rintro ⟨ready, new, artifact, at_id, _, _, _, kept, content, _⟩
  refine ⟨ready, new, artifact, receipts, manifest, at_id, kept, content, ?_⟩
  rw [← seen]
  exact complete sampleKeyring fun _ _ => sample_keys _

end CalibrationLedger
