import CalibrationLedger.Audit.Programs

set_option autoImplicit false

-- The event service and sealers, and the audit services beside them that read what
-- those have committed.
namespace CalibrationLedger

open JsonText Digest Interleaving Histories

structure Deployment (ι κ : Type) [DecidableEq ι] [Fintype ι] where
  ledger : Config (postgres ι) (Py Outcome)
  audit : Config (auditing κ) (Except AuditError AuditOutcome)

section

variable {κ : Type}

-- What a run does to the audit tables.
structure Onward (before after : AuditStore κ) : Prop where
  ledger : LedgerGrows before.ledger after.ledger
  rows : ∀ id row, before.packages id = some row → ∃ later, after.packages id = some later ∧ Evolves row later
  journal : before.journal <+: after.journal
  acknowledged : before.acknowledged <+: after.acknowledged

theorem onward_refl (store : AuditStore κ) : Onward store store :=
  ⟨ledger_grows_refl _, fun _ row found => ⟨row, found, evolves_refl row⟩, List.prefix_rfl, List.prefix_rfl⟩

theorem onward_trans (a b c : AuditStore κ) (first : Onward a b) (second : Onward b c) : Onward a c := by
  refine ⟨ledger_grows_trans _ _ _ first.ledger second.ledger, fun id row found => ?_,
    first.journal.trans second.journal,
    first.acknowledged.trans second.acknowledged⟩
  obtain ⟨mid, at_b, early⟩ := first.rows id row found
  obtain ⟨later, at_c, late⟩ := second.rows id mid at_b
  exact ⟨later, at_c, evolves_trans row mid later early late⟩

theorem onward_effect (i : κ) (request : AuditQuery) (store after : AuditStore κ)
    (effect : Effect i request store after) (filed : Filed store) :
    Onward store after ∧ after.ledger = store.ledger := by
  have rows := evolves_effect i store request after effect filed
  cases effect with
  | created row new fresh apart =>
      exact ⟨⟨ledger_grows_refl _, rows, List.prefix_append _ _, List.prefix_rfl⟩, rfl⟩
  | moved action id old new artifacts issued found moves delivers =>
      exact ⟨⟨ledger_grows_refl _, rows, List.prefix_append _ _, List.prefix_rfl⟩, rfl⟩
  | declined action id issued declines =>
      exact ⟨⟨ledger_grows_refl _, rows, List.prefix_append _ _, List.prefix_rfl⟩, rfl⟩
  | registered row new unread apart =>
      exact ⟨⟨ledger_grows_refl _, rows, List.prefix_rfl, List.prefix_rfl⟩, rfl⟩
  | advanced id consumer row checkpointId found follows moved named =>
      exact ⟨⟨ledger_grows_refl _, rows, List.prefix_rfl, List.prefix_append _ _⟩, rfl⟩

theorem onward_effects (i : κ) (request : AuditQuery) (store after : AuditStore κ)
    (effects : Effects i request store after) (life : Lifecycle store) :
    Onward store after ∧ after.ledger = store.ledger ∧ Lifecycle after := by
  induction effects with
  | refl => exact ⟨onward_refl store, rfl, life⟩
  | tail _ effect ih =>
      obtain ⟨early, same, kept⟩ := ih
      obtain ⟨late, still⟩ := onward_effect i request _ _ effect kept.filed
      exact ⟨onward_trans _ _ _ early late, still.trans same, lifecycle_effect i _ request _ effect kept⟩

theorem onward_respond (i : κ) (statement : AuditStatement) (store : AuditStore κ) (before : Nat → Choice)
    (response : AuditResponse statement) (next : AuditStore κ) (after : Nat → Choice) (life : Lifecycle store)
    (careful : ∀ request, statement = .sql request → CheckedBefore request store)
    (answer : auditRespond i statement store before = some (response, next, after)) :
    Onward store next ∧ next.ledger = store.ledger := by
  cases statement with
  | clock =>
      cases answer
      exact ⟨onward_refl _, rfl⟩
  | uuidFactory =>
      cases answer
      exact ⟨onward_refl _, rfl⟩
  | log line =>
      cases answer
      exact ⟨⟨ledger_grows_refl _, fun _ row found => ⟨row, found, evolves_refl row⟩, List.prefix_rfl,
        List.prefix_rfl⟩, rfl⟩
  | sql request =>
      rw [auditRespond] at answer
      split at answer
      · cases answer
        exact ⟨onward_refl _, rfl⟩
      · cases answer
        obtain ⟨onward, same, _⟩ := onward_effects i request store _
          (answer_effects i store request (before 0) life.filed (careful request rfl)) life
        exact ⟨onward, same⟩

end

section

variable {ι κ : Type} [DecidableEq ι] [Fintype ι] [DecidableEq κ]

def AuditStore.over (store : AuditStore κ) (ledger : Ledger) : AuditStore κ := { store with ledger }

inductive Deployment.Step : Deployment ι κ → Deployment ι κ → Prop where
  | ledger (before : Deployment ι κ) (after : Config (postgres ι) (Py Outcome))
      (step : Interleaving.Step (postgres ι) before.ledger after) :
      Step before ⟨after, ⟨before.audit.store.over after.store.toLedger, before.audit.sessions⟩⟩
  | audit (before : Deployment ι κ) (after : Config (auditing κ) (Except AuditError AuditOutcome))
      (step : Interleaving.Step (auditing κ) before.audit after) : Step before ⟨before.ledger, after⟩

def Deployment.Reaches (before after : Deployment ι κ) : Prop :=
  Relation.ReflTransGen Deployment.Step before after

def deploy (env : Exporting) (calls : ι → Call) (jobs : κ → AuditCall) : Deployment ι κ :=
  ⟨start env.toRuntime calls,
    ⟨AuditStore.empty κ (Store.empty ι).toLedger, fun i => some ((jobs i).program env).run⟩⟩

variable (fenced : Prop) (names : κ → Option String)

theorem orderly_over (store : AuditStore κ) (ledger : Ledger) (grows : LedgerGrows store.ledger ledger)
    (chain : OneChain ledger.checkpoints) (orderly : Orderly fenced names store) :
    Orderly fenced names (store.over ledger) := by
  have life := orderly.life
  refine ⟨⟨⟨life.filed.packages, life.filed.consumers⟩, life.order, fun id row found => ?_,
    life.distinct, life.stored, life.kept,
    life.replayed, life.faithful⟩, cursors_grow store ledger grows chain orderly.cursors,
      orderly.reported, fun fences => ?_⟩
  · exact covered_grows store.ledger ledger grows row (life.covered id row found)
  · have fence := orderly.fence fences
    exact ⟨fence.counted, fence.absent, fence.holder, fence.exact⟩

theorem audit_rely_over (i : κ) (store : AuditStore κ) (ledger : Ledger)
    (grows : LedgerGrows store.ledger ledger) :
    AuditRely fenced names i store (store.over ledger) :=
  ⟨grows, fun _ row found => ⟨row, found, evolves_refl row⟩, rfl, rfl, rfl, fun _ row found =>
    ⟨row, found, rfl, rfl⟩,
    fun _ _ row _ _ found leased => ⟨⟨row, found, leased⟩, rfl⟩⟩

variable (unique : ∀ i j owner, names i = some owner → names j = some owner → i = j)
variable (env : Exporting) (calls : ι → Call) (jobs : κ → AuditCall)

-- What holds in every state a deployment reaches.
structure Deployed (deployment : Deployment ι κ) : Prop where
  ledger : Reaches (postgres ι) (start env.toRuntime calls) deployment.ledger
  seen : deployment.audit.store.ledger = deployment.ledger.store.toLedger
  disciplined : Disciplined (auditDiscipline fenced names unique)
    (fun i => CallConcluded i (jobs i)) deployment.audit

theorem deploy_deployed (allowed : fenced → ∀ i, (jobs i).Fenced names i) :
    Deployed fenced names unique env calls jobs (deploy env calls jobs) := by
  refine ⟨reaches_refl (postgres ι) _, rfl,
    ⟨lifecycle_empty _, ?_, fun i => List.prefix_rfl, fun _ => ?_⟩, fun i program session => ?_⟩
  · have chain : OneChain (Store.empty ι).toLedger.checkpoints :=
      sound_one_chain env.toRuntime _ _ (history_sound env.toRuntime calls _ (reaches_refl (postgres ι) _))
    exact ⟨chain, fun _ => List.nil_prefix, fun _ _ found => (by cases found), fun _ _ => rfl,
      fun _ _ _ _ found => by cases found⟩
  · refine ⟨fun _ _ found => (by cases found), fun _ _ => rfl, fun _ _ _ found => (by cases found),
      throughout_nil _⟩
  · cases session
    exact call_verified env (jobs i) (fun fences => allowed fences i) _

theorem deployed_step (before after : Deployment ι κ)
    (deployed : Deployed fenced names unique env calls jobs before) (step : before.Step after) :
    Deployed fenced names unique env calls jobs after ∧ Onward before.audit.store after.audit.store ∧
      Reaches (postgres ι) before.ledger after.ledger := by
  cases step with
  | ledger after step =>
      have onward := Relation.ReflTransGen.tail deployed.ledger step
      have grows : LedgerGrows before.audit.store.ledger after.store.toLedger := by
        rw [deployed.seen]
        exact grows_ledger _ _ (history_grows env.toRuntime calls _ _ deployed.ledger (.single step))
      have chain : OneChain after.store.checkpoints :=
        sound_one_chain env.toRuntime _ _ (history_sound env.toRuntime calls after onward)
      refine ⟨⟨onward, rfl, ?_⟩,
        ⟨grows, fun _ row found => ⟨row, found, evolves_refl row⟩, List.prefix_rfl, List.prefix_rfl⟩,
        .single step⟩
      exact disciplined_environment _ _ before.audit
        _ (orderly_over fenced names _ _ grows chain deployed.disciplined.inv)
        (fun j => audit_rely_over fenced names j _ _ grows) deployed.disciplined
  | audit after step =>
      have disciplined := disciplined_step _ _ _ _ deployed.disciplined step
      have moved : Onward before.audit.store after.store ∧
          after.store.ledger = before.audit.store.ledger := by
        obtain ⟨i, exec | crash⟩ := step
        · cases exec with
          | step query resume response store supply rest active answer =>
              obtain ⟨owed, _⟩ := deployed.disciplined.verified i _ active _ deployed.disciplined.inv
                (audit_rely_refl fenced names i _)
              refine onward_respond i query _ supply response store rest deployed.disciplined.inv.life
                (fun request is => ?_) answer
              subst is
              exact owed.1
        · cases crash with
          | step query resume active => exact ⟨onward_refl _, rfl⟩
      exact ⟨⟨deployed.ledger, moved.2.trans deployed.seen, disciplined⟩, moved.1, .refl⟩

theorem deployed_run (before after : Deployment ι κ)
    (deployed : Deployed fenced names unique env calls jobs before) (run : before.Reaches after) :
    Deployed fenced names unique env calls jobs after ∧ Onward before.audit.store after.audit.store ∧
      Reaches (postgres ι) before.ledger after.ledger := by
  induction run with
  | refl => exact ⟨deployed, onward_refl _, .refl⟩
  | tail _ step ih =>
      obtain ⟨reached, early, ledger⟩ := ih
      obtain ⟨next, late, further⟩ := deployed_step fenced names unique env calls jobs _ _ reached step
      exact ⟨next, onward_trans _ _ _ early late, reaches_trans (postgres ι) _ _ _ ledger further⟩

theorem deployed_posts (post : κ → Except AuditError AuditOutcome → AuditStore κ → Prop)
    (before after : Deployment ι κ) (deployed : Deployed fenced names unique env calls jobs before)
    (run : before.Reaches after)
    (disciplined : Disciplined (auditDiscipline fenced names unique) post before.audit) :
    Disciplined (auditDiscipline fenced names unique) post after.audit := by
  induction run with
  | refl => exact disciplined
  | tail run step ih =>
      obtain ⟨reached, _, _⟩ := deployed_run fenced names unique env calls jobs _ _ deployed run
      obtain ⟨next, onward, _⟩ := deployed_step fenced names unique env calls jobs _ _ reached step
      cases step with
      | ledger after step =>
          exact disciplined_environment _ post _ _ next.disciplined.inv
            (fun j => audit_rely_over fenced names j _ _ onward.ledger) ih
      | audit after step => exact disciplined_step _ post _ _ ih step

theorem disciplined_finished (post : κ → Except AuditError AuditOutcome → AuditStore κ → Prop)
    (config : Config (auditing κ) (Except AuditError AuditOutcome))
    (disciplined : Disciplined (auditDiscipline fenced names unique) post config) (i : κ)
    (outcome : Except AuditError AuditOutcome) (ended : finished (auditing κ) config i = some outcome) :
    post i outcome config.store := by
  have session := (finished_done (auditing κ) config i outcome).mp ended
  exact disciplined.verified i _ session _ disciplined.inv (audit_rely_refl fenced names i _)

theorem deployed_concluded (deployment : Deployment ι κ)
    (deployed : Deployed fenced names unique env calls jobs deployment) (i : κ)
    (outcome : Except AuditError AuditOutcome)
    (ended : finished (auditing κ) deployment.audit i = some outcome) :
    CallConcluded i (jobs i) outcome deployment.audit.store :=
  disciplined_finished fenced names unique _ deployment.audit deployed.disciplined i outcome ended

end

section

variable {ι κ : Type} [DecidableEq ι] [Fintype ι] [DecidableEq κ] (env : Exporting) (calls : ι → Call)
  (jobs : κ → AuditCall)

-- No session has a name.
def nameless (_ : κ) : Option String := none

omit [DecidableEq κ] in
theorem nameless_unique (i j : κ) (owner : String) (left : nameless i = some owner) :
    nameless j = some owner → i = j := by
  cases left

theorem free_deployed (deployment : Deployment ι κ) (reached : (deploy env calls jobs).Reaches deployment) :
    Deployed False nameless nameless_unique env calls jobs deployment :=
  (deployed_run False nameless nameless_unique env calls jobs _ _
    (deploy_deployed False nameless nameless_unique env calls jobs (fun fences => fences.elim)) reached).1

variable (κ) in
abbrev freeDiscipline : Discipline (auditing κ) := auditDiscipline False nameless nameless_unique

-- The same beside what a run is known to do to the audit tables.
def onwardDiscipline (κ : Type) [DecidableEq κ] : Discipline (auditing κ) :=
  (freeDiscipline κ).also Onward onward_refl onward_trans
    (fun i statement store before response next after inv owed answer =>
      (onward_respond i statement store before response next after
      inv.life (fun request is => by subst is; exact owed.1) answer).1)
    fun _ store _ => onward_refl store

-- What one session's program keeps, and the rest of the deployment leaves, lasts.
theorem session_run (i : κ)
    (holds : Program AuditSql (Except AuditError AuditOutcome) → AuditStore κ → Prop)
    (stable : ∀ program store later, (onwardDiscipline κ).Inv later →
      (onwardDiscipline κ).Rely i store later →
      holds program store → holds program later)
    (advance : ∀ query resume store before response next after, (onwardDiscipline κ).Inv store →
      (onwardDiscipline κ).Pre i query store →
      auditRespond i query store before = some (response, next, after) →
      holds (.call query resume) store → holds (resume response) next) (now later : Deployment ι κ)
    (reached : (deploy env calls jobs).Reaches now) (onward : now.Reaches later)
    (start : ∀ program, now.audit.sessions i = some program → holds program now.audit.store) :
    ∀ program, later.audit.sessions i = some program → holds program later.audit.store := by
  induction onward with
  | refl => exact start
  | tail run step ih =>
      have deployed := free_deployed env calls jobs _ (reached.trans run)
      obtain ⟨next, moved, _⟩ := deployed_step False nameless nameless_unique env calls jobs _ _ deployed step
      cases step with
      | ledger after step =>
          exact fun program session => stable program _ _ next.disciplined.inv
            ⟨audit_rely_over False nameless i _ _ moved.ledger, moved⟩ (ih program session)
      | audit after step =>
          refine session_step (onwardDiscipline κ)
            (fun i => CallConcluded i (jobs i)) i holds stable advance _ after
            ⟨deployed.disciplined.inv, fun j program session => ?_⟩ step ih
          exact verified_also _ _ _ _ _ _ j _ program _ (deployed.disciplined.verified j program session)

theorem free_concluded (post : κ → Except AuditError AuditOutcome → AuditStore κ → Prop)
    (starts : ∀ i, Verified (freeDiscipline κ) i (CallConcluded i (jobs i)) ((jobs i).program env).run
      (AuditStore.empty κ (Store.empty ι).toLedger) →
      Verified (freeDiscipline κ) i (post i) ((jobs i).program env).run
        (AuditStore.empty κ (Store.empty ι).toLedger))
    (now : Deployment ι κ) (reached : (deploy env calls jobs).Reaches now) (i : κ)
    (outcome : Except AuditError AuditOutcome)
    (ended : finished (auditing κ) now.audit i = some outcome) : post i outcome now.audit.store := by
  have started := deploy_deployed False nameless nameless_unique env calls jobs fun fences => fences.elim
  refine disciplined_finished False nameless nameless_unique post now.audit ?_ i outcome ended
  refine deployed_posts False nameless nameless_unique env calls jobs _ _ now started reached
    ⟨started.disciplined.inv, ?_⟩
  intro j program session
  have verified := started.disciplined.verified j program session
  cases session
  exact starts j verified

theorem free_onward (now later : Deployment ι κ) (reached : (deploy env calls jobs).Reaches now)
    (onward : now.Reaches later) :
    Onward now.audit.store later.audit.store :=
  (deployed_run False nameless nameless_unique env calls jobs now later
      (free_deployed env calls jobs now reached) onward).2.1

theorem ledger_reaches (before : Deployment ι κ) (after : Config (postgres ι) (Py Outcome))
    (seen : before.audit.store.ledger = before.ledger.store.toLedger)
    (run : Interleaving.Reaches (postgres ι) before.ledger after) :
    before.Reaches ⟨after, ⟨before.audit.store.over after.store.toLedger, before.audit.sessions⟩⟩ := by
  induction run with
  | refl =>
      rw [← seen]
      exact .refl
  | tail _ step ih => exact .tail ih (.ledger _ _ step)

theorem audit_reaches (before : Deployment ι κ) (after : Config (auditing κ) (Except AuditError AuditOutcome))
    (run : Interleaving.Reaches (auditing κ) before.audit after) : before.Reaches ⟨before.ledger, after⟩ := by
  induction run with
  | refl => exact .refl
  | tail _ step ih => exact .tail ih (.audit _ _ step)

end

-- Audit sessions beside the sample history once its report is sealed. The clock
-- moves on by a microsecond a statement.
def sampleExporting : Exporting where
  toRuntime := reference
  describe _ := text ""
  zip _ := []

def sampleLedger : Ledger := ⟨⟨[sampleEvent], List.pairwise_singleton _ _⟩, [sampleCheckpoint]⟩

def sampleMoment (n : Nat) : Instant := ⟨(sampleTime.micros + n) % endOfTime, Nat.mod_lt _ (by decide)⟩

def sampleChoices (n : Nat) : Choice := ⟨sampleUuid 9, sampleMoment n, 0, fun _ => false, false⟩

def sampleSessions {κ : Type} (jobs : κ → AuditCall) : Config (auditing κ) (Except AuditError AuditOutcome) :=
  ⟨AuditStore.empty κ sampleLedger, fun i => some ((jobs i).program sampleExporting).run⟩

theorem sample_deployment {κ : Type} [DecidableEq κ] (jobs : κ → AuditCall) (schedule : List κ)
    (final : Config (auditing κ) (Except AuditError AuditOutcome)) (rest : Nat → Choice)
    (ran : runSchedule (auditing κ) schedule (sampleSessions jobs) sampleChoices = some (final, rest)) :
    ∃ ledger, (deploy sampleExporting sampleCalls jobs).Reaches ⟨ledger, final⟩ ∧
    ledger.store.toLedger = sampleLedger := by
  obtain ⟨ledger, reached, rows, checkpoints, _⟩ := sample_run
  have same : ledger.store.toLedger = sampleLedger := by
    obtain ⟨⟨⟨⟨found, sorted⟩, listed⟩, sequence, transactions⟩, sessions⟩ := ledger
    cases rows
    cases checkpoints
    rfl
  have sealed := ledger_reaches (deploy sampleExporting sampleCalls jobs) ledger rfl reached
  rw [same] at sealed
  exact ⟨ledger, sealed.trans
    (audit_reaches _ final (run_schedule_reaches (auditing κ) schedule _ _ _ _ ran)), same⟩

end CalibrationLedger
