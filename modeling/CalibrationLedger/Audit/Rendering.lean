import CalibrationLedger.Library.Deeds
import CalibrationLedger.Audit.Contents

set_option autoImplicit false

-- What a build makes of its package while the ledger moves on under it.
namespace CalibrationLedger

open JsonText Digest Interleaving Histories

section

variable {κ : Type}

-- What a run does to the audit tables, the artifacts among them.
structure Forward (before after : AuditStore κ) : Prop where
  onward : Onward before after
  artifacts : ∀ packageId artifact, before.artifacts packageId = some artifact →
    after.artifacts packageId = some artifact

theorem forward_refl (store : AuditStore κ) : Forward store store := ⟨onward_refl store, fun _ _ => id⟩

theorem forward_trans (a b c : AuditStore κ) (first : Forward a b) (second : Forward b c) : Forward a c :=
  ⟨onward_trans a b c first.onward second.onward, fun packageId artifact stored =>
    second.artifacts packageId artifact (first.artifacts packageId artifact stored)⟩

theorem artifacts_effect (i : κ) (request : AuditQuery) (store after : AuditStore κ)
    (effect : Effect i request store after) (packageId : Uuid) (artifact : AuditPackageArtifact)
    (stored : store.artifacts packageId = some artifact) :
    after.artifacts packageId = some artifact := by
  cases effect with
  | moved action id old new artifacts issued found moves delivers =>
      rcases delivers with ⟨_, rfl⟩ | ⟨archive, now, _, absent, rfl⟩
      · exact stored
      · have other : packageId ≠ old.packageId := by
          rintro rfl
          rw [absent] at stored
          cases stored
        exact (Function.update_of_ne other _ _).trans stored
  | _ => exact stored

theorem artifacts_effects (i : κ) (request : AuditQuery) (store after : AuditStore κ)
    (effects : Effects i request store after) (packageId : Uuid) (artifact : AuditPackageArtifact)
    (stored : store.artifacts packageId = some artifact) :
    after.artifacts packageId = some artifact := by
  induction effects with
  | refl => exact stored
  | tail _ effect ih => exact artifacts_effect i request _ _ effect packageId artifact ih

theorem forward_respond (i : κ) (statement : AuditStatement) (store : AuditStore κ) (before : Nat → Choice)
    (response : AuditResponse statement) (next : AuditStore κ) (after : Nat → Choice) (life : Lifecycle store)
    (careful : ∀ request, statement = .sql request → CheckedBefore request store)
    (answer : auditRespond i statement store before = some (response, next, after)) : Forward store next := by
  refine ⟨(onward_respond i statement store before response next after life careful answer).1,
    fun packageId artifact stored => ?_⟩
  cases statement with
  | sql request =>
      rw [auditRespond] at answer
      split at answer
      · cases answer
        exact stored
      · cases answer
        exact artifacts_effects i request store _ (answer_effects i store request (before 0) life.filed
            (careful request rfl))
          packageId artifact stored
  | _ =>
      cases answer
      exact stored

variable (κ) [DecidableEq κ]

def forwardDiscipline : Discipline (auditing κ) :=
  (freeDiscipline κ).also Forward forward_refl forward_trans
    (fun i statement store before response next after inv owed answer =>
      forward_respond i statement store before response next after
      inv.life (fun request is => by subst is; exact owed.1) answer)
    fun _ store _ => forward_refl store

end

section

variable {κ : Type} [DecidableEq κ] (more : κ → AuditStatement → AuditStore κ → Prop) (k : κ)

theorem lasts_ledger (base : Ledger) :
    Lasts ((forwardDiscipline κ).given more) k fun store => LedgerGrows base store.ledger :=
  fun _ _ _ rely grown => ledger_grows_trans _ _ _ grown rely.2.onward.ledger

theorem through_forward {ρ : Type}
    (claim : (query : AuditStatement) → (AuditResponse query → Program AuditSql ρ) → AuditStore κ → Prop)
    (post : ρ → AuditStore κ → Prop) (program : Program AuditSql ρ) (store : AuditStore κ)
    (through : Through ((forwardDiscipline κ).given more) k claim post program store) :
    Through ((forwardDiscipline κ).given more) k (fun query resume now => claim query resume now ∧
      Forward store now)
      (fun value now => post value now ∧ Forward store now) program store := by
  suffices from_here : ∀ start, Forward start store → Through ((forwardDiscipline κ).given more) k
      (fun query resume now => claim query resume now ∧ Forward start now)
      (fun value now => post value now ∧ Forward start now)
      program store from from_here store (forward_refl store)
  intro start early
  induction program generalizing store with
  | done value => exact fun now inv rely => ⟨through now inv rely, forward_trans _ _ _ early rely.2⟩
  | call query resume ih =>
      intro now inv rely pre
      obtain ⟨claimed, onward⟩ := through now inv rely pre
      have here := forward_trans _ _ _ early rely.2
      refine ⟨⟨claimed, here⟩, fun response after before left answer => ih response after
        (onward response after before left answer) ?_⟩
      exact forward_trans _ _ _ here (forward_respond k query now before response after left inv.life
        (fun request is => by subst is; exact pre.1.1) answer)

end

section

variable {ι κ : Type} [DecidableEq ι] [Fintype ι] [DecidableEq κ] (env : Exporting) (calls : ι → Call)
  (jobs : κ → AuditCall)

theorem deployment_through (i : κ) (more : κ → AuditStatement → AuditStore κ → Prop)
    (claim : (query : AuditStatement) →
      (AuditResponse query → Program AuditSql (Except AuditError AuditOutcome)) → AuditStore κ → Prop)
    (last : Except AuditError AuditOutcome → AuditStore κ → Prop) (before after : Deployment ι κ)
    (reached : (deploy env calls jobs).Reaches before) (step : before.Step after)
    (given : ∀ query resume, before.audit.sessions i = some (.call query resume) →
      more i query before.audit.store)
    (first : ∀ program, before.audit.sessions i = some program →
      Through ((forwardDiscipline κ).given more) i claim last program before.audit.store)
    (program : Program AuditSql (Except AuditError AuditOutcome))
    (session : after.audit.sessions i = some program) :
    Through ((forwardDiscipline κ).given more) i claim last program after.audit.store := by
  have deployed := free_deployed env calls jobs before reached
  obtain ⟨_, moved, _⟩ := deployed_step False nameless nameless_unique env calls jobs _ _ deployed step
  cases step with
  | ledger after step =>
      refine through_stable
        ((forwardDiscipline κ).given more) i claim last program before.audit.store _ ?_
          (first program session)
      exact ⟨audit_rely_over False nameless i _ _ moved.ledger, moved, fun _ _ => id⟩
  | audit after step =>
      refine through_step (forwardDiscipline κ) (fun i => CallConcluded i (jobs i)) i more claim last _ after
        ⟨deployed.disciplined.inv, fun j program session => ?_⟩ step given first program session
      exact verified_also _ _ _ _ _ _ j _ program _ (deployed.disciplined.verified j program session)

end

section

variable {κ : Type} [DecidableEq κ] (more : κ → AuditStatement → AuditStore κ → Prop) (k : κ)

-- A statement that changes nothing.
def Reading (statement : AuditStatement) : Prop := ∃ request, statement = .sql request ∧ request.reads = true

variable (calm : Prop) (claimed : AuditPackage)

-- What a program may raise that is after this result.
def MayRaise {α : Type} (result : Py α) (error : AuditError) : Prop :=
  error = .database ∨ error = .cancelRequested ∧ ¬ calm ∨ ∃ raised, error = .raised raised ∧
    result = .error raised

-- Reading while the ledger moves on, the program comes to the result of its base.
def Renders (base : Ledger) {α : Type} (body : AuditTx α) (result : Py α) : Prop :=
  ∀ store, LedgerGrows base store.ledger →
    Passes ((forwardDiscipline κ).given more) k (fun statement _ => Reading statement)
      (fun found now => result = .ok found ∧ LedgerGrows base now.ledger)
      (fun error _ => MayRaise calm result error) body store

theorem passes_query {α : Type} (request : AuditQuery) (reads : request.reads = true)
    (next : Reply request → AuditTx α) (good : α → AuditStore κ → Prop)
    (bad : AuditError → AuditStore κ → Prop)
    (lasts : Lasts ((forwardDiscipline κ).given more) k (bad .database)) (store : AuditStore κ)
    (gone : ∀ now, Forward store now → bad .database now)
    (answers : ∀ (now : AuditStore κ) choice, ((forwardDiscipline κ).given more).Inv now →
      Forward store now → more k (.sql request) now →
      Passes ((forwardDiscipline κ).given more) k (fun statement _ => Reading statement) good bad
        (next (now.answer k choice request).1) now) :
    Passes ((forwardDiscipline κ).given more) k (fun statement _ => Reading statement) good bad
        (query request >>= next) store := by
  rw [query, LawfulMonad.bind_assoc]
  refine passes_ask ((forwardDiscipline κ).given more) k _ _ store _ (.sql request) _ fun now inv rely pre =>
    ⟨⟨request, rfl, reads⟩, fun response after before left answer => ?_⟩
  change auditRespond k (.sql request) now before = some (response, after, left) at answer
  rw [auditRespond] at answer
  split at answer
  · cases answer
    exact passes_throw ((forwardDiscipline κ).given more) k _ _ now _ _ lasts (gone now rely.2)
  · cases answer
    rw [reads_leave request reads now (before 0)]
    exact answers now (before 0) inv rely.2 pre.2

section

variable (base : Ledger)

theorem renders_raising {α : Type} (outcome : Py α) : Renders more k calm base (raising outcome) outcome := by
  intro store grown
  cases outcome with
  | ok value =>
      refine passes_pure ((forwardDiscipline κ).given more) k _ _ store _ value ?_ ⟨rfl, grown⟩
      rintro _ now inv rely ⟨_, grown⟩
      exact ⟨rfl, lasts_ledger more k base _ now inv rely grown⟩
  | error error =>
      exact passes_throw ((forwardDiscipline κ).given more) k _ _ store _ _ (fun _ _ _ _ => id)
        (.inr (.inr ⟨error, rfl, rfl⟩))

theorem renders_pure {α : Type} (value : α) : Renders more k calm base (pure value) (pure value) :=
  renders_raising more k calm base (.ok value)

theorem renders_bind {α β : Type} (body : AuditTx α) (result : Py α) (next : α → AuditTx β)
    (further : α → Py β) (first : Renders more k calm base body result)
    (second : ∀ value, Renders more k calm base (next value) (further value)) :
    Renders more k calm base (body >>= next) (result >>= further) := by
  intro store grown
  refine passes_bind ((forwardDiscipline κ).given more) k _ _ store
    (fun found now => result = .ok found ∧ LedgerGrows base now.ledger) _
    (fun error _ _ _ _ => id) body next ?_ ?_
  · refine passes_mono ((forwardDiscipline κ).given more) k _ _ store _ _ _ body (fun _ _ _ => id)
      (fun error now _ excused => ?_)
      (first store grown)
    rcases excused with gone | cancelled | ⟨raised, rfl, is⟩
    · exact .inl gone
    · exact .inr (.inl cancelled)
    · exact .inr (.inr ⟨raised, rfl, by rw [is]; rfl⟩)
  · rintro found now _ ⟨is, still⟩
    rw [is]
    exact second found now still

theorem renders_query {β : Type} (request : AuditQuery) (reads : request.reads = true)
    (next : Reply request → AuditTx β) (result : Py β)
    (answers : ∀ (now : AuditStore κ) choice, LedgerGrows base now.ledger → more k (.sql request) now →
      Renders more k calm base (next (now.answer k choice request).1) result) :
    Renders more k calm base (query request >>= next) result := by
  intro store grown
  refine passes_query more k request reads next _ _ (fun _ _ _ _ => id) store
    (fun _ _ => .inl rfl) fun now choice _ forward given => ?_
  have still := ledger_grows_trans _ _ _ grown forward.onward.ledger
  exact answers now choice still given now still

theorem renders_map {α β : Type} (entries : List α) (each : α → AuditTx β) (result : α → Py β)
    (alike : ∀ entry ∈ entries, Renders more k calm base (each entry) (result entry)) :
    Renders more k calm base (entries.mapM each) (entries.mapM result) := by
  induction entries with
  | nil =>
      rw [List.mapM_nil, List.mapM_nil]
      exact renders_pure more k calm base []
  | cons entry rest ih =>
      rw [List.mapM_cons, List.mapM_cons]
      refine renders_bind more k calm base _ _ _ _ (alike entry List.mem_cons_self) fun first => ?_
      refine renders_bind more k calm base _ _ _ _ (ih fun other inside =>
          alike other (List.mem_cons_of_mem entry inside)) fun others => ?_
      exact renders_pure more k calm base (first :: others)

theorem renders_ledger {β : Type} (next : Ledger → AuditTx β) (result : Py β)
    (alike : ∀ ledger, LedgerGrows base ledger → Renders more k calm base (next ledger) result) :
    Renders more k calm base (query .readLedger >>= next) result :=
  renders_query more k calm base .readLedger rfl next result fun now _ grown _ => alike now.ledger grown

-- A build that is not calm may see its cancellation.
variable (working : calm → ∀ statement store, more k statement store →
  (store.packages claimed.id).map AuditPackage.status = some .building)

include working

theorem renders_check {β : Type} (next : AuditTx β) (result : Py β)
    (onward : Renders more k calm base next result) :
    Renders more k calm base (do checkBuildCancelled claimed; next) result := by
  rw [checkBuildCancelled, LawfulMonad.bind_assoc]
  refine renders_query more k calm base (.selectStatus claimed.id) rfl _ result fun now choice _ given => ?_
  by_cases asked : (now.answer k choice (.selectStatus claimed.id)).1 = some .cancelling
  · rw [asked]
    intro store _
    refine passes_throw ((forwardDiscipline κ).given more) k _ _ store _ _ (fun _ _ _ _ => id)
      (.inr (.inl ⟨rfl, fun quiet => ?_⟩))
    have building := (working quiet _ now given).symm.trans asked
    cases building
  · rw [if_neg asked]
    exact onward

end

-- What a build comes to with its load at some moment since the start.
def Rendered (env : Exporting) (keyring : Keyring) (start : Ledger) (outcome : Py BuiltArchive)
    (ledger : Ledger) : Prop :=
  ∃ base, LedgerGrows start base ∧ LedgerGrows base ledger ∧ OneChain base.checkpoints ∧
    (loadBundleAt env.toRuntime base claimed keyring >>= buildArchive env) = outcome

theorem rendered_onward (env : Exporting) (keyring : Keyring) (start : Ledger)
    (outcome : Py BuiltArchive) (ledger later : Ledger) (grows : LedgerGrows ledger later)
    (rendered : Rendered claimed env keyring start outcome ledger) :
    Rendered claimed env keyring start outcome later := by
  obtain ⟨base, since, grown, chain, is⟩ := rendered
  exact ⟨base, since, ledger_grows_trans _ _ _ grown grows, chain, is⟩

variable (working : calm → ∀ statement store, more k statement store →
  (store.packages claimed.id).map AuditPackage.status = some .building)

include working

theorem archive_read (env : Exporting) (keyring : Keyring) (start : AuditStore κ) :
    Passes ((forwardDiscipline κ).given more) k (fun statement _ => Reading statement)
      (fun archive now => Rendered claimed env keyring start.ledger (.ok archive) now.ledger)
      (fun error _ => error = .database ∨ error = .cancelRequested ∧ ¬ calm ∨
        ∃ raised ledger, error = .raised raised ∧
        Rendered claimed env keyring start.ledger (.error raised) ledger)
      (readArchive env claimed keyring) start := by
  have identical : ∀ {α : Type} (outcome : Py α), id outcome = outcome := fun _ => rfl
  rw [readArchive, loadBundle, LawfulMonad.bind_assoc]
  refine passes_query more k .readLedger rfl _ _ _ (fun _ _ _ _ => id) start (fun _ _ => .inl rfl)
    fun now choice inv forward _ => ?_
  have chain : OneChain now.ledger.checkpoints := inv.cursors.chain
  refine passes_mono ((forwardDiscipline κ).given more) k _ _ now _ _ _ _ ?_ ?_
    (renders_bind more k calm now.ledger _ (loadBundleAt env.toRuntime now.ledger claimed keyring)
      _ (buildArchive env) ?_
      (fun bundle => renders_check more k calm claimed now.ledger
        working _ _ (renders_raising more k calm now.ledger _))
      now (ledger_grows_refl _))
  · rintro archive later _ ⟨is, grown⟩
    exact ⟨now.ledger, forward.onward.ledger, grown, chain, is⟩
  · rintro error later _ (gone | cancelled | ⟨raised, same, is⟩)
    · exact .inl gone
    · exact .inr (.inl cancelled)
    · exact .inr (.inr
          ⟨raised, now.ledger, same, now.ledger, forward.onward.ledger, ledger_grows_refl _, chain, is⟩)
  · rw [loadBundleAt, loadBundle]
    simp only [identical, pure_bind, AuditStore.answer]
    cases bounded : now.ledger.checkpoint claimed.checkpointId with
    | none => exact renders_raising more k calm now.ledger _
    | some checkpoint =>
        have member : checkpoint ∈ now.ledger.checkpoints := List.mem_of_find?_eq_some bounded
        refine renders_check more k calm claimed now.ledger
          working _ _ (renders_ledger more k calm now.ledger _ _ fun second grows => ?_)
        simp only [instrument_events_kept now.ledger second grows checkpoint member claimed.instrumentId]
        by_cases none : now.ledger.instrumentEvents claimed.instrumentId checkpoint.lastEventSequence = []
        · rw [if_pos none, if_pos none]
          exact renders_raising more k calm now.ledger _
        · rw [if_neg none, if_neg none]
          refine renders_check more k calm claimed now.ledger
            working _ _ (renders_bind more k calm now.ledger _ _ _ _ ?_ fun entries => ?_)
          · refine renders_map more k calm now.ledger _ _ _ fun event _ =>
              renders_ledger more k calm now.ledger _ _ fun third grows => ?_
            rw [grown_receipt env.toRuntime now.ledger third grows checkpoint member keyring chain event]
            refine renders_bind more k calm
              now.ledger _ _ _ _ (renders_raising more k calm now.ledger _) fun receipt => ?_
            exact renders_check more k calm claimed now.ledger
              working _ _ (renders_pure more k calm now.ledger _)
          · generalize checkpointView env.toRuntime checkpoint = viewed
            refine renders_bind more k calm
              now.ledger _ _ _ _ (renders_raising more k calm now.ledger viewed) fun view => ?_
            exact renders_pure more k calm now.ledger _

end

end CalibrationLedger
