import CalibrationLedger.Agreement
import CalibrationLedger.Audit.Rendering
import CalibrationLedger.Audit.Statements

set_option autoImplicit false

-- What stands in the artifact table is the whole archive of its package, whoever
-- built it and with whatever keys.
namespace CalibrationLedger

open JsonText Digest Interleaving Histories

section

variable (rt : Runtime) (ledger : Ledger) (keyring other : Keyring)

theorem bundle_agrees (package : AuditPackage) :
    Agrees (loadBundleAt rt ledger package keyring) (loadBundleAt rt ledger package other) := by
  have identical : ∀ {α : Type} (outcome : Py α), id outcome = outcome := fun _ => rfl
  rw [loadBundleAt, loadBundleAt, loadBundle, loadBundle]
  simp only [identical, pure_bind]
  split
  · exact agrees_refl _
  · rename_i checkpoint _
    split
    · exact agrees_refl _
    · refine agrees_bind _ _ _ _ (agrees_map _ _ _ fun event => ?_) fun entries => agrees_refl _
      exact agrees_bind _ _ _ _ (receipt_agrees rt ledger checkpoint keyring other event) fun receipt =>
        agrees_refl _

end

section

variable {κ : Type} [DecidableEq κ] (env : Exporting) (more : κ → AuditStatement → AuditStore κ → Prop)
  (k : κ)

-- The row of a claim is still the one that was claimed.
def Recognized (claimed : AuditPackage) (store : AuditStore κ) : Prop :=
  ∀ row, store.packages claimed.id = some row → row.identity = claimed.identity

-- An archive comes to be stored as the one that was built of its package.
def Delivering {ρ : Type} (query : AuditStatement) (_ : AuditResponse query → Program AuditSql ρ)
    (store : AuditStore κ) : Prop :=
  ∀ claimed archive, query = .sql (.finalWrite claimed archive) →
    Recognized claimed store ∧ ∃ keyring start, Rendered claimed env keyring start (.ok archive) store.ledger

omit [DecidableEq κ] in
theorem undelivering_delivering {ρ : Type} (query : AuditStatement)
    (resume : AuditResponse query → Program AuditSql ρ) (store : AuditStore κ)
    (idle : Undelivering query) : Delivering env query resume store := by
  rintro claimed archive rfl
  cases idle

theorem along_query {ρ : Type} (request : AuditQuery) (next : Reply request → AuditTx ρ)
    (store : AuditStore κ) (quiet : ∀ reply, IssuesOnly (S := AuditSql) Undelivering (next reply))
    (delivers : ∀ now, ((forwardDiscipline κ).given more).Inv now →
      ((forwardDiscipline κ).given more).Rely k store now →
      ((forwardDiscipline κ).given more).Pre k (.sql request) now →
      ∀ resume : Option (Reply request) → Program AuditSql (Except AuditError ρ),
      Delivering env (.sql request) resume now) :
    Along ((forwardDiscipline κ).given more) k (Delivering env) (query request >>= next).run store := by
  rw [query, LawfulMonad.bind_assoc]
  refine fun now inv rely pre => ⟨delivers now inv rely pre _, fun response after before left answer => ?_⟩
  refine along_confined ((forwardDiscipline κ).given more) k (Delivering env) Undelivering
    (undelivering_delivering env) _ after ?_
  cases response with
  | none => trivial
  | some reply => exact quiet reply

theorem lasts_rendered (claimed : AuditPackage) (keyring : Keyring) (start : Ledger)
    (outcome : Py BuiltArchive) :
    Lasts ((forwardDiscipline κ).given more) k fun now =>
      Rendered claimed env keyring start outcome now.ledger :=
  fun _ _ _ rely => rendered_onward claimed env keyring start outcome _ _ rely.2.onward.ledger

theorem along_build (claimed : AuditPackage) (keyring : Keyring) (store : AuditStore κ)
    (recognized : ∀ now statement, Forward store now → more k statement now → Recognized claimed now) :
    Along ((forwardDiscipline κ).given more) k (Delivering env)
      (buildOnce env claimed keyring).run store := by
  have known := through_ensures ((forwardDiscipline κ).given more) k _ _ _ store
    (through_forward more k _ _ _ store
      (archive_read more k False claimed (fun none => none.elim) env keyring store))
  have ending : ∀ request : AuditQuery, (AuditStatement.sql request).delivers = false →
    ∀ next : Reply request → AuditTx BuildResult,
      (∀ reply, IssuesOnly (S := AuditSql) Undelivering (next reply)) → ∀ now,
        Along ((forwardDiscipline κ).given more) k (Delivering env) (query request >>= next).run now :=
    fun request kind next each now =>
      along_confined _ k (Delivering env) Undelivering (undelivering_delivering env) _ now
      (issues_only_bind _ _ _ (issues_only_query _ request kind) each)
  refine along_after Undelivering ((forwardDiscipline κ).given more) k (Delivering env)
    (undelivering_delivering env)
    (fun outcome now => ∀ archive, outcome = .ok archive →
      Rendered claimed env keyring store.ledger (.ok archive) now.ledger ∧ Forward store now)
    _ _ store (issues_only_attempt _ _ (issues_only_archive Undelivering plain_undelivering env claimed
      keyring)) ?_ fun outcome now _ found => ?_
  · refine ensures_bind
      ((forwardDiscipline κ).given more) k _ _ _ _ store known fun outcome now _ ⟨found, forward⟩ => ?_
    rintro later inv rely archive rfl
    exact ⟨lasts_rendered env more k claimed keyring _ _ now later inv rely found,
      forward_trans _ _ _ forward rely.2⟩
  · rcases outcome with (_ | _ | error) | archive
    · trivial
    · exact ending (.finishCancelled claimed) rfl _ (fun reply => issues_only_committed _ reply) now
    · cases error with
      | integrityError => trivial
      | ledger error =>
          exact ending (.failOrCancel claimed _ _) rfl _ (fun reply => issues_only_committed _ reply) now
      | _ => exact ending (.failOrCancel claimed _ _) rfl _ (fun reply => issues_only_committed _ reply) now
    · obtain ⟨rendered, forward⟩ := found archive rfl
      refine along_query env more k (.finalWrite claimed archive) _ now
        (fun reply => issues_only_committed _ reply)
        fun later inv rely pre resume named built same => ?_
      cases same
      exact ⟨recognized later _ (forward_trans _ _ _ forward rely.2) pre.2, keyring, store.ledger,
        lasts_rendered env more k claimed keyring _ _ now later inv rely rendered⟩

-- What a worker has claimed.
def Holding (found : Option AuditPackage) (store : AuditStore κ) : Prop :=
  ∀ claimed, found = some claimed → ∃ row, store.packages claimed.id = some row ∧
    row.identity = claimed.identity

omit [DecidableEq κ] in
theorem holding_forward (found : Option AuditPackage) (store later : AuditStore κ)
    (forward : Forward store later) (holding : Holding found store) : Holding found later := by
  intro claimed is
  obtain ⟨row, at_id, same⟩ := holding claimed is
  obtain ⟨new, still, evolves⟩ := forward.onward.rows claimed.id row at_id
  exact ⟨new, still, evolves.same.trans same⟩

omit [DecidableEq κ] in
theorem claim_holding (store : AuditStore κ) (workerId : String) (moment : Instant)
    (expires : Py Instant) (candidate : Option AuditPackage) :
    Replied Holding (fun _ => True) (store.claim k workerId moment expires candidate).1
      (store.claim k workerId moment expires candidate).2 := by
  cases candidate with
  | none => exact fun _ none => by cases none
  | some row =>
      cases expires with
      | error _ => trivial
      | ok expires =>
          rw [AuditStore.claim, AuditStore.transact]
          dsimp only
          split
          · trivial
          · rintro _ ⟨⟩
            exact ⟨_, Function.update_self .., rfl⟩

theorem learns_nothing {α : Type} (body : AuditTx α) (store : AuditStore κ) :
    Learns ((forwardDiscipline κ).given more) k (fun _ _ => True) (fun _ _ => True) body store :=
  ensures_mono ((forwardDiscipline κ).given more) k _ (fun _ _ => True) body.run store
    (fun outcome now _ => by cases outcome <;> trivial)
    (ensures_nothing ((forwardDiscipline κ).given more) k body.run store)

theorem learns_claim (postgresql : Bool) (workerId : String) (leaseDuration : Int)
    (now : Option Instant) (store : AuditStore κ) :
    Learns ((forwardDiscipline κ).given more) k Holding (fun _ _ => True)
      (claimPackage postgresql workerId leaseDuration now) store := by
  have free : ∀ error : AuditError, Lasts ((forwardDiscipline κ).given more) k fun _ => True :=
    fun _ _ _ _ _ _ => trivial
  have lasts : ∀ found, Lasts ((forwardDiscipline κ).given more) k (Holding found) :=
    fun found store later _ rely => holding_forward found store later rely.2
  have lastsReply : ∀ reply, Lasts ((forwardDiscipline κ).given more) k
      (Replied Holding (fun _ => True) reply) := by
    rintro (rejection | error | found)
    · exact free .database
    · exact free .database
    · exact lasts found
  have anything : ∀ {α : Type} (body : AuditTx α) (next : α → AuditTx (Option AuditPackage))
    (store : AuditStore κ),
      (∀ value now, Learns ((forwardDiscipline κ).given more) k Holding (fun _ _ => True) (next value) now) →
        Learns ((forwardDiscipline κ).given more) k Holding (fun _ _ => True) (body >>= next) store :=
          fun body next store onward =>
    learns_bind ((forwardDiscipline κ).given more) k (fun _ _ => True) store
      (fun _ _ => True) Holding free body next
      (learns_nothing more k body store) fun value now _ _ => onward value now
  have replied : ∀ reply now, Replied Holding (fun _ => True) reply now →
      Learns ((forwardDiscipline κ).given more) k Holding (fun _ _ => True)
        (committed reply >>= raising) now := by
    rintro (rejection | error | found) now held
    · exact learns_throw ((forwardDiscipline κ).given more) k
        (fun _ _ => True) now Holding _ (free .database) trivial
    · exact learns_throw ((forwardDiscipline κ).given more) k
        (fun _ _ => True) now Holding _ (free .database) trivial
    · exact learns_pure ((forwardDiscipline κ).given more) k (fun _ _ => True) now Holding found
        (lasts found) held
  refine anything _ _ store fun moment now => ?_
  cases postgresql with
  | true =>
      refine learns_bind ((forwardDiscipline κ).given more) k _ now
        (Replied Holding fun _ => True) Holding free _ _
        (learns_query (fun _ _ => True) now
          (.claimSkipLocked workerId moment leaseDuration) _ lastsReply free fun later _ _ =>
          ⟨trivial, fun choice => claim_holding k later workerId moment _ _⟩) fun reply later _ found =>
            replied reply later found
  | false =>
      refine anything _ _ now fun found later => ?_
      cases found with
      | none =>
          exact learns_pure ((forwardDiscipline κ).given more) k
            (fun _ _ => True) later Holding none (lasts none) fun _ none => by cases none
      | some id =>
          refine anything _ _ later fun expires last => ?_
          refine learns_bind ((forwardDiscipline κ).given more) k _ last
            (Replied Holding fun _ => True) Holding free _ _
            (learns_query (fun _ _ => True) last
              (.claimById id workerId moment expires) _ lastsReply free fun later _ _ =>
              ⟨trivial, fun choice => claim_holding k later workerId moment _ _⟩) fun reply
                later _ found => replied reply later found

theorem along_and_after {α β : Type} (body : AuditTx α)
    (next : Except AuditError α → Program AuditSql (Except AuditError β)) (store : AuditStore κ)
    (first : Along ((forwardDiscipline κ).given more) k (Delivering env) body.run store)
    (ends : ∀ outcome now, Along ((forwardDiscipline κ).given more) k (Delivering env) (next outcome) now) :
    Along ((forwardDiscipline κ).given more) k (Delivering env) (body.run >>= next) store :=
  along_before ((forwardDiscipline κ).given more) k (Delivering env) (Delivering env) body.run next store
    (fun _ _ _ => id) ends first

theorem along_idle {α : Type} (body : AuditTx α) (stays : IssuesOnly (S := AuditSql) Undelivering body)
    (store : AuditStore κ) :
    Along ((forwardDiscipline κ).given more) k (Delivering env) body.run store :=
  along_confined ((forwardDiscipline κ).given more) k (Delivering env) Undelivering
    (undelivering_delivering env) body.run store stays

theorem along_poll (exporter : Exporter) (store : AuditStore κ) :
    Along ((forwardDiscipline κ).given more) k (Delivering env) (exporterPoll env exporter).run store := by
  refine along_after Undelivering ((forwardDiscipline κ).given more) k (Delivering env)
    (undelivering_delivering env) (fun _ _ => True)
    _ _ store (issues_only_settle Undelivering plain_undelivering exporter.postgresql none)
      (learns_nothing more k _ store) fun settled now _ _ => ?_
  refine along_after Undelivering ((forwardDiscipline κ).given more) k (Delivering env)
    (undelivering_delivering env) (fun _ _ => True)
    _ _ now (issues_only_log_settled Undelivering plain_undelivering settled)
      (learns_nothing more k _ now) fun _ later _ _ => ?_
  refine along_after Undelivering ((forwardDiscipline κ).given more) k (Delivering env)
    (undelivering_delivering env) Holding _ _ later
    (issues_only_claim Undelivering plain_undelivering exporter.postgresql exporter.workerId
      exporter.leaseDuration none)
    (learns_claim more k _ _ _ _ later) fun found last _ holding => ?_
  cases found with
  | none => trivial
  | some claimed =>
      refine along_and_after env more k
        (buildOnce env claimed exporter.keyring) _ last ?_ fun outcome later => ?_
      · refine along_build env more k claimed exporter.keyring last fun now _ forward _ row at_id => ?_
        obtain ⟨new, still, same⟩ := holding_forward _ last now forward holding claimed rfl
        rw [at_id] at still
        cases still
        exact same
      · cases outcome with
        | ok result =>
            exact along_idle env more k (issue (.log (outcomeEntry claimed result)))
              (issues_only_issue _ _ rfl) later
        | error error => trivial

theorem along_exporter (exporter : Exporter) (polls : Nat) (store : AuditStore κ) :
    Along ((forwardDiscipline κ).given more) k (Delivering env)
      (runExporter env exporter polls).run store := by
  induction polls generalizing store with
  | zero => trivial
  | succ polls ih =>
      have gone : ∀ now, Along ((forwardDiscipline κ).given more) k (Delivering env)
          (issue (.log .databaseUnavailable) >>= fun _ => runExporter env exporter polls).run now :=
            fun now =>
        fun _ _ _ _ => ⟨undelivering_delivering env _ _ _ rfl, fun _ next _ _ _ => ih next⟩
      have polled := along_and_after env more k (exporterPoll env exporter)
        (fun outcome => .done (.ok outcome)) store
        (along_poll env more k exporter store) fun _ _ => trivial
      refine along_and_after env more k
        (attempt (exporterPoll env exporter)) _ store polled fun outcome now => ?_
      rcases outcome with error | outcome
      · trivial
      · rcases outcome with (_ | _ | error) | _
        · exact gone now
        · trivial
        · cases error with
          | integrityError => exact gone now
          | _ => trivial
        · exact ih now

-- Every build is of a row as it was claimed.
def Claims (jobs : κ → AuditCall) (store : AuditStore κ) : Prop :=
  ∀ k claimed keyring, jobs k = .build claimed keyring → Recognized claimed store

theorem along_call (jobs : κ → AuditCall) (store : AuditStore κ) :
    Along ((forwardDiscipline κ).given (fun _ _ => Claims jobs)) k (Delivering env)
      ((jobs k).program env).run store := by
  cases building : (jobs k).builds with
  | false => exact along_idle env (fun _ _ => Claims jobs) k _ (call_undelivering env (jobs k) building) store
  | true =>
      cases call : jobs k with
      | build claimed keyring =>
          refine along_and_after env (fun _ _ => Claims jobs) k
            (buildOnce env claimed keyring) _ store ?_ fun outcome now => ?_
          · exact along_build env (fun _ _ => Claims jobs) k claimed keyring store fun now _ _ claims =>
              claims k claimed keyring call
          · cases outcome <;> trivial
      | run exporter polls =>
          refine along_and_after env (fun _ _ => Claims jobs) k (runExporter env exporter polls) _ store
            (along_exporter env (fun _ _ => Claims jobs) k exporter polls store) fun outcome now => ?_
          cases outcome <;> trivial
      | _ =>
          rw [call] at building
          cases building

end

section

variable {κ : Type} (i : κ)

theorem moves_complete (action : Action) (old new : AuditPackage) (moves : Moves action old new)
    (ready : new.status = .ready) :
    ∃ claimed, action = .terminal .finalWrite claimed (.status .ready) := by
  cases moves with
  | complete claimed old archive now building owned => exact ⟨claimed, rfl⟩
  | claim old workerId moment expires eligible => cases ready
  | settle old moment due => cases ready
  | retry old now failed => cases ready
  | withdraw old now pending => cases ready
  | requestCancel old now building => cases ready
  | confirm exit claimed old now asked owned => cases ready
  | fail claimed old code reason now building owned => cases ready

-- Only a final write stores an artifact.
theorem undelivering_artifacts (request : AuditQuery) (idle : Undelivering (.sql request))
    (store after : AuditStore κ) (effects : Effects i request store after) :
    after.artifacts = store.artifacts := by
  induction effects with
  | refl => rfl
  | tail _ effect ih =>
      cases effect with
      | moved action id old new artifacts issued found moves delivers =>
          rcases delivers with ⟨_, rfl⟩ | ⟨archive, now, completes, _, _⟩
          · exact ih
          · obtain ⟨claimed, rfl⟩ := moves_complete action old new moves (by rw [completes]; rfl)
            cases request with
            | finalWrite named archive => cases idle
            | finishCancelled named => exact absurd issued.1 (by decide)
            | failOrCancel named code reason => exact absurd issued.1 (by decide)
            | _ => exact False.elim issued
      | created row new fresh apart => exact ih
      | declined action id issued declines => exact ih
      | registered row new unread apart => exact ih
      | advanced id consumer row checkpointId found follows moved named => exact ih

theorem final_write_decision (claimed : AuditPackage) (archive : BuiltArchive) (now : Instant)
    (found : Option AuditPackage) :
    (finalWrite claimed archive now found).artifact = none ∨ ∃ old, found = some old ∧
      (finalWrite claimed archive now found).write = some (old.complete archive now) ∧
      (finalWrite claimed archive now found).artifact = some (old.artifact archive now) := by
  cases found with
  | none => exact .inl rfl
  | some old =>
      rw [finalWrite]
      split
      · exact .inl rfl
      · split
        · exact .inl rfl
        · split
          · exact .inl rfl
          · exact .inr ⟨old, rfl, rfl, rfl⟩

-- What a final write does to the artifacts, and to the row it stores one for.
theorem final_write_stores (store : AuditStore κ) (choice : Choice) (claimed : AuditPackage)
    (archive : BuiltArchive) :
    (store.answer i choice (.finalWrite claimed archive)).2.artifacts = store.artifacts ∨
      ∃ old, store.packages claimed.id = some old ∧
        (store.answer i choice (.finalWrite claimed archive)).2.packages claimed.id =
          some (old.complete archive choice.clock) ∧
        (store.answer i choice (.finalWrite claimed archive)).2.artifacts =
          Function.update store.artifacts old.packageId (some (old.artifact archive choice.clock)) := by
  rw [AuditStore.answer, AuditStore.transact]
  rcases final_write_decision claimed archive choice.clock
    (store.packages claimed.id) with none | ⟨old, found, written, delivered⟩
  · rw [none]
    split
    · exact .inl rfl
    · split
      · exact .inl rfl
      · exact .inl rfl
  · rw [written, delivered]
    dsimp only
    split
    · exact .inl rfl
    · split
      · exact .inl rfl
      · exact .inr ⟨old, found, Function.update_self .., rfl⟩

end

theorem loaded_bounded (rt : Runtime) (ledger : Ledger) (package : AuditPackage) (keyring : Keyring)
    (bundle : PackageBundle) (loaded : loadBundleAt rt ledger package keyring = .ok bundle) :
    ∃ checkpoint, ledger.checkpoint package.checkpointId = some checkpoint := by
  rw [loadBundleAt, loadBundle] at loaded
  cases bounded : ledger.checkpoint package.checkpointId with
  | some checkpoint => exact ⟨checkpoint, rfl⟩
  | none =>
      simp only [pure_bind, bounded] at loaded
      cases loaded

theorem bundle_onward (rt : Runtime) (before after : Ledger) (chain : OneChain before.checkpoints)
    (rechained : OneChain after.checkpoints) (grows : LedgerGrows before after)
    (package attempt : AuditPackage) (same : attempt.identity = package.identity)
    (checkpoint : Checkpoint) (bounded : before.checkpoint package.checkpointId = some checkpoint)
    (keyring : Keyring) :
    loadBundleAt rt after attempt keyring = loadBundleAt rt before package keyring := by
  have rebounded : after.checkpoint attempt.checkpointId = some checkpoint := by
    have boundary : attempt.checkpointId = package.checkpointId := by
      simp only [AuditPackage.identity, Prod.mk.injEq] at same
      exact same.2.2.2.2.2.1
    rw [boundary]
    exact grown_checkpoint before after grows _ checkpoint bounded
  have frozen := bundle_frozen rt before chain package attempt same checkpoint bounded keyring keyring
    (fun _ _ => rfl)
    (fun _ => after) fun _ => grows
  have still := bundle_frozen rt after rechained attempt attempt rfl checkpoint rebounded keyring
    keyring (fun _ _ => rfl)
    (fun _ => after) fun _ => ledger_grows_refl _
  exact still.symm.trans frozen

section

variable (env : Exporting)

-- The artifact is the archive that is built of its package.
def Archived (ledger : Ledger) (row : AuditPackage) (artifact : AuditPackageArtifact) : Prop :=
  ∃ keyring archive, (loadBundleAt env.toRuntime ledger row keyring >>= buildArchive env) = .ok archive ∧
    artifact.zipContent = archive.content ∧ artifact.sha256 = archive.sha256 ∧
    artifact.sizeBytes = archive.sizeBytes ∧
    row.eventCount = some archive.eventCount

theorem archived_onward (before after : Ledger) (chain : OneChain before.checkpoints)
    (rechained : OneChain after.checkpoints) (grows : LedgerGrows before after) (row : AuditPackage)
    (covered : Covered before row) (artifact : AuditPackageArtifact)
    (archived : Archived env before row artifact) : Archived env after row artifact := by
  obtain ⟨checkpoint, bounded, _⟩ := covered
  obtain ⟨keyring, archive, built, same⟩ := archived
  exact ⟨keyring, archive, by rw [bundle_onward env.toRuntime before after chain rechained grows row row
    rfl checkpoint bounded keyring, built], same⟩

variable {κ : Type}

def Delivered (store : AuditStore κ) : Prop := ∀ id row artifact, store.packages id = some row →
  store.artifacts row.packageId = some artifact → Archived env store.ledger row artifact

theorem archived_still (before after : AuditStore κ) (life : Lifecycle before) (lives : Lifecycle after)
    (chain : OneChain before.ledger.checkpoints) (rechained : OneChain after.ledger.checkpoints)
    (onward : Onward before after) (delivered : Delivered env before) (id : Nat) (row : AuditPackage)
    (artifact : AuditPackageArtifact) (found : after.packages id = some row)
    (stored : before.artifacts row.packageId = some artifact) :
    Archived env after.ledger row artifact := by
  obtain ⟨n, old, at_n, named, ready, _⟩ := life.stored row.packageId artifact stored
  obtain ⟨later, still, evolves⟩ := onward.rows n old at_n
  cases evolves.ready ready
  have same := lives.distinct n id old row still found (.inl named)
  subst same
  rw [found] at still
  cases still
  exact archived_onward env before.ledger after.ledger chain rechained onward.ledger row
    (life.covered n row at_n) artifact
    (delivered n row artifact at_n stored)

theorem archived_final (i : κ) (store : AuditStore κ) (choice : Choice) (claimed : AuditPackage)
    (archive : BuiltArchive) (chain : OneChain store.ledger.checkpoints)
    (lives : Lifecycle (store.answer i choice (.finalWrite claimed archive)).2)
    (recognized : Recognized claimed store) (keyring : Keyring) (start : Ledger)
    (rendered : Rendered claimed env keyring start (.ok archive) store.ledger) (id : Nat)
    (row : AuditPackage) (artifact : AuditPackageArtifact)
    (found : (store.answer i choice (.finalWrite claimed archive)).2.packages id = some row)
    (stored : (store.answer i choice (.finalWrite claimed archive)).2.artifacts row.packageId =
      some artifact) :
    store.artifacts row.packageId = some artifact ∨ Archived env store.ledger row artifact := by
  rcases final_write_stores i store choice claimed archive with unchanged | ⟨old, at_id, completed, artifacts⟩
  · rw [unchanged] at stored
    exact .inl stored
  · rw [artifacts] at stored
    by_cases same : row.packageId = old.packageId
    · rw [same, Function.update_self] at stored
      cases stored
      have one := lives.distinct id claimed.id row _ found completed (.inl same)
      subst one
      rw [completed] at found
      cases found
      obtain ⟨base, _, grows, based, built⟩ := rendered
      obtain ⟨bundle, loaded, _⟩ := (bind_ok _ _ _).mp built
      obtain ⟨checkpoint, bounded⟩ := loaded_bounded env.toRuntime base claimed keyring bundle loaded
      refine .inr ⟨keyring, archive, ?_, rfl, rfl, rfl, rfl⟩
      rw [bundle_onward env.toRuntime base store.ledger based chain grows claimed
        (old.complete archive choice.clock)
        (recognized old at_id) checkpoint bounded keyring]
      exact built
    · rw [Function.update_of_ne same] at stored
      exact .inl stored

end

section

variable {ι κ : Type} [DecidableEq ι] [Fintype ι] [DecidableEq κ] (env : Exporting) (calls : ι → Call)
  (jobs : κ → AuditCall)

omit [DecidableEq κ] in
theorem claims_before (before after : AuditStore κ) (onward : Onward before after)
    (claims : Claims jobs after) : Claims jobs before := by
  intro k claimed keyring call row found
  obtain ⟨later, still, evolves⟩ := onward.rows claimed.id row found
  exact evolves.same.symm.trans (claims k claimed keyring call later still)

omit [DecidableEq κ] in
theorem delivered_respond (i : κ) (query : AuditStatement) (store : AuditStore κ)
    (supply : Nat → Choice) (response : AuditResponse query) (next : AuditStore κ) (rest : Nat → Choice)
    (life : Lifecycle store) (lives : Lifecycle next) (chain : OneChain store.ledger.checkpoints)
    (careful : ∀ request, query = .sql request → CheckedBefore request store)
    (delivers : ∀ claimed archive, query = .sql (.finalWrite claimed archive) →
      Recognized claimed store ∧
      ∃ keyring start, Rendered claimed env keyring start (.ok archive) store.ledger)
    (answer : auditRespond i query store supply = some (response, next, rest))
    (delivered : Delivered env store) :
    Delivered env next := by
  obtain ⟨onward, same⟩ := onward_respond i query store supply response next rest life careful answer
  intro id row artifact found stored
  have kept : store.artifacts row.packageId = some artifact → Archived env next.ledger row artifact :=
    archived_still env store next life lives chain (same ▸ chain) onward delivered id row artifact found
  cases query with
  | sql request =>
      rw [auditRespond] at answer
      split at answer
      · cases answer
        exact kept stored
      · cases answer
        cases idle : (AuditStatement.sql request).delivers with
        | false =>
            rw [undelivering_artifacts i request idle store _ (answer_effects i store request
                (supply 0) life.filed (careful request rfl))] at stored
            exact kept stored
        | true =>
            cases request with
            | finalWrite claimed archive =>
                obtain ⟨recognized, keyring, start, rendered⟩ := delivers claimed archive rfl
                rcases archived_final env i store
                  (supply 0) claimed archive chain lives recognized keyring start rendered id row artifact
                  found stored with earlier | archived
                · exact kept earlier
                · rw [same]
                  exact archived
            | _ => cases idle
  | _ =>
      cases answer
      exact kept stored

theorem delivered_step (before after : Deployment ι κ)
    (reached : (deploy env calls jobs).Reaches before) (step : before.Step after)
    (given : ∀ i program, before.audit.sessions i = some program →
      Through ((forwardDiscipline κ).given (fun _ _ => Claims jobs)) i (Delivering env)
        (fun _ _ => True) program before.audit.store)
    (claims : Claims jobs before.audit.store) (delivered : Delivered env before.audit.store) :
    Delivered env after.audit.store := by
  have deployed := free_deployed env calls jobs before reached
  obtain ⟨next, onward, _⟩ := deployed_step False nameless nameless_unique env calls jobs _ _ deployed step
  have life := deployed.disciplined.inv.life
  have chain : OneChain before.audit.store.ledger.checkpoints := deployed.disciplined.inv.cursors.chain
  have rechained := next.disciplined.inv.cursors.chain
  cases step with
  | ledger after step =>
      exact fun id row artifact found stored =>
        archived_onward env _ _ chain rechained onward.ledger row (life.covered id row found)
        artifact (delivered id row artifact found stored)
  | audit after step =>
      obtain ⟨i, exec | crash⟩ := step
      · cases exec with
        | step query resume response store supply rest active answer =>
            obtain ⟨owed, _⟩ :=
              deployed.disciplined.verified i _ active _ deployed.disciplined.inv
                (audit_rely_refl False nameless i _)
            have pre : ((forwardDiscipline κ).given (fun _ _ => Claims jobs)).Pre i query
              before.audit.store := ⟨owed, claims⟩
            obtain ⟨delivers, _⟩ :=
              given i _ active _ deployed.disciplined.inv
                (((forwardDiscipline κ).given (fun _ _ => Claims jobs)).rely_refl i _) pre
            refine delivered_respond env i query before.audit.store supply response store rest life
              next.disciplined.inv.life chain
              (fun request is => ?_) delivers answer delivered
            subst is
            exact owed.1
      · cases crash with
        | step query resume active => exact delivered

theorem delivered_run (now : Deployment ι κ) (reached : (deploy env calls jobs).Reaches now)
    (claims : Claims jobs now.audit.store) :
    (∀ i program, now.audit.sessions i = some program →
      Through ((forwardDiscipline κ).given (fun _ _ => Claims jobs)) i (Delivering env)
        (fun _ _ => True) program now.audit.store) ∧
    Delivered env now.audit.store := by
  induction reached with
  | refl =>
      refine ⟨fun i program session => ?_, fun _ _ _ found => by cases found⟩
      cases session
      exact through_along ((forwardDiscipline κ).given (fun _ _ => Claims jobs)) i
        (Delivering env) _ _ (along_call env i jobs _)
  | tail run step ih =>
      obtain ⟨_, onward, _⟩ :=
        deployed_step False nameless nameless_unique env calls
          jobs _ _ (free_deployed env calls jobs _ run) step
      have earlier := claims_before jobs _ _ onward claims
      obtain ⟨given, delivered⟩ := ih earlier
      refine ⟨fun i => ?_, delivered_step env calls jobs _ _ run step given earlier delivered⟩
      exact deployment_through env calls jobs i (fun _ _ => Claims jobs) (Delivering env)
        (fun _ _ => True) _ _ run step (fun _ _ _ => earlier) (given i)

end

end CalibrationLedger
