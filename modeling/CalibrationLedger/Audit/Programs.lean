import CalibrationLedger.Audit.Discipline

set_option autoImplicit false

-- Every call of the audit services keeps to the discipline, and what is true when
-- it ends.
namespace CalibrationLedger

open JsonText Digest Interleaving Histories

-- The queries that change nothing.
def AuditQuery.reads : AuditQuery → Bool
  | .getCheckpoint _ => true
  | .latestCheckpoint => true
  | .countEvents _ _ => true
  | .readLedger => true
  | .selectByKey _ => true
  | .selectStatus _ => true
  | .selectEligible _ => true
  | .selectStale _ => true
  | .selectConsumer _ => true
  | .selectConsumerByKey _ => true
  | .reloadConsumer _ => true
  | _ => false

-- The queries that end a build_once call.
def AuditQuery.ends : AuditQuery → Bool
  | .finalWrite _ _ => true
  | .finishCancelled _ => true
  | .failOrCancel _ _ _ => true
  | _ => false

section

variable {κ : Type} [DecidableEq κ] {fenced : Prop} {names : κ → Option String}
variable {unique : ∀ i j owner, names i = some owner → names j = some owner → i = j} {i : κ}

omit [DecidableEq κ] in
theorem reads_leave (request : AuditQuery) (reads : request.reads = true) (store : AuditStore κ)
    (choice : Choice) :
    (store.answer i choice request).2 = store := by
  cases request <;> first | rfl | cases reads

theorem reads_free (request : AuditQuery) (reads : request.reads = true) (store : AuditStore κ) :
    AuditPrecondition fenced names i (.sql request) store := by
  cases request <;> first | exact ⟨trivial, fun _ => trivial⟩ | cases reads

-- What session i itself did so far.
structure OwnDeeds (i : κ) (entries : List (Entry κ)) (lines : List LogEntry)
    (acknowledged : List (Acknowledgement κ)) (store : AuditStore κ) : Prop where
  entries : entriesOf store.journal i = entries
  lines : logsOf store.logs i = lines
  acknowledged : acknowledgementsOf store.acknowledged i = acknowledged

-- Every build_once call that ended was reported.
def OutcomesReported (i : κ) (store : AuditStore κ) : Prop := logsOf store.logs i = outcomesOf store.journal i

theorem lasts_own_deeds (entries : List (Entry κ)) (lines : List LogEntry)
    (acknowledged : List (Acknowledgement κ)) :
    Lasts (auditDiscipline fenced names unique) i (OwnDeeds i entries lines acknowledged) :=
      fun _ _ _ beside did =>
  ⟨beside.journal.trans did.entries, beside.logs.trans did.lines, beside.acknowledged.trans did.acknowledged⟩

theorem outcomes_reported_rely (store now : AuditStore κ) (beside : AuditRely fenced names i store now)
    (even : OutcomesReported i store) : OutcomesReported i now := by
  unfold OutcomesReported outcomesOf at even ⊢
  rw [beside.journal, beside.logs]
  exact even

theorem lasts_outcomes_reported : Lasts (auditDiscipline fenced names unique) i (OutcomesReported i) :=
  fun store now _ beside even => outcomes_reported_rely store now beside even

theorem lasts_held (claimed : AuditPackage) :
    Lasts (auditDiscipline fenced names unique) i (fun store => fenced → Held names i claimed store) := by
  intro store now _ beside held fences
  obtain ⟨⟨owner, named, owned⟩, current⟩ := held fences
  refine ⟨⟨owner, named, owned⟩, fun row found leased => ?_⟩
  obtain ⟨⟨old, at_id, oldLeased⟩, claims⟩ :=
    beside.leases fences claimed.id row owner named found (leased.trans owned)
  obtain ⟨claim, last, own, given⟩ := current old at_id (oldLeased.trans owned.symm)
  exact ⟨claim, claims.trans last, own, given⟩

theorem upholds_query (bad : AuditError → AuditStore κ → Prop) (store : AuditStore κ) (request : AuditQuery)
    (good : Reply request → AuditStore κ → Prop)
    (lasts : ∀ reply, Lasts (auditDiscipline fenced names unique) i (good reply))
    (lastsBad : ∀ error, Lasts (auditDiscipline fenced names unique) i (bad error))
    (issues : ∀ now, Orderly fenced names now → AuditRely fenced names i store now →
      AuditPrecondition fenced names i (.sql request) now ∧ bad .database now ∧
        ∀ choice, good (now.answer i choice request).1 (now.answer i choice request).2) :
    Upholds (auditDiscipline fenced names unique) i good bad (query request) store := by
  refine upholds_bind _ _ _ _ (fun reply (now : AuditStore κ) =>
      reply.elim (bad .database now) fun reply => good reply now)
    _ lastsBad _ _ ?_ fun reply now _ found => ?_
  · refine upholds_statement _ _ _ _ _ _ (fun reply => ?_) fun now inv beside => ?_
    · cases reply with
      | some reply => exact lasts reply
      | none => exact lastsBad .database
    · obtain ⟨owed, gone, answers⟩ := issues now inv beside
      refine ⟨owed, fun response next before after answer => ?_⟩
      change auditRespond i (.sql request) now before = some (response, next, after) at answer
      unfold auditRespond at answer
      dsimp only at answer
      split at answer
      · cases answer
        exact gone
      · cases answer
        exact answers (before 0)
  · cases reply with
    | some reply => exact upholds_pure _ _ _ _ _ _ (lasts reply) found
    | none => exact upholds_throw _ _ _ _ _ _ (lastsBad .database) found

theorem upholds_read (bad : AuditError → AuditStore κ → Prop) (store : AuditStore κ) (request : AuditQuery)
    (reads : request.reads = true) (good : Reply request → AuditStore κ → Prop)
    (lasts : ∀ reply, Lasts (auditDiscipline fenced names unique) i (good reply))
    (lastsBad : ∀ error, Lasts (auditDiscipline fenced names unique) i (bad error))
    (learns : ∀ now, Orderly fenced names now → AuditRely fenced names i store now →
      bad .database now ∧ ∀ choice, good (now.answer i choice request).1 now) :
    Upholds (auditDiscipline fenced names unique) i good bad (query request) store := by
  refine upholds_query bad store request good lasts lastsBad fun now inv beside => ?_
  obtain ⟨gone, learnt⟩ := learns now inv beside
  refine ⟨reads_free request reads now, gone, fun choice => ?_⟩
  rw [reads_leave request reads now choice]
  exact learnt choice

omit [DecidableEq κ] in
-- The same of a query that is known to be one the session may issue.
theorem learns_query {D : Discipline (auditing κ)} (bad : AuditError → AuditStore κ → Prop)
    (store : AuditStore κ) (request : AuditQuery) (good : Reply request → AuditStore κ → Prop)
    (lasts : ∀ reply, Lasts D i (good reply)) (lastsBad : ∀ error, Lasts D i (bad error))
    (answers : ∀ now, D.Inv now → D.Rely i store now →
      bad .database now ∧ ∀ choice, good (now.answer i choice request).1 (now.answer i choice request).2) :
    Learns D i good bad (query request) store := by
  refine learns_bind _ _ _ _ (fun reply (now : AuditStore κ) =>
      reply.elim (bad .database now) fun reply => good reply now)
    _ lastsBad _ _ ?_ fun reply now _ found => ?_
  · refine learns_statement _ _ _ _ _ _ (fun reply => ?_) fun now inv beside _ response next before
      after answer => ?_
    · cases reply with
      | some reply => exact lasts reply
      | none => exact lastsBad .database
    · obtain ⟨gone, answers⟩ := answers now inv beside
      change auditRespond i (.sql request) now before = some (response, next, after) at answer
      unfold auditRespond at answer
      dsimp only at answer
      split at answer
      · cases answer
        exact gone
      · cases answer
        exact answers (before 0)
  · cases reply with
    | some reply => exact learns_pure _ _ _ _ _ _ (lasts reply) found
    | none => exact learns_throw _ _ _ _ _ _ (lastsBad .database) found

variable (kept : AuditStore κ → Prop) (lasts : Lasts (auditDiscipline fenced names unique) i kept)

include lasts

theorem keeps_read (request : AuditQuery) (reads : request.reads = true) :
    Keeps (auditDiscipline fenced names unique) i kept (query request) := fun store holds =>
  upholds_read _ store request reads _ (fun _ => lasts) (fun _ => lasts) fun now inv beside =>
    ⟨lasts store now inv beside holds, fun _ => lasts store now inv beside holds⟩

theorem keeps_raising {α : Type} (outcome : Py α) :
    Keeps (auditDiscipline fenced names unique) i kept (raising outcome) := by
  cases outcome with
  | ok value => exact keeps_pure _ _ _ lasts value
  | error error => exact keeps_throw _ _ _ lasts _

theorem keeps_clock (now : Option Instant) :
    Keeps (auditDiscipline fenced names unique) i kept (orClock now) := by
  cases now with
  | some moment => exact keeps_pure _ _ _ lasts moment
  | none =>
      intro store holds
      refine upholds_statement _ _ _ _ _ _ (fun _ => lasts) fun now inv beside =>
        ⟨trivial, fun response next before after answer => ?_⟩
      cases answer
      exact lasts store now inv beside holds

theorem keeps_uuid : Keeps (auditDiscipline fenced names unique) i kept (issue .uuidFactory) := by
  intro store holds
  refine upholds_statement _ _ _ _ _ _ (fun _ => lasts) fun now inv beside =>
    ⟨trivial, fun response next before after answer => ?_⟩
  cases answer
  exact lasts store now inv beside holds

theorem keeps_check (claimed : AuditPackage) :
    Keeps (auditDiscipline fenced names unique) i kept (checkBuildCancelled claimed) := by
  refine keeps_bind _ _ _ lasts _ _ (keeps_read kept lasts _ rfl) fun status => ?_
  split
  · exact keeps_throw _ _ _ lasts _
  · exact keeps_pure _ _ _ lasts _

theorem keeps_archive (env : Exporting) (claimed : AuditPackage) (keyring : Keyring) :
    Keeps (auditDiscipline fenced names unique) i kept (readArchive env claimed keyring) := by
  have check := keeps_check kept lasts claimed
  have read := keeps_read kept lasts .readLedger rfl
  refine keeps_bind _ _ _ lasts _ _ ?_ fun bundle => keeps_bind _ _ _ lasts _ _ check fun _ =>
    keeps_raising kept lasts _
  rw [loadBundle]
  refine keeps_bind _ _ _ lasts _ _ read fun ledger => ?_
  dsimp only
  split
  · exact keeps_raising kept lasts _
  · refine keeps_bind _ _ _ lasts _ _ check fun _ => keeps_bind _ _ _ lasts _ _ read fun ledger => ?_
    split
    · exact keeps_raising kept lasts _
    · refine keeps_bind _ _ _ lasts _ _ check fun _ => keeps_bind _ _ _ lasts _ _ ?_ fun entries => ?_
      · refine keeps_map _ _ _ lasts _ _ fun event => ?_
        refine keeps_bind _ _ _ lasts _ _ read fun ledger =>
          keeps_bind _ _ _ lasts _ _ (keeps_raising kept lasts _) fun receipt => ?_
        exact keeps_bind _ _ _ lasts _ _ check fun _ => keeps_pure _ _ _ lasts _
      · refine keeps_bind _ _ _ lasts _ _ ?_ ?_
        · exact keeps_raising kept lasts _
        · exact fun view => keeps_pure _ _ _ lasts _

omit lasts

theorem upholds_attempt {α : Type} (good : α → AuditStore κ → Prop)
    (bad worse : AuditError → AuditStore κ → Prop) (body : AuditTx α) (store : AuditStore κ)
    (lastsGood : ∀ value, Lasts (auditDiscipline fenced names unique) i (good value))
    (lastsBad : ∀ error, Lasts (auditDiscipline fenced names unique) i (bad error))
    (upholds : Upholds (auditDiscipline fenced names unique) i good bad body store) :
    Upholds (auditDiscipline fenced names unique) i (Post good bad) worse (attempt body) store := by
  refine verified_bind _ _ _ _ _ _ _ upholds fun outcome now _ found => ?_
  intro later inv beside
  cases outcome with
  | ok value => exact lastsGood value now later inv beside found
  | error error => exact lastsBad error now later inv beside found

-- What a terminal transaction leaves of what its session did.
def Ended (i : κ) (claimed : AuditPackage) (entries : List (Entry κ)) (lines : List LogEntry)
    (acknowledged : List (Acknowledgement κ)) : Except Rejection BuildResult → AuditStore κ → Prop
  | .ok result, store => ∃ entry exit, entry.id = claimed.id ∧ entry.action = .terminal exit claimed result ∧
      OwnDeeds i (entries ++ [entry]) lines acknowledged store
  | .error _, store => OwnDeeds i entries lines acknowledged store

theorem lasts_ended (claimed : AuditPackage) (entries : List (Entry κ)) (lines : List LogEntry)
    (acknowledged : List (Acknowledgement κ)) (reply : Except Rejection BuildResult) :
    Lasts (auditDiscipline fenced names unique) i (Ended i claimed entries lines acknowledged reply) := by
  cases reply with
  | ok result =>
      rintro store now inv beside ⟨entry, exit, named, is, did⟩
      exact ⟨entry, exit, named, is, lasts_own_deeds _ _ _ store now inv beside did⟩
  | error rejection => exact lasts_own_deeds entries lines acknowledged

theorem transact_ended (store : AuditStore κ) (exit : Exit) (claimed : AuditPackage)
    (decision : Decision BuildResult) (entries : List (Entry κ)) (lines : List LogEntry)
    (acknowledged : List (Acknowledgement κ)) (did : OwnDeeds i entries lines acknowledged store) :
    Ended i claimed entries lines acknowledged
      (store.transact i (.terminal exit claimed) claimed.id decision).1
      (store.transact i (.terminal exit claimed) claimed.id decision).2 := by
  have journaled : ∀ after : AuditStore κ, ∀ before left, after.journal = store.journal ++
      [⟨i, .terminal exit claimed decision.reply, claimed.id, before, left⟩] → after.logs = store.logs →
      after.acknowledged = store.acknowledged →
      Ended i claimed entries lines acknowledged (.ok decision.reply) after := by
    intro after before left isJournal isLogs isAcknowledged
    refine ⟨⟨i, .terminal exit claimed decision.reply, claimed.id, before, left⟩, exit, rfl, rfl,
      ?_, by rw [isLogs, did.lines], by rw [isAcknowledged, did.acknowledged]⟩
    rw [isJournal, entries_snoc, if_pos rfl, did.entries]
  rw [AuditStore.transact]
  cases written : decision.write with
  | none => exact journaled _ _ _ rfl rfl rfl
  | some row =>
      dsimp only
      split
      · exact did
      · cases delivered : decision.artifact with
        | none => exact journaled _ _ _ rfl rfl rfl
        | some artifact =>
            dsimp only
            split
            · exact did
            · exact journaled _ _ _ rfl rfl rfl

theorem upholds_ending (store : AuditStore κ) (claimed : AuditPackage) (entries : List (Entry κ))
    (lines : List LogEntry) (acknowledged : List (Acknowledgement κ))
    (asks : AuditTx (Except Rejection BuildResult))
    (upholds : Upholds (auditDiscipline fenced names unique) i (Ended i claimed entries lines acknowledged)
      (fun _ => OwnDeeds i entries lines acknowledged) asks store) :
    Upholds (auditDiscipline fenced names unique) i
      (fun result => Ended i claimed entries lines acknowledged (.ok result))
      (fun _ => OwnDeeds i entries lines acknowledged) (asks >>= committed) store := by
  refine upholds_bind _ _ _ _ _ _ (fun _ => lasts_own_deeds _ _ _) _ _ upholds fun reply now _ found => ?_
  cases reply with
  | ok result => exact upholds_pure _ _ _ _ _ _ (lasts_ended _ _ _ _ (.ok result)) found
  | error rejection => exact upholds_throw _ _ _ _ _ _ (lasts_own_deeds _ _ _) found

theorem upholds_build (env : Exporting) (claimed : AuditPackage) (keyring : Keyring)
    (entries : List (Entry κ)) (lines : List LogEntry) (acknowledged : List (Acknowledgement κ))
    (store : AuditStore κ) (held : fenced → Held names i claimed store)
    (did : OwnDeeds i entries lines acknowledged store) :
    Upholds (auditDiscipline fenced names unique) i
      (fun result => Ended i claimed entries lines acknowledged (.ok result))
      (fun _ => OwnDeeds i entries lines acknowledged) (buildOnce env claimed keyring) store := by
  have lastsBoth : Lasts (auditDiscipline fenced names unique) i fun now =>
      (fenced → Held names i claimed now) ∧ OwnDeeds i entries lines acknowledged now :=
    lasts_and _ i _ _ (lasts_held claimed) (lasts_own_deeds entries lines acknowledged)
  refine upholds_bind _ _ _ _ _ _ (fun _ => lasts_own_deeds _ _ _) _ _
    (upholds_attempt _ _ _ _ store (fun _ => lastsBoth) (fun _ => lastsBoth)
      (keeps_archive _ lastsBoth env claimed keyring store ⟨held, did⟩)) fun outcome now _ found => ?_
  have both : (fenced → Held names i claimed now) ∧ OwnDeeds i entries lines acknowledged now := by
    cases outcome <;> exact found
  have fail : ∀ code reason, Upholds (auditDiscipline fenced names unique) i
      (fun result => Ended i claimed entries lines acknowledged (.ok result))
      (fun _ => OwnDeeds i entries lines acknowledged)
      (query (.failOrCancel claimed code reason) >>= committed) now := fun code reason => by
    refine upholds_ending now claimed entries lines acknowledged _
      (upholds_query _ now _ _ (lasts_ended claimed entries lines acknowledged)
        (fun _ => lasts_own_deeds _ _ _) fun later inv beside => ?_)
    have still := lastsBoth now later inv beside both
    exact ⟨⟨trivial, still.1⟩, still.2,
      fun choice => transact_ended later .failOrCancel claimed _ _ _ _ still.2⟩
  cases outcome with
  | ok archive =>
      refine upholds_ending now claimed entries lines acknowledged _
        (upholds_query _ now _ _ (lasts_ended claimed entries lines acknowledged)
          (fun _ => lasts_own_deeds _ _ _) fun later inv beside => ?_)
      have still := lastsBoth now later inv beside both
      exact ⟨⟨trivial, still.1⟩, still.2,
        fun choice => transact_ended later .finalWrite claimed _ _ _ _ still.2⟩
  | error error =>
      cases error with
      | database => exact upholds_throw _ _ _ _ _ _ (lasts_own_deeds _ _ _) both.2
      | cancelRequested =>
          refine upholds_ending now claimed entries lines acknowledged _
            (upholds_query _ now _ _ (lasts_ended claimed entries lines acknowledged)
              (fun _ => lasts_own_deeds _ _ _) fun later inv beside => ?_)
          have still := lastsBoth now later inv beside both
          exact ⟨⟨trivial, still.1⟩, still.2,
            fun choice => transact_ended later .finishCancelled claimed _ _ _ _ still.2⟩
      | raised error =>
          cases error with
          | integrityError => exact upholds_throw _ _ _ _ _ _ (lasts_own_deeds _ _ _) both.2
          | ledger error => exact fail _ _
          | _ => exact fail _ _

omit [DecidableEq κ] in
theorem issued_outcome (request : AuditQuery) (action : Action) (id n : Nat)
    (before after : Option AuditPackage) (quiet : request.ends = false)
    (issued : Issues request action id) :
    Entry.outcome (⟨i, action, n, before, after⟩ : Entry κ) = none := by
  cases action with
  | terminal exit claimed returned => cases request <;> first | exact False.elim issued | cases quiet
  | _ => rfl

-- Only the transactions that end a build owe a line.
theorem outcomes_reported_effect (request : AuditQuery) (quiet : request.ends = false)
    (store after : AuditStore κ) (effect : Effect i request store after)
    (even : OutcomesReported i store) : OutcomesReported i after := by
  have silent : ∀ (entry : Entry κ), entry.outcome = none →
      outcomesOf (store.journal ++ [entry]) i = outcomesOf store.journal i := by
    intro entry none
    rw [outcomesOf, outcomesOf, entries_snoc, List.filterMap_append]
    by_cases own : entry.caller = i <;> simp [own, none]
  unfold OutcomesReported at even ⊢
  cases effect with
  | created row new fresh apart => exact even.trans (silent _ rfl).symm
  | moved action id old new artifacts issued found moves delivers =>
      exact even.trans (silent _ (issued_outcome request action id _ _ _ quiet issued)).symm
  | declined action id issued declines =>
      exact even.trans (silent _ (issued_outcome request action id _ _ _ quiet issued)).symm
  | registered row new unread apart => exact even
  | advanced id consumer row checkpointId found follows moved named => exact even

theorem outcomes_reported_effects (request : AuditQuery) (quiet : request.ends = false)
    (store after : AuditStore κ) (effects : Effects i request store after)
    (even : OutcomesReported i store) : OutcomesReported i after := by
  induction effects with
  | refl => exact even
  | tail _ effect ih => exact outcomes_reported_effect request quiet _ _ effect ih

theorem upholds_outcomes_reported (store : AuditStore κ) (request : AuditQuery) (quiet : request.ends = false)
    (good : Reply request → AuditStore κ → Prop)
    (lasts : ∀ reply, Lasts (auditDiscipline fenced names unique) i (good reply))
    (even : OutcomesReported i store)
    (issues : ∀ now, Orderly fenced names now → AuditRely fenced names i store now →
      AuditPrecondition fenced names i (.sql request) now ∧
        ∀ choice, good (now.answer i choice request).1 (now.answer i choice request).2) :
    Upholds (auditDiscipline fenced names unique) i (fun reply now => OutcomesReported i now ∧
        good reply now) (fun _ => OutcomesReported i)
      (query request) store := by
  refine upholds_query _ store request _ (fun reply => lasts_and _ i _ _ lasts_outcomes_reported
      (lasts reply)) (fun _ => lasts_outcomes_reported)
    fun now inv beside => ?_
  obtain ⟨owed, answers⟩ := issues now inv beside
  have still := outcomes_reported_rely store now beside even
  exact ⟨owed, still, fun choice => ⟨outcomes_reported_effects request quiet now _
    (answer_effects i now request choice inv.life.filed owed.1) still, answers choice⟩⟩

-- What a claim leaves of what its session did.
def Granted (i : κ) (entries : List (Entry κ)) (lines : List LogEntry)
    (acknowledged : List (Acknowledgement κ)) :
    Option AuditPackage → AuditStore κ → Prop
  | none, store => OwnDeeds i entries lines acknowledged store
  | some claimed, store => ∃ entry workerId moment, entry.id = claimed.id ∧
      entry.action = .claim workerId moment ∧
      entry.after = some claimed ∧ OwnDeeds i (entries ++ [entry]) lines acknowledged store

theorem lasts_granted (entries : List (Entry κ)) (lines : List LogEntry)
    (acknowledged : List (Acknowledgement κ)) (found : Option AuditPackage) :
    Lasts (auditDiscipline fenced names unique) i (Granted i entries lines acknowledged found) := by
  cases found with
  | none => exact lasts_own_deeds entries lines acknowledged
  | some claimed =>
      rintro store now inv beside ⟨entry, workerId, moment, named, is, left, did⟩
      exact ⟨entry, workerId, moment, named, is, left, lasts_own_deeds _ _ _ store now inv beside did⟩

-- The claim is the session's to build.
def Claimed (fenced : Prop) (names : κ → Option String) (i : κ) (found : Option AuditPackage)
    (store : AuditStore κ) : Prop :=
  ∀ claimed, found = some claimed → fenced → Held names i claimed store

theorem lasts_claimed (found : Option AuditPackage) :
    Lasts (auditDiscipline fenced names unique) i (Claimed fenced names i found) :=
  fun store now inv beside held claimed is => lasts_held claimed store now inv beside (held claimed is)

-- What the reply to a claim says.
def Replied (good : Option AuditPackage → AuditStore κ → Prop) (other : AuditStore κ → Prop) :
    Except Rejection (Py (Option AuditPackage)) → AuditStore κ → Prop
  | .ok (.ok found), store => good found store
  | _, store => other store

theorem claim_replied (store : AuditStore κ) (workerId : String) (moment : Instant)
    (expires : Py Instant) (candidate : Option AuditPackage) (named : fenced → names i = some workerId)
    (entries : List (Entry κ)) (lines : List LogEntry) (acknowledged : List (Acknowledgement κ))
    (did : OwnDeeds i entries lines acknowledged store) :
    Replied (fun found now => Granted i entries lines acknowledged found now ∧
      Claimed fenced names i found now)
      (OwnDeeds i entries lines acknowledged) (store.claim i workerId moment expires candidate).1
      (store.claim i workerId moment expires candidate).2 := by
  cases candidate with
  | none => exact ⟨did, fun _ none => by cases none⟩
  | some row =>
      cases expires with
      | error _ => exact did
      | ok expires =>
          rw [AuditStore.claim, AuditStore.transact]
          dsimp only
          by_cases shaped : (row.claim workerId moment expires).stateShape = true
          · rw [if_neg (by simp [shaped])]
            constructor
            · refine ⟨⟨i, .claim workerId moment, row.id, store.packages row.id,
                some (row.claim workerId moment expires)⟩,
                workerId, moment, rfl, rfl, rfl, ?_, did.lines, did.acknowledged⟩
              rw [AuditStore.put, entries_snoc, if_pos rfl, did.entries]
              rfl
            · rintro _ ⟨⟩ fences
              refine ⟨⟨workerId, named fences, rfl⟩, fun _ _ _ => ?_⟩
              refine ⟨⟨i, .claim workerId moment, row.id, store.packages row.id,
                some (row.claim workerId moment expires)⟩, ?_, rfl, rfl⟩
              rw [AuditStore.put, last_claim_snoc]
              exact if_pos (decide_eq_true rfl)
          · rw [if_pos (by simp [shaped])]
            exact did

theorem upholds_claim (postgresql : Bool) (workerId : String) (leaseDuration : Int)
    (now : Option Instant) (store : AuditStore κ) (named : fenced → names i = some workerId)
    (entries : List (Entry κ)) (lines : List LogEntry) (acknowledged : List (Acknowledgement κ))
    (did : OwnDeeds i entries lines acknowledged store) :
    Upholds (auditDiscipline fenced names unique) i
      (fun found now => Granted i entries lines acknowledged found now ∧ Claimed fenced names i found now)
      (fun _ => OwnDeeds i entries lines acknowledged)
      (claimPackage postgresql workerId leaseDuration now) store := by
  have lastsDid : Lasts (auditDiscipline fenced names unique) i
    (OwnDeeds i entries lines acknowledged) := lasts_own_deeds entries lines acknowledged
  have lastsGood : ∀ found, Lasts (auditDiscipline fenced names unique) i fun now =>
      Granted i entries lines acknowledged found now ∧ Claimed fenced names i found now :=
    fun found => lasts_and _ i _ _ (lasts_granted entries lines acknowledged found) (lasts_claimed found)
  have lastsReply : ∀ reply, Lasts (auditDiscipline fenced names unique) i (Replied
      (fun found now => Granted i entries lines acknowledged found now ∧ Claimed fenced names i found now)
      (OwnDeeds i entries lines acknowledged) reply) := by
    rintro (rejection | error | found)
    · exact lastsDid
    · exact lastsDid
    · exact lastsGood found
  have granted : ∀ reply now, Replied
      (fun found now => Granted i entries lines acknowledged found now ∧ Claimed fenced names i found now)
      (OwnDeeds i entries lines acknowledged) reply now →
      Upholds (auditDiscipline fenced names unique) i
        (fun found now => Granted i entries lines acknowledged found now ∧ Claimed fenced names i found now)
        (fun _ => OwnDeeds i entries lines acknowledged) (committed reply >>= raising) now := by
    rintro (rejection | error | found) now held
    · exact upholds_throw _ _ _ _ _ _ lastsDid held
    · exact upholds_throw _ _ _ _ _ _ lastsDid held
    · exact upholds_pure _ _ _ _ _ _ (lastsGood found) held
  refine upholds_keeping _ _ _ _ _ _ (fun _ => lastsDid) _ _ (keeps_clock _ lastsDid now) did (fun _ _ => id)
    fun moment later _ did => ?_
  cases postgresql with
  | true =>
      refine upholds_bind _ _ _ _ _ _ (fun _ => lastsDid) _ _ (upholds_query _ later
        (.claimSkipLocked workerId moment leaseDuration) _ lastsReply
          (fun _ => lastsDid) fun now inv beside => ?_)
        fun reply last _ found => granted reply last found
      have still := lastsDid later now inv beside did
      exact ⟨⟨trivial, named⟩, still, fun choice => claim_replied now workerId moment _ _ named _ _ _ still⟩
  | false =>
      refine upholds_keeping _ _ _ _ _ _ (fun _ => lastsDid) _ _ (keeps_read _ lastsDid
          (.selectEligible moment) rfl) did
        (fun _ _ => id) fun candidate now _ did => ?_
      cases candidate with
      | none => exact upholds_pure _ _ _ _ _ _ (lastsGood none) ⟨did, fun _ none => by cases none⟩
      | some id =>
          refine upholds_keeping _ _ _ _ _ _ (fun _ => lastsDid) _ _ (keeps_raising _ lastsDid _) did
            (fun _ _ same => same)
            fun expires last _ did => ?_
          refine upholds_bind _ _ _ _ _ _ (fun _ => lastsDid) _ _ (upholds_query _ last
            (.claimById id workerId moment expires) _ lastsReply (fun _ => lastsDid) fun now inv beside => ?_)
            fun reply final _ found => granted reply final found
          have still := lastsDid last now inv beside did
          exact ⟨⟨trivial, named⟩, still,
            fun choice => claim_replied now workerId moment _ _ named _ _ _ still⟩

-- Rows to settle, each read as cancelling with its lease over.
def DueToSettle (moment : Instant) (ids : List Nat) (store : AuditStore κ) : Prop :=
  ∀ id ∈ ids, ∃ row, store.packages id = some row ∧
    (row.status = .cancelled ∨ row.stale moment = true)

omit [DecidableEq κ] in
theorem due_to_settle_evolves (moment : Instant) (ids : List Nat) (store after : AuditStore κ)
    (due : DueToSettle moment ids store)
    (evolves : ∀ id row, store.packages id = some row → ∃ later, after.packages id = some later ∧
      Evolves row later) :
    DueToSettle moment ids after := by
  intro id inside
  obtain ⟨row, found, done | stale⟩ := due id inside
  · obtain ⟨later, at_id, onward⟩ := evolves id row found
    exact ⟨later, at_id, .inl (onward.cancelled done)⟩
  · obtain ⟨later, at_id, onward⟩ := evolves id row found
    rcases onward.cancelling (stale_status row moment stale).1 with done | rfl
    · exact ⟨later, at_id, .inl done⟩
    · exact ⟨later, at_id, .inr stale⟩

theorem lasts_due_to_settle (moment : Instant) (ids : List Nat) :
    Lasts (auditDiscipline fenced names unique) i (DueToSettle moment ids) :=
  fun store now _ beside due => due_to_settle_evolves moment ids store now due beside.rows

theorem upholds_settle_each (moment : Instant) (ids : List Nat) (store : AuditStore κ)
    (even : OutcomesReported i store) (due : DueToSettle moment ids store) :
    Upholds (auditDiscipline fenced names unique) i (fun _ => OutcomesReported i)
      (fun _ => OutcomesReported i) (settleEach moment ids) store := by
  induction ids generalizing store with
  | nil => exact upholds_pure _ _ _ _ _ _ lasts_outcomes_reported even
  | cons id rest ih =>
      rw [settleEach]
      refine upholds_bind _ _ _ _ _ _ (fun _ =>
          lasts_outcomes_reported) _ _ (upholds_outcomes_reported store (.settleById id moment) rfl
        (fun _ => DueToSettle moment rest)
        (fun _ => lasts_due_to_settle moment rest) even fun now inv beside => ?_) fun reply now _ found => ?_
      · have still := due_to_settle_evolves moment (id :: rest) store now due beside.rows
        have careful : CheckedBefore (.settleById id moment) now := by
          intro row found
          obtain ⟨held, at_id, ready⟩ := still id List.mem_cons_self
          rw [found] at at_id
          cases at_id
          exact ready
        refine ⟨⟨careful, fun _ => trivial⟩,
          fun choice => due_to_settle_evolves moment rest now _ (fun n inside =>
            still n (List.mem_cons_of_mem id inside))
          fun n row found => ?_⟩
        exact (evolves_effects i now _ _ (answer_effects i now _ choice inv.life.filed careful) inv.life
            n row found).2
      · cases reply with
        | error rejection => exact upholds_throw _ _ _ _ _ _ lasts_outcomes_reported found.1
        | ok settled =>
            change Upholds _ i _ _ (settleEach moment rest >>= fun more => pure (settled.toList ++ more)) now
            exact upholds_bind _ _ _ _ (fun _ => OutcomesReported i) _ (fun _ =>
                lasts_outcomes_reported) _ _ (ih now found.1 found.2)
              fun more later _ even => upholds_pure _ _ _ _ _ _ lasts_outcomes_reported even

theorem upholds_settle (postgresql : Bool) (now : Option Instant) (store : AuditStore κ)
    (even : OutcomesReported i store) :
    Upholds (auditDiscipline fenced names unique) i (fun _ => OutcomesReported i)
      (fun _ => OutcomesReported i) (settleStaleCancelling postgresql now)
      store := by
  refine upholds_bind _ _ _ _ (fun _ => OutcomesReported i) _ (fun _ =>
      lasts_outcomes_reported) _ _ (keeps_clock _ lasts_outcomes_reported now store even)
    fun moment later _ even => ?_
  cases postgresql with
  | true =>
      refine upholds_bind _ _ _ _ _ _ (fun _ =>
          lasts_outcomes_reported) _ _ (upholds_outcomes_reported later (.settleSkipLocked moment) rfl
        (fun _ _ => True) (fun _ _ _ _ _ _ => trivial) even fun now _ _ =>
          ⟨⟨trivial, fun _ => trivial⟩, fun _ => trivial⟩)
        fun reply last _ found => ?_
      cases reply with
      | error rejection => exact upholds_throw _ _ _ _ _ _ lasts_outcomes_reported found.1
      | ok settled => exact upholds_pure _ _ _ _ _ _ lasts_outcomes_reported found.1
  | false =>
      refine upholds_bind _ _ _ _ _ _ (fun _ =>
          lasts_outcomes_reported) _ _ (upholds_outcomes_reported later (.selectStale moment) rfl
        (fun ids => DueToSettle moment ids)
        (fun ids => lasts_due_to_settle moment ids) even fun now inv _ =>
          ⟨⟨trivial, fun _ => trivial⟩, fun choice id inside => ?_⟩)
        fun ids last _ found => upholds_settle_each moment ids last found.1 found.2
      obtain ⟨row, member, rfl⟩ := List.mem_map.mp inside
      obtain ⟨listed, stale⟩ := List.mem_filter.mp member
      exact ⟨row, (mem_rows now inv.life.filed row).mp listed, .inr stale⟩

theorem upholds_line (store : AuditStore κ) (line : LogEntry) (owed : line.isOutcome = true →
      logsOf store.logs i ++ [line] = outcomesOf store.journal i)
    (even : line.isOutcome = false → OutcomesReported i store) :
    Upholds (auditDiscipline fenced names unique) i (fun _ => OutcomesReported i)
        (fun _ => OutcomesReported i) (issue (.log line)) store := by
  refine upholds_statement _ _ _ _ _ _ (fun _ => lasts_outcomes_reported) fun now inv beside => ?_
  have lines : logsOf now.logs i = logsOf store.logs i := beside.logs
  have outcomes : outcomesOf now.journal i = outcomesOf store.journal i :=
    congrArg (List.filterMap Entry.outcome) beside.journal
  refine ⟨fun outcome => ?_, fun response next before after answer => ?_⟩
  · rw [lines, outcomes, owed outcome]
  · cases answer
    unfold OutcomesReported
    rw [logs_snoc, lines, outcomes]
    cases outcome : line.isOutcome with
    | true => simpa using owed outcome
    | false => simpa [OutcomesReported] using even outcome

theorem keeps_settled (packages : List AuditPackage) :
    Keeps (auditDiscipline fenced names unique) i (OutcomesReported i) (logSettled packages) := by
  induction packages with
  | nil => exact keeps_pure _ _ _ lasts_outcomes_reported _
  | cons package rest ih =>
      refine keeps_bind _ _ _ lasts_outcomes_reported _ _ (fun store even => ?_) fun _ => ih
      exact upholds_line store _ (by simp [LogEntry.isOutcome]) fun _ => even

theorem outcome_logged (claimed : AuditPackage) (result : BuildResult) :
    (outcomeEntry claimed result).isOutcome = true := by
  unfold outcomeEntry
  split <;> simp [LogEntry.isOutcome]

theorem outcomes_reported_own_deeds (store : AuditStore κ) (entries : List (Entry κ)) (lines : List LogEntry)
    (acknowledged : List (Acknowledgement κ)) (did : OwnDeeds i entries lines acknowledged store)
    (same : lines = entries.filterMap Entry.outcome) : OutcomesReported i store := by
  unfold OutcomesReported outcomesOf
  rw [did.lines, did.entries, same]

theorem keeps_poll (env : Exporting) (exporter : Exporter)
    (named : fenced → names i = some exporter.workerId) :
    Keeps (auditDiscipline fenced names unique) i (OutcomesReported i) (exporterPoll env exporter) := by
  refine keeps_bind _ _ _ lasts_outcomes_reported _ _ (fun store even =>
      upholds_settle exporter.postgresql none store even) fun settled => ?_
  refine keeps_bind _ _ _ lasts_outcomes_reported _ _ (keeps_settled settled) fun _ store even => ?_
  have same : logsOf store.logs i = (entriesOf store.journal i).filterMap Entry.outcome := even
  refine upholds_bind _ _ _ _ _ _ (fun _ =>
      lasts_outcomes_reported) _ _ (upholds_mono _ _ _ _ _ _ _ _ (fun _ _ => id)
    (fun _ later did => outcomes_reported_own_deeds later _ _ _ did same)
    (upholds_claim exporter.postgresql exporter.workerId exporter.leaseDuration
      none store named _ _ _ ⟨rfl, rfl, rfl⟩)) fun found now _ held => ?_
  cases found with
  | none =>
      exact upholds_pure _ _ _ _ _ _ lasts_outcomes_reported
        (outcomes_reported_own_deeds now _ _ _ held.1 same)
  | some claimed =>
      obtain ⟨⟨claim, workerId, moment, _, is, _, did⟩, held⟩ := held
      have still : logsOf store.logs i = (entriesOf store.journal i ++ [claim]).filterMap Entry.outcome := by
        rw [List.filterMap_append, same]
        simp [Entry.outcome, is]
      refine upholds_bind _ _ _ _ _ _ (fun _ =>
          lasts_outcomes_reported) _ _ (upholds_mono _ _ _ _ _ _ _ _ (fun _ _ => id)
        (fun _ later did => outcomes_reported_own_deeds later _ _ _ did still)
        (upholds_build env claimed exporter.keyring _ _ _ now (held claimed rfl) did)) fun result
          later _ ended => ?_
      obtain ⟨entry, exit, named, is, did⟩ := ended
      refine upholds_line later _ (fun _ => ?_) fun silent => ?_
      · rw [did.lines, outcomesOf, did.entries, List.filterMap_append, still]
        simp [Entry.outcome, is]
      · rw [outcome_logged] at silent
        cases silent

theorem keeps_exporter (env : Exporting) (exporter : Exporter) (polls : Nat)
    (named : fenced → names i = some exporter.workerId) :
    Keeps (auditDiscipline fenced names unique) i (OutcomesReported i) (runExporter env exporter polls) := by
  induction polls with
  | zero => exact keeps_pure _ _ _ lasts_outcomes_reported _
  | succ polls ih =>
      have gone : Keeps (auditDiscipline fenced names unique) i (OutcomesReported i)
          (issue (.log .databaseUnavailable) >>= fun _ => runExporter env exporter polls) :=
        keeps_bind _ _ _ lasts_outcomes_reported _ _ (fun store even =>
            upholds_line store _ (by simp [LogEntry.isOutcome]) fun _ => even) fun _ => ih
      intro store even
      refine upholds_bind _ _ _ _ _ _ (fun _ =>
          lasts_outcomes_reported) _ _ (upholds_attempt _ _ _ _ store (fun _ => lasts_outcomes_reported)
        (fun _ => lasts_outcomes_reported) (keeps_poll env exporter named store even)) fun outcome
          now _ found => ?_
      cases outcome with
      | ok done => exact ih now found
      | error error =>
          cases error with
          | database => exact gone now found
          | cancelRequested => exact upholds_throw _ _ _ _ _ _ lasts_outcomes_reported found
          | raised error =>
              cases error with
              | integrityError => exact gone now found
              | _ => exact upholds_throw _ _ _ _ _ _ lasts_outcomes_reported found

-- A boundary that was read stays what it was.
def BoundaryRead (checkpoint : Checkpoint) (store : AuditStore κ) : Prop :=
  store.ledger.checkpoint checkpoint.checkpointId = some checkpoint

theorem lasts_boundary_read (checkpoint : Checkpoint) :
    Lasts (auditDiscipline fenced names unique) i (BoundaryRead checkpoint) :=
      fun store now _ beside bounded =>
  grown_checkpoint store.ledger now.ledger beside.ledger _ checkpoint bounded

omit [DecidableEq κ] in
theorem found_boundary_read (checkpointId : Uuid) (store : AuditStore κ) (checkpoint : Checkpoint)
    (found : store.ledger.checkpoint checkpointId = some checkpoint) :
    checkpoint.checkpointId = checkpointId ∧ BoundaryRead checkpoint store := by
  have named : checkpoint.checkpointId = checkpointId := by simpa using List.find?_some found
  exact ⟨named, by rw [BoundaryRead, named, found]⟩

omit [DecidableEq κ] in
theorem latest_boundary_read (store : AuditStore κ) (cursors : Cursors store) (checkpoint : Checkpoint)
    (found : latest store.ledger.checkpoints = some checkpoint) : BoundaryRead checkpoint store :=
  distinct_found store.ledger.checkpoints cursors.chain.distinct checkpoint (latest_some _ checkpoint found).1

theorem lasts_found (found : Option Checkpoint) : Lasts (auditDiscipline fenced names unique) i fun now =>
    ∀ checkpoint, found = some checkpoint → BoundaryRead checkpoint now :=
  fun before now inv beside bounded checkpoint is =>
    lasts_boundary_read checkpoint before now inv beside (bounded checkpoint is)

omit [DecidableEq κ] in
theorem lasts_true (D : Discipline (auditing κ)) : Lasts D i (fun _ => True) := fun _ _ _ _ _ => trivial

theorem upholds_boundary (checkpointId : Option Uuid) (store : AuditStore κ) :
    Upholds (auditDiscipline fenced names unique) i BoundaryRead (fun _ _ => True)
      (resolveBoundary checkpointId) store := by
  cases checkpointId with
  | some checkpointId =>
      refine upholds_bind _ _ _ _ _ _ (fun _ => lasts_true _) _ _ (upholds_read _ store
        (.getCheckpoint checkpointId) rfl _ lasts_found (fun _ => lasts_true _) fun now inv _ =>
          ⟨trivial, fun choice checkpoint found =>
            (found_boundary_read checkpointId now checkpoint found).2⟩) fun found now _ bounded => ?_
      cases found with
      | none => exact upholds_throw _ _ _ _ _ _ (lasts_true _) trivial
      | some checkpoint =>
          exact upholds_pure _ _ _ _ _ _ (lasts_boundary_read checkpoint) (bounded checkpoint rfl)
  | none =>
      refine upholds_bind _ _ _ _ _ _ (fun _ =>
          lasts_true _) _ _ (upholds_read _ store .latestCheckpoint rfl _
        lasts_found (fun _ => lasts_true _) fun now inv _ =>
          ⟨trivial, fun choice checkpoint found =>
            latest_boundary_read now inv.cursors checkpoint found⟩) fun found now _ bounded => ?_
      cases found with
      | none => exact upholds_throw _ _ _ _ _ _ (lasts_true _) trivial
      | some checkpoint =>
          exact upholds_pure _ _ _ _ _ _ (lasts_boundary_read checkpoint) (bounded checkpoint rfl)

theorem new_package_fresh (rt : Runtime) (packageId : Uuid) (idempotencyKey instrumentId : String)
    (checkpoint : Checkpoint) (now : Instant) (draft : AuditPackage) (ledger : Ledger)
    (made : newPackage rt packageId idempotencyKey instrumentId checkpoint now = .ok draft)
    (bounded : ledger.checkpoint checkpoint.checkpointId = some checkpoint)
    (events : ledger.instrumentEvents instrumentId checkpoint.lastEventSequence ≠ []) :
    Fresh ledger draft := by
  obtain ⟨requestFingerprint, _, made⟩ := (bind_ok _ _ _).mp made
  cases made
  exact ⟨rfl, by constructor <;> simp, rfl, checkpoint, bounded, events⟩

-- What every draft starts from.
def DraftCounted (instrumentId : String) (checkpoint : Checkpoint) (store : AuditStore κ) : Prop :=
  BoundaryRead checkpoint store ∧ store.ledger.instrumentEvents instrumentId checkpoint.lastEventSequence ≠ []

theorem lasts_draft_counted (instrumentId : String) (checkpoint : Checkpoint) :
    Lasts (auditDiscipline fenced names unique) i (DraftCounted instrumentId checkpoint) := by
  rintro store now inv beside ⟨bounded, events⟩
  refine ⟨lasts_boundary_read checkpoint store now inv beside bounded, ?_⟩
  rw [instrument_events_kept store.ledger now.ledger beside.ledger checkpoint
    (List.mem_of_find?_eq_some bounded)]
  exact events

theorem keeps_replay (outcome : Py AuditPackage) :
    Keeps (auditDiscipline fenced names unique) i (fun _ => True)
    (raising outcome >>= fun package => (pure (package, false) : AuditTx (AuditPackage × Bool))) :=
  keeps_bind _ _ _ (lasts_true _) _ _ (keeps_raising _ (lasts_true _) outcome) fun _ =>
    keeps_pure _ _ _ (lasts_true _) _

theorem upholds_insert (rt : Runtime) (instrumentId idempotencyKey : String) (checkpoint : Checkpoint)
    (explicit : Option Uuid) (store : AuditStore κ)
    (counted : DraftCounted instrumentId checkpoint store) :
    Upholds (auditDiscipline fenced names unique) i (fun _ _ => True) (fun _ _ => True) (do
      let now ← issue .clock
      let packageId ← issue .uuidFactory
      let draft ← raising (newPackage rt packageId idempotencyKey instrumentId checkpoint now)
      match ← query (.insertPackage draft) with
      | .ok package => return (package, true)
      | .error _ =>
          match ← query (.selectByKey idempotencyKey) with
          | some existing => return (← raising (replayPackage existing instrumentId explicit), false)
          | none => throw (.raised .integrityError)) store := by
  have lasts : Lasts (auditDiscipline fenced names unique) i (DraftCounted instrumentId checkpoint) :=
    lasts_draft_counted instrumentId checkpoint
  refine upholds_keeping _ _ _ _ _ _ (fun _ => lasts_true _) _ _ (keeps_clock _ lasts none) counted
    (fun _ _ _ => trivial)
    fun now store _ counted => ?_
  refine upholds_keeping _ _ _ _ _ _ (fun _ => lasts_true _) _ _ (keeps_uuid _ lasts) counted
    (fun _ _ _ => trivial)
    fun packageId store _ counted => ?_
  cases made : newPackage rt packageId idempotencyKey instrumentId checkpoint now with
  | error error => exact upholds_throw _ _ _ _ _ _ (lasts_true _) trivial
  | ok draft =>
      change Upholds _ i _ _ (query (.insertPackage draft) >>= _) store
      refine upholds_bind _ _ _ _ (fun _ _ => True) _ (fun _ => lasts_true _) _ _ (upholds_query _ store
        (.insertPackage draft) _
        (fun _ => lasts_true _) (fun _ => lasts_true _) fun now inv beside => ?_) fun reply now _ _ => ?_
      · obtain ⟨bounded, events⟩ := lasts store now inv beside counted
        exact ⟨⟨new_package_fresh rt packageId idempotencyKey instrumentId checkpoint _ draft now.ledger
          made bounded events,
          fun _ => trivial⟩, trivial, fun _ => trivial⟩
      · cases reply with
        | ok package => exact upholds_pure _ _ _ _ _ _ (lasts_true _) trivial
        | error rejection =>
            refine keeps_bind _ _ _ (lasts_true _) _ _ (keeps_read _ (lasts_true _) _ rfl)
              (fun existing => ?_) now trivial
            cases existing with
            | some existing => exact keeps_replay _
            | none => exact keeps_throw _ _ _ (lasts_true _) _

theorem keeps_create (rt : Runtime) (instrumentId idempotencyKey : String) (checkpointId : Option Uuid) :
    Keeps (auditDiscipline fenced names unique) i (fun _ => True)
      (createPackage rt instrumentId idempotencyKey checkpointId) := by
  refine keeps_bind _ _ _ (lasts_true _) _ _ (keeps_read _ (lasts_true _) _ rfl) fun existing => ?_
  cases existing with
  | some existing => exact keeps_replay _
  | none =>
      intro store _
      refine upholds_bind _ _ _ _ _ _ (fun _ => lasts_true _) _ _ (upholds_boundary checkpointId store)
        fun checkpoint now _ bounded => ?_
      refine upholds_bind _ _ _ _ (fun count later => count ≠ 0 →
          DraftCounted instrumentId checkpoint later) _ (fun _ => lasts_true _) _ _
        (upholds_read _ now (.countEvents instrumentId checkpoint.lastEventSequence) rfl _
          (fun count before later inv beside counted nonzero =>
            lasts_draft_counted instrumentId checkpoint before later inv beside (counted nonzero))
          (fun _ => lasts_true _) fun later inv beside =>
            ⟨trivial, fun choice nonzero => ?_⟩) fun count later _ counted => ?_
      · exact ⟨grown_checkpoint now.ledger later.ledger beside.ledger _ checkpoint bounded,
          fun empty => nonzero (List.length_eq_zero_iff.mpr empty)⟩
      · split
        · exact upholds_throw _ _ _ _ _ _ (lasts_true _) trivial
        · rename_i nonzero
          exact upholds_insert rt instrumentId idempotencyKey checkpoint checkpointId later (counted nonzero)

theorem upholds_reply {α : Type} (good : α → AuditStore κ → Prop) (reply : Except Rejection (Py α))
    (store : AuditStore κ) (lasts : ∀ value, Lasts (auditDiscipline fenced names unique) i (good value))
    (returned : ∀ value, reply = .ok (.ok value) → good value store) :
    Upholds (auditDiscipline fenced names unique) i good (fun _ _ => True)
      (committed reply >>= raising) store := by
  rcases reply with rejection | error | value
  · exact upholds_throw _ _ _ _ _ _ (lasts_true _) trivial
  · exact upholds_throw _ _ _ _ _ _ (lasts_true _) trivial
  · exact upholds_pure _ _ _ _ _ _ (lasts value) (returned value rfl)

theorem keeps_retry (packageId : Uuid) :
    Keeps (auditDiscipline fenced names unique) i (fun _ => True) (retryPackage packageId) :=
      fun store _ => by
  refine upholds_bind _ _ _ _ (fun _ _ => True) _ (fun _ => lasts_true _) _ _ (upholds_query _ store
    (.requestRetry packageId) _ (fun _ => lasts_true _) (fun _ => lasts_true _) fun now inv beside =>
      ⟨⟨trivial, fun _ => trivial⟩, trivial, fun _ => trivial⟩)
    fun reply now _ _ => ?_
  exact upholds_reply _ reply now (fun _ => lasts_true _) fun _ _ => trivial

-- The package is given up, or about to be.
def Withdrawn (packageId : Uuid) (store : AuditStore κ) : Prop := ∃ id row, store.packages id = some row ∧
  row.packageId = packageId ∧ (row.status = .cancelling ∨ row.status = .cancelled)

omit [DecidableEq κ] in
theorem evolves_package_id (before after : AuditPackage) (evolves : Evolves before after) :
    after.packageId = before.packageId :=
  congrArg (fun identity => identity.2.1) evolves.same

theorem lasts_withdrawn (packageId : Uuid) :
    Lasts (auditDiscipline fenced names unique) i (Withdrawn packageId) := by
  rintro store now inv beside ⟨id, row, found, named, status⟩
  obtain ⟨later, at_id, evolves⟩ := beside.rows id row found
  refine ⟨id, later, at_id, (evolves_package_id row later evolves).trans named, ?_⟩
  rcases status with asked | done
  · rcases evolves.cancelling asked with done | rfl
    · exact .inr done
    · exact .inl asked
  · exact .inr (evolves.cancelled done)

omit [DecidableEq κ] in
theorem cancel_withdraws (store : AuditStore κ) (filed : Filed store) (choice : Choice)
    (packageId : Uuid) (value : AuditPackage × Bool)
    (replied : (store.answer i choice (.cancelPackage packageId)).1 = .ok (.ok value)) :
    Withdrawn packageId (store.answer i choice (.cancelPackage packageId)).2 := by
  rw [AuditStore.answer] at replied ⊢
  cases found : store.byPackageId packageId with
  | none =>
      rw [found] at replied
      cases replied
  | some row =>
      have named : row.packageId = packageId := by simpa using List.find?_some found
      have held := (mem_rows store filed row).mp (List.mem_of_find?_eq_some found)
      rw [found] at replied
      have written : ∀ new : AuditPackage, new.packageId = row.packageId →
        (new.status = .cancelling ∨ new.status = .cancelled) →
          (store.transact i (fun _ => .cancel) row.id ({ reply := .ok (new, true), write := some new } :
            Decision (Py (AuditPackage × Bool)))).1 = .ok (.ok value) →
          Withdrawn packageId
            (store.transact i (fun _ => .cancel) row.id ({ reply := .ok (new, true), write := some new } :
            Decision (Py (AuditPackage × Bool)))).2 := by
        intro new same status committed
        rw [AuditStore.transact] at committed ⊢
        dsimp only at committed ⊢
        by_cases shaped : new.stateShape = true
        · rw [if_neg (by simp [shaped])]
          exact ⟨row.id, new, put_new _ row.id new, same.trans named, status⟩
        · rw [if_pos (by simp [shaped])] at committed
          cases committed
      dsimp only at replied ⊢
      rw [cancelPackage] at replied ⊢
      cases status : row.status with
      | pending =>
          simp only [status] at replied ⊢
          exact written _ rfl (.inr rfl) replied
      | building =>
          simp only [status] at replied ⊢
          exact written _ rfl (.inl rfl) replied
      | cancelling =>
          exact ⟨row.id, row, held, named, .inl status⟩
      | cancelled =>
          exact ⟨row.id, row, held, named, .inr status⟩
      | ready =>
          simp only [status] at replied
          cases replied
      | failed =>
          simp only [status] at replied
          cases replied

theorem upholds_cancel (packageId : Uuid) (store : AuditStore κ) :
    Upholds (auditDiscipline fenced names unique) i (fun _ => Withdrawn packageId) (fun _ _ => True)
      (cancelRequest packageId)
      store := by
  refine upholds_bind _ _ _ _ _ _ (fun _ => lasts_true _) _ _ (upholds_query _ store
    (.cancelPackage packageId) (fun reply now => ∀ value, reply = .ok (.ok value) → Withdrawn packageId now)
    (fun reply before later inv beside holds value is =>
      lasts_withdrawn packageId before later inv beside (holds value is))
    (fun _ => lasts_true _) fun now inv beside => ⟨⟨trivial, fun _ => trivial⟩, trivial, fun choice value =>
      cancel_withdraws now inv.life.filed choice packageId value⟩) fun reply now _ found => ?_
  exact upholds_reply _ reply now (fun _ => lasts_withdrawn packageId) found

theorem keeps_register (consumerName idempotencyKey : String) :
    Keeps (auditDiscipline fenced names unique) i (fun _ => True)
      (registerConsumer consumerName idempotencyKey) := by
  have replay : ∀ outcome : Py AuditConsumer, Keeps (auditDiscipline fenced names unique) i (fun _ => True)
      (raising outcome >>= fun consumer => (pure (consumer, false) : AuditTx (AuditConsumer × Bool))) :=
        fun outcome =>
    keeps_bind _ _ _ (lasts_true _) _ _ (keeps_raising _ (lasts_true _) outcome) fun _ =>
      keeps_pure _ _ _ (lasts_true _) _
  refine keeps_bind _ _ _ (lasts_true _) _ _ (keeps_read _ (lasts_true _) _ rfl) fun existing => ?_
  cases existing with
  | some existing => exact replay _
  | none =>
      refine keeps_bind _ _ _ (lasts_true _) _ _ (keeps_clock _ (lasts_true _) none) fun now => ?_
      refine keeps_bind _ _ _ (lasts_true _) _ _ (keeps_uuid _ (lasts_true _)) fun consumerId => ?_
      refine keeps_bind _ _ _ (lasts_true _) _ _ (fun store _ => ?_) fun reply => ?_
      · exact upholds_query _ store
          (.insertConsumer (newConsumer consumerId consumerName idempotencyKey now)) _ (fun _ => lasts_true _)
          (fun _ => lasts_true _) fun now inv beside => ⟨⟨rfl, fun _ => trivial⟩, trivial, fun _ => trivial⟩
      · cases reply with
        | ok consumer => exact keeps_pure _ _ _ (lasts_true _) _
        | error rejection =>
            refine keeps_bind _ _ _ (lasts_true _) _ _ (keeps_read _ (lasts_true _) _ rfl) fun existing => ?_
            cases existing with
            | some existing => exact replay _
            | none => exact keeps_throw _ _ _ (lasts_true _) _

-- Session i made no cursor move, or just this one.
def NoCursorMoves (i : κ) (store : AuditStore κ) : Prop := acknowledgementsOf store.acknowledged i = []

def Registered (consumerId : Uuid) (id : Nat) (store : AuditStore κ) : Prop :=
  ∃ row, store.consumers id = some row ∧ row.consumerId = consumerId

def Acknowledged (i : κ) (consumerId checkpointId : Uuid) (id : Nat) (store : AuditStore κ) : Prop :=
  Registered consumerId id store ∧ acknowledgementsOf store.acknowledged i = [⟨i, id, checkpointId⟩]

theorem lasts_no_cursor_moves : Lasts (auditDiscipline fenced names unique) i (NoCursorMoves i) :=
  fun _ _ _ beside silent => beside.acknowledged.trans silent

theorem lasts_registered (consumerId : Uuid) (id : Nat) :
    Lasts (auditDiscipline fenced names unique) i (Registered consumerId id) := by
  rintro store now inv beside ⟨row, found, named⟩
  obtain ⟨later, at_id, _, same⟩ := beside.consumers id row found
  exact ⟨later, at_id, same.trans named⟩

theorem lasts_acknowledged (consumerId checkpointId : Uuid) (id : Nat) :
    Lasts (auditDiscipline fenced names unique) i (Acknowledged i consumerId checkpointId id) :=
  lasts_and _ i _ _ (lasts_registered consumerId id) fun _ _ _ beside held => beside.acknowledged.trans held

-- What an attempt to move the cursor leaves.
def Attempted (i : κ) (consumerId checkpointId : Uuid) (id : Nat) :
    Except Rejection (Option AuditConsumer) → AuditStore κ → Prop
  | .ok (some _), store => Acknowledged i consumerId checkpointId id store
  | _, store => NoCursorMoves i store

theorem advance_attempted (store : AuditStore κ) (id : Nat) (predecessor : Option Uuid)
    (checkpointId consumerId : Uuid) (now : Instant) (silent : NoCursorMoves i store)
    (registered : Registered consumerId id store) :
    Attempted i consumerId checkpointId id (store.advanceCursor i id predecessor checkpointId now).1
      (store.advanceCursor i id predecessor checkpointId now).2 := by
  obtain ⟨row, found, named⟩ := registered
  rw [AuditStore.advanceCursor, found]
  dsimp only
  by_cases expected : row.lastCheckpointId = predecessor
  · rw [if_neg (by simp [expected])]
    by_cases missing : (store.ledger.checkpoint checkpointId).isNone = true
    · rw [if_pos missing]
      exact silent
    · rw [if_neg missing]
      refine ⟨⟨_, Function.update_self .., named⟩, ?_⟩
      rw [acknowledgements_snoc, if_pos rfl,
        show acknowledgementsOf store.acknowledged i = [] from silent, List.nil_append]
  · rw [if_pos expected]
    exact silent

theorem classify_follows (current : Option Checkpoint) (submitted : Checkpoint)
    (follows : classify current submitted = none) :
    submitted.previousCheckpointId = current.map Checkpoint.checkpointId := by
  cases current with
  | none =>
      rw [classify] at follows
      by_cases first : submitted.previousCheckpointId = none
      · exact first
      · rw [if_neg first] at follows
        cases follows
  | some current =>
      rw [classify] at follows
      by_cases linked : submitted.previousCheckpointId = some current.checkpointId
      · exact linked
      · split at follows
        · cases follows
        · split at follows <;> cases follows

theorem keeps_cursor (kept : AuditStore κ → Prop)
    (lasts : Lasts (auditDiscipline fenced names unique) i kept) (checkpointId : Option Uuid) :
    Keeps (auditDiscipline fenced names unique) i kept (cursorCheckpoint checkpointId) := by
  cases checkpointId with
  | none => exact keeps_pure _ _ _ lasts _
  | some checkpointId => exact keeps_read _ lasts _ rfl

-- The checkpoint that is submitted, as it was read.
def Submitted (checkpointId : Uuid) (submitted : Checkpoint) (store : AuditStore κ) : Prop :=
  submitted.checkpointId = checkpointId ∧ submitted ∈ store.ledger.checkpoints

theorem lasts_submitted (checkpointId : Uuid) (submitted : Checkpoint) :
    Lasts (auditDiscipline fenced names unique) i (Submitted checkpointId submitted) := by
  rintro store now inv beside ⟨named, member⟩
  obtain ⟨more, appended⟩ := beside.ledger.appended
  exact ⟨named, by rw [appended]; exact List.mem_append_left _ member⟩

theorem upholds_advance (consumerId checkpointId : Uuid) (consumer : AuditConsumer)
    (current : Option Checkpoint) (submitted : Checkpoint) (store : AuditStore κ)
    (follows : classify current submitted = none) (silent : NoCursorMoves i store)
    (registered : Registered consumerId consumer.id store)
    (known : Submitted checkpointId submitted store) :
    Upholds (auditDiscipline fenced names unique) i
      (fun _ now => ∃ id, Acknowledged i consumerId checkpointId id now)
      (fun _ => NoCursorMoves i) (do
        let now ← issue .clock
        let expected := current.map Checkpoint.checkpointId
        match ← committed (← query (.advanceCursor consumer.id expected submitted.checkpointId now)) with
        | some advanced => return (advanced, submitted)
        | none =>
            match ← query (.reloadConsumer consumer.id) with
            | none => raising (.error .attributeError)
            | some reloaded =>
                let cursor ← cursorCheckpoint reloaded.lastCheckpointId
                let reason := (classify cursor submitted).getD .skipped
                raising (.error (acknowledgementConflict reloaded reason cursor submitted))) store := by
  have lasts : Lasts (auditDiscipline fenced names unique) i fun now =>
      NoCursorMoves i now ∧ Registered consumerId consumer.id now ∧ Submitted checkpointId submitted now :=
    lasts_and _ i _ _ lasts_no_cursor_moves
      (lasts_and _ i _ _ (lasts_registered consumerId consumer.id) (lasts_submitted checkpointId submitted))
  refine upholds_keeping _ _ _ _ _ _ (fun _ => lasts_no_cursor_moves) _ _ (keeps_clock _ lasts none)
    ⟨silent, registered, known⟩
    (fun _ _ both => both.1) fun moment store _ both => ?_
  refine upholds_bind _ _ _ _ (Attempted i consumerId checkpointId consumer.id) _ (fun _ =>
      lasts_no_cursor_moves) _ _ (upholds_query _ store
        (.advanceCursor consumer.id (current.map Checkpoint.checkpointId) submitted.checkpointId moment)
          _ (fun reply => ?_)
        (fun _ => lasts_no_cursor_moves) fun now inv beside => ?_) fun reply now _ found => ?_
  · rcases reply with rejection | _ | advanced
    · exact lasts_no_cursor_moves
    · exact lasts_no_cursor_moves
    · exact lasts_acknowledged consumerId checkpointId consumer.id
  · obtain ⟨silent, registered, named, member⟩ := lasts store now inv beside both
    refine ⟨⟨⟨submitted, member, rfl, classify_follows current submitted follows⟩, fun _ => trivial⟩,
      silent, fun choice => ?_⟩
    rw [named]
    exact advance_attempted now consumer.id _ checkpointId consumerId moment silent registered
  · rcases reply with rejection | _ | advanced
    · exact upholds_throw _ _ _ _ _ _ lasts_no_cursor_moves found
    · change Upholds _ i _ _ (query (.reloadConsumer consumer.id) >>= _) now
      refine upholds_keeping _ _ _ _ (NoCursorMoves i) _ (fun _ =>
          lasts_no_cursor_moves) _ _ (keeps_read _ lasts_no_cursor_moves (.reloadConsumer consumer.id) rfl)
        found (fun _ _ => id) fun reloaded later _ silent => ?_
      cases reloaded with
      | none => exact upholds_throw _ _ _ _ _ _ lasts_no_cursor_moves silent
      | some reloaded =>
          refine upholds_keeping _ _ _ _ _ _ (fun _ =>
              lasts_no_cursor_moves) _ _ (keeps_cursor _ lasts_no_cursor_moves _) silent (fun _ _ => id)
            fun cursor last _ silent => ?_
          exact upholds_throw _ _ _ _ _ _ lasts_no_cursor_moves silent
    · refine upholds_pure _ _ _ _ _ _ ?_ ⟨consumer.id, found⟩
      rintro before later inv beside ⟨id, held⟩
      exact ⟨id, lasts_acknowledged consumerId checkpointId id before later inv beside held⟩

theorem upholds_acknowledge (consumerId checkpointId : Uuid) (store : AuditStore κ)
    (silent : NoCursorMoves i store) :
    Upholds (auditDiscipline fenced names unique) i
      (fun _ now => ∃ id, Acknowledged i consumerId checkpointId id now)
      (fun _ => NoCursorMoves i) (acknowledgeCheckpoint consumerId checkpointId) store := by
  refine upholds_bind _ _ _ _ (fun found now => NoCursorMoves i now ∧
      ∀ consumer, found = some consumer → Registered consumerId consumer.id now)
    _ (fun _ => lasts_no_cursor_moves) _ _ (upholds_read _ store
      (.selectConsumer consumerId) rfl _ (fun found => ?_) (fun _ => lasts_no_cursor_moves)
      fun now inv beside => ?_) fun found now _ learnt => ?_
  · exact lasts_and _ i _ _ lasts_no_cursor_moves fun before later inv beside known consumer is =>
      lasts_registered consumerId consumer.id before later inv beside (known consumer is)
  · have still : NoCursorMoves i now := beside.acknowledged.trans silent
    refine ⟨still, fun choice => ⟨still, fun consumer found => ?_⟩⟩
    exact ⟨consumer, (mem_consumer_rows now inv.life.filed consumer).mp (List.mem_of_find?_eq_some found),
      by simpa using List.find?_some found⟩
  · obtain ⟨silent, registered⟩ := learnt
    cases found with
    | none => exact upholds_throw _ _ _ _ _ _ lasts_no_cursor_moves silent
    | some consumer =>
        have lasts : Lasts (auditDiscipline fenced names unique) i fun now => NoCursorMoves i now ∧
            Registered consumerId consumer.id now :=
          lasts_and _ i _ _ lasts_no_cursor_moves (lasts_registered consumerId consumer.id)
        refine upholds_bind _ _ _ _ (fun found now =>
          (NoCursorMoves i now ∧ Registered consumerId consumer.id now) ∧
          ∀ submitted, found = some submitted → Submitted checkpointId submitted now) _ (fun _ =>
            lasts_no_cursor_moves) _ _
          (upholds_read _ now (.getCheckpoint checkpointId) rfl _ (fun found => ?_)
            (fun _ => lasts_no_cursor_moves) fun later inv beside => ?_)
          fun found later _ learnt => ?_
        · exact lasts_and _ i _ _ lasts fun before later inv beside known submitted is =>
            lasts_submitted checkpointId submitted before later inv beside (known submitted is)
        · have still := lasts now later inv beside ⟨silent, registered consumer rfl⟩
          refine ⟨still.1, fun choice => ⟨still, fun submitted found => ?_⟩⟩
          exact ⟨(found_boundary_read checkpointId later submitted found).1, List.mem_of_find?_eq_some found⟩
        · obtain ⟨⟨silent, registered⟩, known⟩ := learnt
          cases found with
          | none => exact upholds_throw _ _ _ _ _ _ lasts_no_cursor_moves silent
          | some submitted =>
              refine upholds_keeping _ _ _ _ _ _ (fun _ => lasts_no_cursor_moves) _ _
                (keeps_cursor _ (lasts_and _ i _ _ lasts (lasts_submitted checkpointId submitted))
                  consumer.lastCheckpointId)
                ⟨⟨silent, registered⟩, known submitted rfl⟩
                  (fun _ _ all => all.1.1) fun current last _ all => ?_
              cases follows : classify current submitted with
              | some reason =>
                  exact upholds_throw _ _ _ _ _ _ lasts_no_cursor_moves all.1.1
              | none =>
                  exact upholds_advance consumerId checkpointId consumer current submitted last follows
                    all.1.1 all.1.2 all.2

-- A claim that is all its session did.
def OnlyClaimed (i : κ) : Option AuditPackage → AuditStore κ → Prop
  | none, store => entriesOf store.journal i = []
  | some claimed, store => ∃ entry, entriesOf store.journal i = [entry] ∧ entry.id = claimed.id ∧
      (∃ workerId moment, entry.action = .claim workerId moment) ∧ entry.after = some claimed

-- What is known when a call ends.
def CallConcluded (i : κ) (call : AuditCall) (outcome : Except AuditError AuditOutcome)
    (store : AuditStore κ) : Prop :=
  match call, outcome with
  | .claim _ _ _ _, .ok (.claimed found) => OnlyClaimed i found store
  | .claim _ _ _ _, .error _ => entriesOf store.journal i = []
  | .build claimed _, .ok (.built result) => ∃ entry exit, entriesOf store.journal i = [entry] ∧
      entry.id = claimed.id ∧
      entry.action = .terminal exit claimed result
  | .build _ _, .error _ => entriesOf store.journal i = []
  | .cancel packageId, .ok _ => Withdrawn packageId store
  | .run _ _, _ => OutcomesReported i store
  | .acknowledge consumerId checkpointId, .ok _ => ∃ id, Acknowledged i consumerId checkpointId id store
  | .acknowledge _ _, .error _ => NoCursorMoves i store
  | _, _ => True

-- The calls a fenced deployment makes: what is built was claimed by the session itself.
def AuditCall.Fenced (names : κ → Option String) (i : κ) : AuditCall → Prop
  | .claim _ workerId _ _ => names i = some workerId
  | .run exporter _ => names i = some exporter.workerId
  | .build _ _ => False
  | _ => True

theorem granted_only_claimed (found : Option AuditPackage) (store : AuditStore κ)
    (granted : Granted i [] [] [] found store) :
    OnlyClaimed i found store := by
  cases found with
  | none => exact granted.entries
  | some claimed =>
      obtain ⟨entry, workerId, moment, named, is, left, did⟩ := granted
      exact ⟨entry, did.entries, named, ⟨workerId, moment, is⟩, left⟩

theorem lasts_idle :
    Lasts (auditDiscipline fenced names unique) i fun store => entriesOf store.journal i = [] :=
  fun _ _ _ beside none => beside.journal.trans none

theorem call_upholds (env : Exporting) (call : AuditCall) (allowed : fenced → call.Fenced names i)
    (ledger : Ledger) :
    Upholds (auditDiscipline fenced names unique) i (fun value => CallConcluded i call (.ok value))
      (fun error => CallConcluded i call (.error error)) (call.program env) (AuditStore.empty κ ledger) := by
  have even : OutcomesReported i (AuditStore.empty κ ledger) := rfl
  cases call with
  | create instrumentId idempotencyKey checkpointId =>
      refine keeps_bind _ _ _ (lasts_true _) _ _ (keeps_create env.toRuntime instrumentId idempotencyKey
          checkpointId) (fun created => ?_) _ trivial
      exact keeps_pure _ _ _ (lasts_true _) _
  | claim postgresql workerId leaseDuration now =>
      refine upholds_bind _ _ _ _ _ _ (fun _ => lasts_idle) _ _ (upholds_mono _ _ _ _ _ _ _ _ (fun _ _ => id)
        (fun _ _ did => did.entries)
        (upholds_claim postgresql workerId leaseDuration now _ allowed [] [] [] ⟨rfl, rfl, rfl⟩))
        fun found later _ held => ?_
      refine upholds_pure _ _ _ _ _ _ ?_ (granted_only_claimed found later held.1)
      cases found with
      | none => exact lasts_idle
      | some claimed =>
          rintro store now inv beside ⟨entry, own, rest⟩
          exact ⟨entry, beside.journal.trans own, rest⟩
  | settle postgresql now =>
      refine upholds_bind _ _ _ _ (fun _ _ => True) _ (fun _ =>
          lasts_true _) _ _ (upholds_mono _ _ _ _ _ _ _ _
        (fun _ _ _ => trivial) (fun _ _ _ => trivial) (upholds_settle postgresql now _ even)) fun found
          later _ _ => ?_
      exact upholds_pure _ _ _ _ _ _ (lasts_true _) trivial
  | build claimed keyring =>
      refine upholds_bind _ _ _ _ _ _ (fun _ => lasts_idle) _ _ (upholds_mono _ _ _ _ _ _ _ _
        (fun _ _ => id) (fun _ _ did => did.entries)
        (upholds_build env claimed keyring [] [] [] _ (fun fences => (allowed fences).elim)
          ⟨rfl, rfl, rfl⟩)) fun result later _ ended => ?_
      obtain ⟨entry, exit, named, is, did⟩ := ended
      refine upholds_pure _ _ _ _ _ _ ?_ ⟨entry, exit, did.entries, named, is⟩
      rintro store now inv beside ⟨entry, exit, own, rest⟩
      exact ⟨entry, exit, beside.journal.trans own, rest⟩
  | retry packageId =>
      refine keeps_bind _ _ _ (lasts_true _) _ _ (keeps_retry packageId) (fun package => ?_) _ trivial
      exact keeps_pure _ _ _ (lasts_true _) _
  | cancel packageId =>
      refine upholds_bind _ _ _ _ _ _ (fun _ => lasts_true _) _ _ (upholds_cancel packageId _) fun found
        later _ withdrawn => ?_
      exact upholds_pure _ _ _ _ _ _ (lasts_withdrawn packageId) withdrawn
  | run exporter polls =>
      refine keeps_bind _ _ _ lasts_outcomes_reported _ _ (keeps_exporter env exporter polls allowed)
        (fun done => ?_) _ even
      exact keeps_pure _ _ _ lasts_outcomes_reported _
  | register consumerName idempotencyKey =>
      refine keeps_bind _ _ _ (lasts_true _) _ _ (keeps_register consumerName idempotencyKey)
        (fun created => ?_) _ trivial
      exact keeps_pure _ _ _ (lasts_true _) _
  | acknowledge consumerId checkpointId =>
      refine upholds_bind _ _ _ _ _ _ (fun _ =>
          lasts_no_cursor_moves) _ _ (upholds_acknowledge consumerId checkpointId _ rfl)
        fun advanced later _ found => ?_
      refine upholds_pure _ _ _ _ _ _ ?_ found
      rintro before later inv beside ⟨id, held⟩
      exact ⟨id, lasts_acknowledged consumerId checkpointId id before later inv beside held⟩

theorem call_verified (env : Exporting) (call : AuditCall) (allowed : fenced → call.Fenced names i)
    (ledger : Ledger) :
    Verified (auditDiscipline fenced names unique) i (CallConcluded i call) (call.program env).run
      (AuditStore.empty κ ledger) := by
  refine verified_mono _ _ _ _ _ _ (fun outcome now found => ?_) (call_upholds env call allowed ledger)
  cases outcome <;> exact found

end

end CalibrationLedger
