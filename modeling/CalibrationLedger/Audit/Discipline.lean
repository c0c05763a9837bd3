import CalibrationLedger.Library.Raising
import CalibrationLedger.Audit.Cursors
import CalibrationLedger.Audit.Fencing

set_option autoImplicit false

-- What every statement of the audit services keeps, and what the other sessions
-- may see of it.
namespace CalibrationLedger

open JsonText Digest Interleaving Histories

section

variable {κ : Type} [DecidableEq κ]

-- What the exporter owes a line for: the end of a build_once call.
def Entry.outcome (entry : Entry κ) : Option LogEntry :=
  match entry.action with
  | .terminal _ claimed returned => some (outcomeEntry claimed returned)
  | _ => none

def LogEntry.isOutcome : LogEntry → Bool
  | .databaseUnavailable => false
  | .cancelConfirmed _ reason _ => reason ≠ "lease_expired"
  | _ => true

def entriesOf (journal : List (Entry κ)) (i : κ) : List (Entry κ) :=
  journal.filter fun entry => entry.caller = i

def outcomesOf (journal : List (Entry κ)) (i : κ) : List LogEntry :=
  (entriesOf journal i).filterMap Entry.outcome

def logsOf (logs : List (κ × LogEntry)) (i : κ) : List LogEntry :=
  (logs.filter fun line => line.1 = i && line.2.isOutcome).map Prod.snd

def acknowledgementsOf (acknowledged : List (Acknowledgement κ)) (i : κ) : List (Acknowledgement κ) :=
  acknowledged.filter fun entry => entry.caller = i

theorem entries_snoc (journal : List (Entry κ)) (entry : Entry κ) (i : κ) :
    entriesOf (journal ++ [entry]) i = entriesOf journal i ++ if entry.caller = i then [entry] else [] := by
  rw [entriesOf, entriesOf, List.filter_append, List.filter_singleton]
  by_cases same : entry.caller = i <;> simp [same]

theorem acknowledgements_snoc (acknowledged : List (Acknowledgement κ)) (entry : Acknowledgement κ) (i : κ) :
    acknowledgementsOf (acknowledged ++ [entry]) i =
      acknowledgementsOf acknowledged i ++ if entry.caller = i then [entry] else [] := by
  rw [acknowledgementsOf, acknowledgementsOf, List.filter_append, List.filter_singleton]
  by_cases same : entry.caller = i <;> simp [same]

theorem logs_snoc (logs : List (κ × LogEntry)) (j i : κ) (line : LogEntry) :
    logsOf (logs ++ [(j, line)]) i = logsOf logs i ++ if j = i ∧
    line.isOutcome = true then [line] else [] := by
  rw [logsOf, logsOf, List.filter_append, List.map_append, List.filter_singleton]
  by_cases same : j = i <;> cases outcome : line.isOutcome <;> simp [same]

theorem outcomes_extend (journal : List (Entry κ)) (entry : Entry κ) (j : κ) :
    outcomesOf journal j <+: outcomesOf (journal ++ [entry]) j := by
  rw [outcomesOf, outcomesOf, entries_snoc, List.filterMap_append]
  exact List.prefix_append _ _

variable (fenced : Prop) (names : κ → Option String)

-- The invariant. Leases are tied to claims only where the workers' names are fenced.
structure Orderly (store : AuditStore κ) : Prop where
  life : Lifecycle store
  cursors : Cursors store
  reported : ∀ i, logsOf store.logs i <+: outcomesOf store.journal i
  fence : fenced → Fence names store

-- What session i sees of the others.
structure AuditRely (i : κ) (before after : AuditStore κ) : Prop where
  ledger : LedgerGrows before.ledger after.ledger
  rows : ∀ id row, before.packages id = some row → ∃ later, after.packages id = some later ∧ Evolves row later
  journal : entriesOf after.journal i = entriesOf before.journal i
  logs : logsOf after.logs i = logsOf before.logs i
  acknowledged : acknowledgementsOf after.acknowledged i = acknowledgementsOf before.acknowledged i
  consumers : ∀ id row, before.consumers id = some row →
    ∃ later, after.consumers id = some later ∧ later.id = row.id ∧ later.consumerId = row.consumerId
  leases : fenced → ∀ id row owner, names i = some owner → after.packages id = some row →
    row.leaseOwner = some owner →
    (∃ old, before.packages id = some old ∧ old.leaseOwner = some owner) ∧
      lastClaim after.journal id = lastClaim before.journal id

def AuditPrecondition (i : κ) (statement : AuditStatement) (store : AuditStore κ) : Prop :=
  match statement with
  | .log line => line.isOutcome = true → logsOf store.logs i ++ [line] <+: outcomesOf store.journal i
  | .sql request => CheckedBefore request store ∧ (fenced → LeasePermits names i request store)
  | _ => True

theorem audit_rely_refl (i : κ) (store : AuditStore κ) : AuditRely fenced names i store store :=
  ⟨ledger_grows_refl _, fun _ row found => ⟨row, found, evolves_refl row⟩, rfl, rfl, rfl,
    fun _ row found => ⟨row, found, rfl, rfl⟩, fun _ _ row _ _ found leased => ⟨⟨row, found, leased⟩, rfl⟩⟩

theorem audit_rely_trans (i : κ) (a b c : AuditStore κ) (first : AuditRely fenced names i a b)
    (second : AuditRely fenced names i b c) :
    AuditRely fenced names i a c := by
  refine ⟨ledger_grows_trans _ _ _ first.ledger second.ledger, fun id row found => ?_,
    second.journal.trans first.journal,
    second.logs.trans first.logs, second.acknowledged.trans first.acknowledged, fun id row found => ?_,
    fun fences id row owner named found leased => ?_⟩
  · obtain ⟨mid, at_b, early⟩ := first.rows id row found
    obtain ⟨later, at_c, late⟩ := second.rows id mid at_b
    exact ⟨later, at_c, evolves_trans row mid later early late⟩
  · obtain ⟨mid, at_b, sameId, sameName⟩ := first.consumers id row found
    obtain ⟨later, at_c, laterId, laterName⟩ := second.consumers id mid at_b
    exact ⟨later, at_c, laterId.trans sameId, laterName.trans sameName⟩
  · obtain ⟨⟨mid, at_b, held⟩, claims⟩ := second.leases fences id row owner named found leased
    obtain ⟨old, earlier⟩ := first.leases fences id mid owner named at_b held
    exact ⟨old, claims.trans earlier⟩

theorem audit_rely_entry (j : κ) (store after : AuditStore κ) (entry : Entry κ)
    (other : entry.caller ≠ j) (isJournal : after.journal = store.journal ++ [entry])
    (isLedger : after.ledger = store.ledger) (isConsumers : after.consumers = store.consumers)
    (isLogs : after.logs = store.logs) (isAcknowledged : after.acknowledged = store.acknowledged)
    (rows : ∀ id row, store.packages id = some row → ∃ later, after.packages id = some later ∧
      Evolves row later)
    (leases : fenced → ∀ id row owner, names j = some owner → after.packages id = some row →
      row.leaseOwner = some owner →
      (∃ old, store.packages id = some old ∧ old.leaseOwner = some owner) ∧ entry.claims id = false) :
    AuditRely fenced names j store after := by
  refine ⟨by rw [isLedger]; exact ledger_grows_refl _, rows, ?_, by rw [isLogs], by rw [isAcknowledged],
    fun _ row found => ⟨row, by rw [isConsumers]; exact found, rfl, rfl⟩,
      fun fences id row owner named found leased => ?_⟩
  · rw [isJournal, entries_snoc, if_neg other, List.append_nil]
  · obtain ⟨old, unclaimed⟩ := leases fences id row owner named found leased
    refine ⟨old, ?_⟩
    rw [isJournal, last_claim_snoc, unclaimed]
    rfl

variable (unique : ∀ i j owner, names i = some owner → names j = some owner → i = j) (i : κ)
  (request : AuditQuery)

include unique

theorem audit_rely_effect (j : κ) (other : j ≠ i) (store after : AuditStore κ)
    (effect : Effect i request store after) (life : Lifecycle store)
    (permits : fenced → LeasePermits names i request store) : AuditRely fenced names j store after := by
  have rows := evolves_effect i store request after effect life.filed
  cases effect with
  | created row new fresh apart =>
      refine audit_rely_entry fenced names j store _ ⟨i, .create, row.id, none, some row⟩ other.symm
        rfl rfl rfl rfl rfl rows
        fun _ id found owner _ at_id leased => ?_
      rcases put_cases _ _ _ id found at_id with ⟨_, rfl⟩ | ⟨_, still⟩
      · have free : found.leaseOwner = none := by simpa [fresh.pending] using fresh.order.owned
        rw [free] at leased
        cases leased
      · exact ⟨⟨found, still, leased⟩, rfl⟩
  | moved action id old new artifacts issued found moves delivers =>
      refine audit_rely_entry fenced names j store _ ⟨i, action, id, some old, some new⟩ other.symm
        rfl rfl rfl rfl rfl rows
        fun fences n row owner named at_n leased => ?_
      rcases moves_lease action old new moves with ⟨workerId, moment, expires, rfl,
        rfl⟩ | ⟨unclaimed, _, lease⟩
      · rcases put_cases _ _ _ n row at_n with ⟨rfl, rfl⟩ | ⟨different, still⟩
        · have own : names i = some workerId := by
            have owed := permits fences
            cases request <;> first | exact False.elim issued | skip
            · rw [show workerId = _ from issued]
              exact owed
            · rw [show workerId = _ from issued]
              exact owed
          have owns : owner = workerId := by simpa [AuditPackage.claim] using leased.symm
          subst owner
          exact absurd (unique j i workerId named own) other
        · exact ⟨⟨row, still, leased⟩, decide_eq_false different.symm⟩
      · refine ⟨?_, claims_other i action id n _ _ unclaimed⟩
        rcases put_cases _ _ _ n row at_n with ⟨rfl, rfl⟩ | ⟨_, still⟩
        · rcases lease with free | same
          · rw [free] at leased
            cases leased
          · exact ⟨old, found, same.symm.trans leased⟩
        · exact ⟨row, still, leased⟩
  | declined action id issued declines =>
      exact audit_rely_entry fenced names j store _ ⟨i, action, id, store.packages id,
        store.packages id⟩ other.symm rfl rfl rfl rfl
        rfl rows fun _ n row owner _ at_n leased =>
          ⟨⟨row, at_n, leased⟩, claims_other i action id n _ _ (leaves_row_no_claim action _ declines)⟩
  | registered row new unread apart =>
      refine ⟨ledger_grows_refl _, rows, rfl, rfl, rfl, fun id found at_id => ?_,
        fun _ _ row _ _ found leased => ⟨⟨row, found, leased⟩, rfl⟩⟩
      have different : id ≠ row.id := by
        rintro rfl
        have less := (life.filed.consumers row.id found at_id).2
        omega
      exact ⟨found, by simp [Function.update_of_ne different, at_id], rfl, rfl⟩
  | advanced id consumer row checkpointId found follows moved named =>
      refine ⟨ledger_grows_refl _, rows, rfl, rfl, ?_, fun n other at_n => ?_,
        fun _ _ row _ _ found leased => ⟨⟨row, found, leased⟩, rfl⟩⟩
      · rw [acknowledgements_snoc, if_neg other.symm, List.append_nil]
      · by_cases same : n = id
        · subst n
          rw [found] at at_n
          cases at_n
          exact ⟨row, Function.update_self .., named.1, named.2⟩
        · exact ⟨other, by simp [Function.update_of_ne same, at_n], rfl, rfl⟩

omit unique in
theorem orderly_effect (store after : AuditStore κ) (effect : Effect i request store after)
    (permits : fenced → LeasePermits names i request store) (orderly : Orderly fenced names store) :
    Orderly fenced names after := by
  refine ⟨lifecycle_effect i store request after effect orderly.life,
    cursors_effect i request store after effect orderly.life.filed orderly.cursors, fun j => ?_,
    fun fences => fence_effect names i request store after effect orderly.life (permits fences)
      (orderly.fence fences)⟩
  cases effect with
  | created row new fresh apart => exact (orderly.reported j).trans (outcomes_extend _ _ _)
  | moved action id old new artifacts issued found moves delivers =>
      exact (orderly.reported j).trans (outcomes_extend _ _ _)
  | declined action id issued declines => exact (orderly.reported j).trans (outcomes_extend _ _ _)
  | registered row new unread apart => exact orderly.reported j
  | advanced id consumer row checkpointId found follows moved named => exact orderly.reported j

theorem effects_keep (store after : AuditStore κ) (effects : Effects i request store after)
    (permits : fenced → LeasePermits names i request store) (orderly : Orderly fenced names store) :
    Orderly fenced names after ∧ (fenced → LeasePermits names i request after) ∧ ∀ j, j ≠ i →
    AuditRely fenced names j store after := by
  induction effects with
  | refl => exact ⟨orderly, permits, fun j _ => audit_rely_refl fenced names j store⟩
  | tail _ effect ih =>
      obtain ⟨kept, owed, beside⟩ := ih
      refine ⟨orderly_effect fenced names i request _ _ effect owed kept,
        fun fences => lease_permits_effect names i request _ _ effect (owed fences), fun j other => ?_⟩
      exact audit_rely_trans fenced names j _ _ _ (beside j other)
        (audit_rely_effect fenced names unique i request j other _ _ effect kept.life owed)

omit request in
theorem audit_respond_keeps (statement : AuditStatement) (store : AuditStore κ) (before : Nat → Choice)
    (response : AuditResponse statement) (next : AuditStore κ) (after : Nat → Choice)
    (orderly : Orderly fenced names store) (owed : AuditPrecondition fenced names i statement store)
    (answer : auditRespond i statement store before = some (response, next, after)) :
    Orderly fenced names next ∧ ∀ j, j ≠ i → AuditRely fenced names j store next := by
  have unchanged : next = store → Orderly fenced names next ∧ ∀ j, j ≠ i →
      AuditRely fenced names j store next := by
    rintro rfl
    exact ⟨orderly, fun j _ => audit_rely_refl fenced names j next⟩
  cases statement with
  | clock =>
      cases answer
      exact unchanged rfl
  | uuidFactory =>
      cases answer
      exact unchanged rfl
  | log line =>
      cases answer
      refine ⟨⟨⟨⟨orderly.life.filed.packages, orderly.life.filed.consumers⟩, orderly.life.order,
        orderly.life.covered, orderly.life.distinct, orderly.life.stored,
        orderly.life.kept, orderly.life.replayed, orderly.life.faithful⟩,
        ⟨orderly.cursors.chain, orderly.cursors.followed, orderly.cursors.cursor,
          orderly.cursors.absent, orderly.cursors.distinct⟩,
        fun j => ?_, fun fences => ?_⟩, fun j other => ?_⟩
      · rw [logs_snoc]
        by_cases reports : i = j ∧ line.isOutcome = true
        · rw [if_pos reports]
          obtain ⟨rfl, outcome⟩ := reports
          exact owed outcome
        · rw [if_neg reports, List.append_nil]
          exact orderly.reported j
      · have fence := orderly.fence fences
        exact ⟨fence.counted, fence.absent, fence.holder, fence.exact⟩
      · refine ⟨ledger_grows_refl _, fun _ row found => ⟨row, found, evolves_refl row⟩, rfl, ?_, rfl,
          fun _ row found => ⟨row, found, rfl, rfl⟩, fun _ _ row _ _ found leased =>
            ⟨⟨row, found, leased⟩, rfl⟩⟩
        rw [logs_snoc, if_neg (fun both => other both.1.symm), List.append_nil]
  | sql request =>
      rw [auditRespond] at answer
      split at answer
      · cases answer
        exact unchanged rfl
      · cases answer
        obtain ⟨kept, _, beside⟩ := effects_keep fenced names unique i request store _
          (answer_effects i store request (before 0) orderly.life.filed owed.1) owed.2 orderly
        exact ⟨kept, beside⟩

def auditDiscipline : Discipline (auditing κ) where
  Inv := Orderly fenced names
  Rely := AuditRely fenced names
  Pre := AuditPrecondition fenced names
  rely_refl := audit_rely_refl fenced names
  rely_trans := audit_rely_trans fenced names
  respond_keeps := audit_respond_keeps fenced names unique
  abandon_keeps _ store orderly := ⟨orderly, fun j _ => audit_rely_refl fenced names j store⟩

end

end CalibrationLedger
