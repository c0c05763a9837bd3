import CalibrationLedger.Audit.Deployment

set_option autoImplicit false

-- The cursors of the consumers, however many acknowledge at once and however stale
-- what they read is.
namespace CalibrationLedger

open JsonText Digest Interleaving

-- What an acknowledgement may issue.
def AuditStatement.Acknowledges : AuditStatement → Prop
  | .clock => True
  | .sql (.selectConsumer _) => True
  | .sql (.getCheckpoint _) => True
  | .sql (.advanceCursor _ _ _ _) => True
  | .sql (.reloadConsumer _) => True
  | _ => False

theorem issues_only_issue (allowed : AuditStatement → Prop) (statement : AuditStatement)
    (kind : allowed statement) :
    IssuesOnly (S := AuditSql) allowed (issue statement) := issues_only_statement _ _ kind

theorem issues_only_query (allowed : AuditStatement → Prop) (request : AuditQuery)
    (kind : allowed (.sql request)) :
    IssuesOnly (S := AuditSql) allowed (query request) := by
  refine issues_only_bind _ _ _ (issues_only_issue _ _ kind) fun reply => ?_
  cases reply <;> trivial

theorem issues_only_raising {α : Type} (allowed : AuditStatement → Prop) (outcome : Py α) :
    IssuesOnly (S := AuditSql) allowed (raising outcome) := by
  cases outcome <;> trivial

theorem issues_only_committed {α : Type} (allowed : AuditStatement → Prop) (reply : Except Rejection α) :
    IssuesOnly (S := AuditSql) allowed (committed reply) := by
  cases reply <;> trivial

theorem issues_only_cursor (cursor : Option Uuid) :
    IssuesOnly (S := AuditSql) AuditStatement.Acknowledges (cursorCheckpoint cursor) := by
  cases cursor with
  | none => trivial
  | some cursor => exact issues_only_query _ (.getCheckpoint cursor) trivial

theorem issues_only_acknowledge (consumerId checkpointId : Uuid) :
    IssuesOnly (S := AuditSql) AuditStatement.Acknowledges
      (acknowledgeCheckpoint consumerId checkpointId) := by
  refine issues_only_bind _ _ _ (issues_only_query _ (.selectConsumer consumerId) trivial) fun found => ?_
  cases found with
  | none => exact issues_only_raising _ _
  | some consumer =>
      refine issues_only_bind _ _ _ (issues_only_query _ (.getCheckpoint checkpointId) trivial)
        fun found => ?_
      cases found with
      | none => exact issues_only_raising _ _
      | some submitted =>
          refine issues_only_bind _ _ _ (issues_only_cursor consumer.lastCheckpointId) fun current => ?_
          split
          · exact issues_only_raising _ _
          · refine issues_only_bind _ _ _ (issues_only_issue _ .clock trivial) fun moment => ?_
            refine issues_only_bind
              _ _ _ (issues_only_query _ (.advanceCursor consumer.id _ submitted.checkpointId moment)
                trivial) fun reply => ?_
            refine issues_only_bind _ _ _ (issues_only_committed _ reply) fun advanced => ?_
            cases advanced with
            | some advanced => trivial
            | none =>
                refine issues_only_bind _ _ _ (issues_only_query _ (.reloadConsumer consumer.id)
                    trivial) fun reloaded => ?_
                cases reloaded with
                | none => exact issues_only_raising _ _
                | some reloaded =>
                    exact issues_only_bind _ _ _ (issues_only_cursor reloaded.lastCheckpointId)
                      fun cursor => issues_only_raising _ _

section

variable {κ : Type} (i : κ)

-- A statement that changes no row, or moves one cursor.
def AtMostMovesCursor (before after : AuditStore κ) : Prop :=
  after.packages = before.packages ∧ after.artifacts = before.artifacts ∧
    (after.consumers = before.consumers ∧ after.acknowledged = before.acknowledged ∨
      ∃ id checkpointId old new, before.consumers id = some old ∧
        after.consumers = Function.update before.consumers id (some new) ∧
        new.lastCheckpointId = some checkpointId ∧
        after.acknowledged = before.acknowledged ++ [⟨i, id, checkpointId⟩])

theorem acknowledges_moves_cursor (statement : AuditStatement) (kind : statement.Acknowledges)
    (store : AuditStore κ) (before : Nat → Choice) (response : AuditResponse statement)
    (next : AuditStore κ) (after : Nat → Choice)
    (answer : auditRespond i statement store before = some (response, next, after)) :
    AtMostMovesCursor i store next := by
  have unchanged : AtMostMovesCursor i store store := ⟨rfl, rfl, .inl ⟨rfl, rfl⟩⟩
  cases statement with
  | clock =>
      cases answer
      exact unchanged
  | uuidFactory => exact kind.elim
  | log line => exact kind.elim
  | sql request =>
      rw [auditRespond] at answer
      split at answer
      · cases answer
        exact unchanged
      · cases answer
        cases request <;> first | exact False.elim kind | exact unchanged | skip
        rename_i id predecessor checkpointId now
        rw [AuditStore.answer, AuditStore.advanceCursor]
        split
        · exact unchanged
        · rename_i consumer found
          split
          · exact unchanged
          · split
            · exact unchanged
            · exact ⟨rfl, rfl, .inr ⟨id, checkpointId, consumer, _, found, rfl, rfl, rfl⟩⟩

theorem acknowledged_once (store : AuditStore κ) (cursors : Cursors store)
    (left right : Acknowledgement κ) (first : left ∈ store.acknowledged)
    (second : right ∈ store.acknowledged) (sameConsumer : left.consumer = right.consumer)
    (sameCheckpoint : left.checkpointId = right.checkpointId) : left = right := by
  have nodup : (acknowledgedBy store.acknowledged right.consumer).Nodup :=
    (cursors.followed right.consumer).sublist.nodup (chain_nodup _ cursors.chain)
  refine List.inj_on_of_nodup_map nodup ?_ ?_ sameCheckpoint
  · exact List.mem_filter.mpr ⟨first, by simp [sameConsumer]⟩
  · exact List.mem_filter.mpr ⟨second, by simp⟩

end

section

variable {ι κ : Type} [DecidableEq ι] [Fintype ι] [DecidableEq κ] (env : Exporting) (calls : ι → Call)
  (jobs : κ → AuditCall)

theorem acknowledgements_confined (now : Deployment ι κ) (reached : (deploy env calls jobs).Reaches now)
    (i : κ) (consumerId checkpointId : Uuid) (asks : jobs i = .acknowledge consumerId checkpointId) :
    ∀ program, now.audit.sessions i = some program → Confined AuditStatement.Acknowledges program := by
  induction reached with
  | refl =>
      rintro _ ⟨⟩
      rw [asks]
      exact issues_only_bind _ _ _ (issues_only_acknowledge consumerId checkpointId) fun advanced => trivial
  | tail _ step ih =>
      cases step with
      | ledger after step => exact ih
      | audit after step => exact confined_step (auditing κ) _ _ after step i ih

theorem cursors_walk_the_chain (now : Deployment ι κ) (reached : (deploy env calls jobs).Reaches now) :
    OneChain now.ledger.store.checkpoints ∧
    (∀ n, acknowledgedBy now.audit.store.acknowledged n <+: now.ledger.store.checkpoints.map
      Checkpoint.checkpointId) ∧
    (∀ n row, now.audit.store.consumers n = some row →
      row.lastCheckpointId = (acknowledgedBy now.audit.store.acknowledged n).getLast?) ∧
    (∀ n, now.audit.store.consumers n = none → acknowledgedBy now.audit.store.acknowledged n = []) ∧
    (∀ later : Deployment ι κ, now.Reaches later →
        now.audit.store.acknowledged <+: later.audit.store.acknowledged) ∧
    (∀ i consumerId checkpointId, jobs i = .acknowledge consumerId checkpointId →
      (∀ value, finished (auditing κ) now.audit i = some (.ok value) →
        ∃ n row, now.audit.store.consumers n = some row ∧
        row.consumerId = consumerId ∧
        acknowledgementsOf now.audit.store.acknowledged i = [⟨i, n, checkpointId⟩]) ∧
      (∀ error, finished (auditing κ) now.audit i = some (.error error) →
        acknowledgementsOf now.audit.store.acknowledged i = []) ∧
      ∀ after, Exec (auditing κ) i now.audit after → AtMostMovesCursor i now.audit.store after.store) ∧
    ∀ i j consumerId checkpointId left right, jobs i = .acknowledge consumerId checkpointId →
      jobs j = .acknowledge consumerId checkpointId → finished (auditing κ) now.audit i = some (.ok left) →
      finished (auditing κ) now.audit j = some (.ok right) → i = j := by
  have deployed := free_deployed env calls jobs now reached
  have cursors := deployed.disciplined.inv.cursors
  have checkpoints : now.audit.store.ledger.checkpoints = now.ledger.store.checkpoints :=
    congrArg Ledger.checkpoints deployed.seen
  have concluded := deployed_concluded False nameless nameless_unique env calls jobs now deployed
  have returned : ∀ i consumerId checkpointId value, jobs i = .acknowledge consumerId checkpointId →
      finished (auditing κ) now.audit i = some (.ok value) → ∃ n row, now.audit.store.consumers n = some row ∧
        row.consumerId = consumerId ∧
        acknowledgementsOf now.audit.store.acknowledged i = [⟨i, n, checkpointId⟩] := by
    intro i consumerId checkpointId value asks ended
    have held := concluded i _ ended
    rw [asks] at held
    obtain ⟨n, ⟨row, found, named⟩, own⟩ := held
    exact ⟨n, row, found, named, own⟩
  refine ⟨by rw [← checkpoints]; exact cursors.chain, by rw [← checkpoints]; exact cursors.followed,
    cursors.cursor, cursors.absent,
    fun later onward => (free_onward env calls jobs now later reached onward).acknowledged,
    fun i consumerId checkpointId asks =>
      ⟨fun value => returned i consumerId checkpointId value asks, fun error ended => ?_,
      fun after exec => ?_⟩,
        fun i j consumerId checkpointId left right asksLeft asksRight endedLeft endedRight => ?_⟩
  · have held := concluded i _ ended
    rw [asks] at held
    exact held
  · cases exec with
    | step query resume response store supply rest active answer =>
        have kind := (acknowledgements_confined env calls jobs now reached i consumerId checkpointId
            asks _ active).1
        exact acknowledges_moves_cursor i query kind _ supply response store rest answer
  · obtain ⟨n, row, found, named, own⟩ := returned i consumerId checkpointId left asksLeft endedLeft
    obtain ⟨m, other, at_m, same, others⟩ := returned j consumerId checkpointId right asksRight endedRight
    have sameConsumer := cursors.distinct n m row other found at_m (named.trans same.symm)
    subst sameConsumer
    have mine : (⟨i, n, checkpointId⟩ : Acknowledgement κ) ∈ now.audit.store.acknowledged :=
      List.mem_of_mem_filter (by rw [acknowledgementsOf] at own; rw [own]; exact List.mem_singleton_self _)
    have theirs : (⟨j, n, checkpointId⟩ : Acknowledgement κ) ∈ now.audit.store.acknowledged :=
      List.mem_of_mem_filter
        (by rw [acknowledgementsOf] at others; rw [others]; exact List.mem_singleton_self _)
    exact congrArg Acknowledgement.caller (acknowledged_once now.audit.store cursors _ _ mine theirs rfl rfl)

end

-- A consumer registers, and two of its calls acknowledge the first checkpoint at once.
def sampleConsumer : Fin 3 → AuditCall
  | 0 => .register "archive" "consumer-1"
  | 1 => .acknowledge (sampleUuid 9) (sampleUuid 2)
  | 2 => .acknowledge (sampleUuid 9) (sampleUuid 2)

theorem sample_cursor_walks :
    ∃ now : Deployment Bool (Fin 3), (deploy sampleExporting sampleCalls sampleConsumer).Reaches now ∧
    (∃ row, now.audit.store.consumers 1 = some row ∧ row.lastCheckpointId = some (sampleUuid 2)) ∧
    acknowledgementsOf now.audit.store.acknowledged 1 = [⟨1, 1, sampleUuid 2⟩] ∧
    acknowledgementsOf now.audit.store.acknowledged 2 = [] ∧
    acknowledgedBy now.audit.store.acknowledged 1 <+: now.ledger.store.checkpoints.map
      Checkpoint.checkpointId := by
  have ran : ∃ final ∈ runSchedule (auditing (Fin 3)) ([0, 0, 0, 0] ++ [1, 2, 1, 2, 1, 2, 1, 2] ++ [2, 2])
      (sampleSessions sampleConsumer) sampleChoices,
      (∃ row ∈ final.1.store.consumers 1, row.lastCheckpointId = some (sampleUuid 2)) ∧
      acknowledgementsOf final.1.store.acknowledged 1 = [⟨1, 1, sampleUuid 2⟩] ∧
      ∃ outcome ∈ finished (auditing (Fin 3)) final.1 2, outcome.isOk = false := by decide +kernel
  obtain ⟨⟨final, rest⟩, run, moved, own, outcome, ended, raised⟩ := ran
  obtain ⟨ledger, reached, _⟩ := sample_deployment sampleConsumer _ final rest run
  obtain ⟨_, followed, _, _, _, acknowledges, _⟩ :=
    cursors_walk_the_chain sampleExporting sampleCalls sampleConsumer _ reached
  cases outcome with
  | ok value => cases raised
  | error error => exact ⟨_, reached, moved, own, (acknowledges 2 _ _ rfl).2.1 error ended, followed 1⟩

-- One of the two calls, the other one not begun.
theorem sample_acknowledged :
    ∃ final ∈ runSchedule (auditing (Fin 3)) ([0, 0, 0, 0] ++ [1, 1, 1, 1]) (sampleSessions sampleConsumer)
    sampleChoices, (∃ row ∈ final.1.store.consumers 1, row.lastCheckpointId = some (sampleUuid 2)) ∧
      acknowledgedBy final.1.store.acknowledged 1 = [sampleUuid 2] := by decide +kernel

end CalibrationLedger
