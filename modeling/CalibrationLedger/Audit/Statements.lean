import CalibrationLedger.Audit.Creations

set_option autoImplicit false

-- Which calls can end a build: a call that builds nothing issues no statement that
-- stores an archive.
namespace CalibrationLedger

open JsonText Digest Interleaving

def AuditStatement.delivers : AuditStatement → Bool
  | .sql (.finalWrite _ _) => true
  | _ => false

abbrev Undelivering (statement : AuditStatement) : Prop := statement.delivers = false

theorem plain_undelivering (statement : AuditStatement) (plain : statement.plain = true) :
    Undelivering statement := by
  cases statement with
  | sql request => cases request <;> first | rfl | cases plain
  | _ => rfl

theorem undelivering_boundary (checkpointId : Option Uuid) :
    IssuesOnly (S := AuditSql) Undelivering (resolveBoundary checkpointId) := by
  cases checkpointId with
  | some checkpointId =>
      refine issues_only_bind _ _ _ (issues_only_query _ (.getCheckpoint checkpointId) rfl) fun found => ?_
      cases found <;> trivial
  | none =>
      refine issues_only_bind _ _ _ (issues_only_query _ .latestCheckpoint rfl) fun found => ?_
      cases found <;> trivial

theorem undelivering_create (rt : Runtime) (instrumentId idempotencyKey : String)
    (checkpointId : Option Uuid) :
    IssuesOnly (S := AuditSql) Undelivering (createPackage rt instrumentId idempotencyKey checkpointId) := by
  have replay : ∀ existing, IssuesOnly (S := AuditSql) Undelivering
      (do return (← raising (replayPackage existing instrumentId checkpointId), false) : AuditTx
        (AuditPackage × Bool)) :=
    fun existing => issues_only_bind _ _ _ (issues_only_raising _ _) fun _ => trivial
  refine issues_only_bind _ _ _ (issues_only_query _ (.selectByKey idempotencyKey) rfl) fun found => ?_
  cases found with
  | some existing => exact replay existing
  | none =>
      refine issues_only_bind _ _ _ (undelivering_boundary checkpointId) fun checkpoint => ?_
      refine issues_only_bind
        _ _ _ (issues_only_query _ (.countEvents instrumentId checkpoint.lastEventSequence) rfl)
          fun count => ?_
      split
      · exact issues_only_raising _ _
      · refine issues_only_bind _ _ _ (issues_only_issue _ .clock rfl) fun now =>
          issues_only_bind _ _ _ (issues_only_issue _ .uuidFactory rfl) fun packageId => ?_
        refine issues_only_bind _ _ _ (issues_only_raising _ _) fun draft =>
          issues_only_bind _ _ _ (issues_only_query _ (.insertPackage draft) rfl) fun reply => ?_
        cases reply with
        | ok package => trivial
        | error rejection =>
            refine issues_only_bind _ _ _ (issues_only_query _ (.selectByKey idempotencyKey) rfl)
              fun found => ?_
            cases found with
            | some existing => exact replay existing
            | none => trivial

-- The calls that build.
def AuditCall.builds : AuditCall → Bool
  | .build _ _ => true
  | .run _ _ => true
  | _ => false

theorem call_undelivering (env : Exporting) (call : AuditCall) (idle : call.builds = false) :
    IssuesOnly (S := AuditSql) Undelivering (call.program env) := by
  cases call with
  | create instrumentId idempotencyKey checkpointId =>
      exact issues_only_bind _ _ _ (undelivering_create env.toRuntime instrumentId idempotencyKey
          checkpointId) fun _ => trivial
  | claim postgresql workerId leaseDuration now =>
      exact issues_only_bind _ _ _ (issues_only_claim Undelivering plain_undelivering postgresql
          workerId leaseDuration now) fun _ => trivial
  | settle postgresql now =>
      exact issues_only_bind _ _ _ (issues_only_settle Undelivering plain_undelivering postgresql now)
        fun _ => trivial
  | build claimed keyring => cases idle
  | run exporter polls => cases idle
  | retry packageId =>
      refine issues_only_bind _ _ _ ?_ fun _ => trivial
      exact issues_only_bind _ _ _ (issues_only_query _ (.requestRetry packageId) rfl) fun reply =>
        issues_only_bind _ _ _ (issues_only_committed _ reply) fun package => issues_only_raising _ package
  | cancel packageId =>
      refine issues_only_bind _ _ _ ?_ fun _ => trivial
      exact issues_only_bind _ _ _ (issues_only_query _ (.cancelPackage packageId) rfl) fun reply =>
        issues_only_bind _ _ _ (issues_only_committed _ reply) fun package => issues_only_raising _ package
  | register consumerName idempotencyKey =>
      exact issues_only_bind _ _ _ (issues_only_register Undelivering plain_undelivering consumerName
          idempotencyKey) fun _ => trivial
  | acknowledge consumerId checkpointId =>
      exact issues_only_bind _ _ _ (issues_only_acknowledging Undelivering plain_undelivering consumerId
          checkpointId) fun _ => trivial

end CalibrationLedger
