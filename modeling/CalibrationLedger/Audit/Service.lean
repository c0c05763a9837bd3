import CalibrationLedger.Audit.Store

set_option autoImplicit false

-- The audit services and the exporter as the transactions they run.
namespace CalibrationLedger

open JsonText Digest Interleaving

-- What Python code of the audit services raises: a database error that is no
-- IntegrityError, the signal of a build that saw its cancellation, any other.
inductive AuditError where
  | database
  | cancelRequested
  | raised (error : PyError)
deriving DecidableEq

abbrev AuditTx : Type → Type := ExceptT AuditError (Program AuditSql)

def issue (statement : AuditStatement) : AuditTx (AuditResponse statement) :=
  ExceptT.lift (Program.statement (S := AuditSql) statement)

def raising {α : Type} : Py α → AuditTx α
  | .ok value => pure value
  | .error error => throw (.raised error)

def query (request : AuditQuery) : AuditTx (Reply request) := do
  match ← issue (.sql request) with
  | some reply => return reply
  | none => throw .database

-- A transaction a constraint can refuse.
def committed {α : Type} : Except Rejection α → AuditTx α
  | .ok value => pure value
  | .error _ => throw (.raised .integrityError)

-- try: body, its outcome kept as a value
def attempt {α : Type} (body : AuditTx α) : AuditTx (Except AuditError α) := ExceptT.mk do
  let outcome ← body.run
  return .ok outcome

-- now or self.clock()
def orClock : Option Instant → AuditTx Instant
  | some moment => pure moment
  | none => issue .clock

def ledgerConflict (code message : String) (details : List (String × Json)) : PyError :=
  .ledger ⟨code, text message, 409, details⟩

def resolveBoundary : Option Uuid → AuditTx Checkpoint
  | some checkpointId => do
      match ← query (.getCheckpoint checkpointId) with
      | some checkpoint => return checkpoint
      | none => raising (.error (notFoundError "checkpoint" checkpointId.toText))
  | none => do
      match ← query .latestCheckpoint with
      | some checkpoint => return checkpoint
      | none => raising (.error (ledgerConflict "NO_SEALED_CHECKPOINT"
          "no sealed checkpoint exists yet; create the package after sealing" [("retryable", .bool true)]))

def boundaryMismatch (checkpoint : Checkpoint) (instrumentId : String) (explicit : Bool) : PyError :=
  if explicit then
    ledgerConflict "CHECKPOINT_DOES_NOT_COVER_INSTRUMENT"
      "the selected checkpoint boundary contains no event for the instrument"
      [("checkpoint_id", string checkpoint.checkpointId.toText), ("instrument_id", string instrumentId),
        ("retryable", .bool false)]
  else
    ledgerConflict "INSTRUMENT_HAS_NO_SEALED_EVENTS"
      "the latest sealed boundary contains no event for the instrument"
      [("checkpoint_id", string checkpoint.checkpointId.toText), ("instrument_id", string instrumentId),
        ("retryable", .bool true)]

def packageConflict (existing : AuditPackage) : PyError :=
  ledgerConflict "IDEMPOTENCY_CONFLICT" "idempotency key was already used with different parameters"
    [("idempotency_key", string existing.idempotencyKey), ("package_id", string existing.packageId.toText),
      ("instrument_id", string existing.instrumentId), ("checkpoint_id", string existing.checkpointId.toText)]

-- _raise_unless_replay of the package service, the existing row being returned.
def replayPackage (existing : AuditPackage) (instrumentId : String) (checkpointId : Option Uuid) :
    Py AuditPackage :=
  if existing.instrumentId = instrumentId ∧
    (checkpointId = none ∨ checkpointId = some existing.checkpointId) then
    .ok existing
  else .error (packageConflict existing)

def newPackage (rt : Runtime) (packageId : Uuid) (idempotencyKey instrumentId : String)
    (checkpoint : Checkpoint) (now : Instant) : Py AuditPackage := do
  let requestFingerprint ← fingerprint rt
    [("instrument_id", string instrumentId), ("checkpoint_id", string checkpoint.checkpointId.toText)]
  return {
    id := 0
    packageId
    idempotencyKey
    requestFingerprint
    instrumentId
    checkpointId := checkpoint.checkpointId
    status := .pending
    attemptCount := 0
    leaseOwner := none
    leaseExpiresAt := none
    failureCode := none
    failureReason := none
    artifactSha256 := none
    artifactSizeBytes := none
    eventCount := none
    createdAt := now
    updatedAt := now
    readyAt := none
    failedAt := none
    cancelRequestedAt := none
    cancelledAt := none }

-- A losing insert is rolled back and settled from the row that won.
def createPackage (rt : Runtime) (instrumentId idempotencyKey : String) (checkpointId : Option Uuid) :
    AuditTx (AuditPackage × Bool) := do
  match ← query (.selectByKey idempotencyKey) with
  | some existing => return (← raising (replayPackage existing instrumentId checkpointId), false)
  | none =>
      let checkpoint ← resolveBoundary checkpointId
      if (← query (.countEvents instrumentId checkpoint.lastEventSequence)) = 0 then
        raising (.error (boundaryMismatch checkpoint instrumentId checkpointId.isSome))
      else
        let now ← issue .clock
        let packageId ← issue .uuidFactory
        let draft ← raising (newPackage rt packageId idempotencyKey instrumentId checkpoint now)
        match ← query (.insertPackage draft) with
        | .ok package => return (package, true)
        | .error _ =>
            match ← query (.selectByKey idempotencyKey) with
            | some existing => return (← raising (replayPackage existing instrumentId checkpointId), false)
            | none => throw (.raised .integrityError)

def claimPackage (postgresql : Bool) (workerId : String) (leaseDuration : Int) (now : Option Instant) :
    AuditTx (Option AuditPackage) := do
  let moment ← orClock now
  if postgresql then raising (← committed (← query (.claimSkipLocked workerId moment leaseDuration)))
  else
    match ← query (.selectEligible moment) with
    | none => return none
    | some id =>
        let expires ← raising (moment.plus leaseDuration)
        raising (← committed (← query (.claimById id workerId moment expires)))

-- The rows one after the other, as the branch without row locks settles them.
def settleEach (moment : Instant) : List Nat → AuditTx (List AuditPackage)
  | [] => return []
  | id :: rest => do
      let settled ← committed (← query (.settleById id moment))
      let more ← settleEach moment rest
      return settled.toList ++ more

def settleStaleCancelling (postgresql : Bool) (now : Option Instant) : AuditTx (List AuditPackage) := do
  let moment ← orClock now
  if postgresql then committed (← query (.settleSkipLocked moment))
  else settleEach moment (← query (.selectStale moment))

def checkBuildCancelled (claimed : AuditPackage) : AuditTx Unit := do
  if (← query (.selectStatus claimed.id)) = some .cancelling then throw .cancelRequested

def readArchive (env : Exporting) (claimed : AuditPackage) (keyring : Keyring) : AuditTx BuiltArchive := do
  let bundle ← loadBundle env.toRuntime (query .readLedger) raising
    (checkBuildCancelled claimed) claimed keyring
  checkBuildCancelled claimed
  raising (buildArchive env bundle)

def buildOnce (env : Exporting) (claimed : AuditPackage) (keyring : Keyring) : AuditTx BuildResult := do
  match ← attempt (readArchive env claimed keyring) with
  | .error .database => throw .database
  | .error (.raised .integrityError) => throw (.raised .integrityError)
  | .error .cancelRequested => committed (← query (.finishCancelled claimed))
  | .error (.raised (.ledger error)) => committed (← query (.failOrCancel claimed error.code error.message))
  | .error (.raised error) =>
      committed (← query
          (.failOrCancel claimed "AUDIT_EXPORT_FAILED" ((env.describe error).take maxFailureReason)))
  | .ok archive => committed (← query (.finalWrite claimed archive))

def retryPackage (packageId : Uuid) : AuditTx AuditPackage := do
  raising (← committed (← query (.requestRetry packageId)))

def cancelRequest (packageId : Uuid) : AuditTx (AuditPackage × Bool) := do
  raising (← committed (← query (.cancelPackage packageId)))

-- The line the exporter logs for what build_once returned.
def outcomeEntry (claimed : AuditPackage) (result : BuildResult) : LogEntry :=
  match result with
  | .status .ready => .packageReady claimed.packageId claimed.attemptCount
  | .status .cancelled => .cancelConfirmed claimed.packageId "requested" claimed.attemptCount
  | .superseded => .claimSuperseded claimed.packageId
  | _ => .packageFailed claimed.packageId

def logSettled : List AuditPackage → AuditTx Unit
  | [] => return ()
  | package :: rest => do
      issue (.log (.cancelConfirmed package.packageId "lease_expired" package.attemptCount))
      logSettled rest

structure Exporter where
  postgresql : Bool
  workerId : String
  leaseDuration : Int
  keyring : Keyring

def exporterPoll (env : Exporting) (exporter : Exporter) : AuditTx Unit := do
  logSettled (← settleStaleCancelling exporter.postgresql none)
  match ← claimPackage exporter.postgresql exporter.workerId exporter.leaseDuration none with
  | none => return ()
  | some claimed =>
      let result ← buildOnce env claimed exporter.keyring
      issue (.log (outcomeEntry claimed result))

-- The exporter's loop for as many polls as it lives to make.
def runExporter (env : Exporting) (exporter : Exporter) : Nat → AuditTx Unit
  | 0 => return ()
  | polls + 1 => do
      match ← attempt (exporterPoll env exporter) with
      | .ok () => runExporter env exporter polls
      | .error .database => do
          issue (.log .databaseUnavailable)
          runExporter env exporter polls
      | .error (.raised .integrityError) => do
          issue (.log .databaseUnavailable)
          runExporter env exporter polls
      | .error other => throw other

def newConsumer (consumerId : Uuid) (consumerName idempotencyKey : String) (now : Instant) :
    AuditConsumer where
  id := 0
  consumerId
  consumerName
  idempotencyKey
  lastCheckpointId := none
  createdAt := now
  updatedAt := now
  lastAcknowledgedAt := none

-- _raise_unless_replay of the consumer service, the existing row being returned.
def replayConsumer (existing : AuditConsumer) (consumerName : String) : Py AuditConsumer :=
  if existing.consumerName = consumerName then .ok existing
  else .error (ledgerConflict "IDEMPOTENCY_CONFLICT"
      "idempotency key was already used with different parameters"
    [("idempotency_key", string existing.idempotencyKey), ("consumer_id", string existing.consumerId.toText),
      ("consumer_name", string existing.consumerName)])

def registerConsumer (consumerName idempotencyKey : String) : AuditTx (AuditConsumer × Bool) := do
  match ← query (.selectConsumerByKey idempotencyKey) with
  | some existing => return (← raising (replayConsumer existing consumerName), false)
  | none =>
      let now ← issue .clock
      let consumerId ← issue .uuidFactory
      match ← query (.insertConsumer (newConsumer consumerId consumerName idempotencyKey now)) with
      | .ok consumer => return (consumer, true)
      | .error _ =>
          match ← query (.selectConsumerByKey idempotencyKey) with
          | some existing => return (← raising (replayConsumer existing consumerName), false)
          | none => throw (.raised .integrityError)

inductive ConflictReason where
  | notFirst
  | skipped
  | regressed
  | duplicate
deriving DecidableEq

def ConflictReason.name : ConflictReason → String
  | .notFirst => "checkpoint_is_not_first"
  | .skipped => "checkpoint_is_not_successor"
  | .regressed => "checkpoint_precedes_current"
  | .duplicate => "checkpoint_already_acknowledged"

def classify (current : Option Checkpoint) (submitted : Checkpoint) : Option ConflictReason :=
  match current with
  | none => if submitted.previousCheckpointId = none then none else some .notFirst
  | some current =>
      if submitted.checkpointId = current.checkpointId then some .duplicate
      else if submitted.leafCount < current.leafCount then some .regressed
      else if submitted.previousCheckpointId ≠ some current.checkpointId then some .skipped
      else none

def acknowledgementConflict (consumer : AuditConsumer) (reason : ConflictReason) (current : Option Checkpoint)
    (submitted : Checkpoint) : PyError :=
  let currentId := optional (current.map fun checkpoint => checkpoint.checkpointId.toText)
  ledgerConflict "ACKNOWLEDGEMENT_CONFLICT"
    "the checkpoint cannot follow the consumer's current acknowledgement point"
    [("reason", string reason.name),
      ("consumer_id", string consumer.consumerId.toText),
      ("submitted_checkpoint_id", string submitted.checkpointId.toText),
      ("submitted_leaf_count", .int submitted.leafCount),
      ("current_checkpoint_id", currentId),
      ("current_leaf_count", (current.map fun checkpoint => (.int checkpoint.leafCount : Json)).getD .null),
      ("expected_predecessor_checkpoint_id", currentId)]

-- session.get(Checkpoint, id) if id is not None else None
def cursorCheckpoint : Option Uuid → AuditTx (Option Checkpoint)
  | none => return none
  | some checkpointId => query (.getCheckpoint checkpointId)

def acknowledgeCheckpoint (consumerId checkpointId : Uuid) : AuditTx (AuditConsumer × Checkpoint) := do
  match ← query (.selectConsumer consumerId) with
  | none => raising (.error (notFoundError "audit_consumer" consumerId.toText))
  | some consumer =>
      match ← query (.getCheckpoint checkpointId) with
      | none => raising (.error (notFoundError "checkpoint" checkpointId.toText))
      | some submitted =>
          let current ← cursorCheckpoint consumer.lastCheckpointId
          match classify current submitted with
          | some reason => raising (.error (acknowledgementConflict consumer reason current submitted))
          | none =>
              let now ← issue .clock
              let expected := current.map Checkpoint.checkpointId
              match ← committed
                  (← query (.advanceCursor consumer.id expected submitted.checkpointId now)) with
              | some advanced => return (advanced, submitted)
              | none =>
                  -- another acknowledgement committed first
                  match ← query (.reloadConsumer consumer.id) with
                  | none => raising (.error .attributeError)
                  | some reloaded =>
                      let cursor ← cursorCheckpoint reloaded.lastCheckpointId
                      let reason := (classify cursor submitted).getD .skipped
                      raising (.error (acknowledgementConflict reloaded reason cursor submitted))

inductive AuditCall where
  | create (instrumentId idempotencyKey : String) (checkpointId : Option Uuid)
  | claim (postgresql : Bool) (workerId : String) (leaseDuration : Int) (now : Option Instant)
  | settle (postgresql : Bool) (now : Option Instant)
  | build (claimed : AuditPackage) (keyring : Keyring)
  | retry (packageId : Uuid)
  | cancel (packageId : Uuid)
  | run (exporter : Exporter) (polls : Nat)
  | register (consumerName idempotencyKey : String)
  | acknowledge (consumerId checkpointId : Uuid)

inductive AuditOutcome where
  | package (package : AuditPackage) (changed : Bool)
  | claimed (package : Option AuditPackage)
  | settled (packages : List AuditPackage)
  | built (result : BuildResult)
  | exported
  | consumer (consumer : AuditConsumer) (created : Bool)
  | acknowledged (consumer : AuditConsumer) (checkpoint : Checkpoint)

def AuditCall.program (env : Exporting) : AuditCall → AuditTx AuditOutcome
  | .create instrumentId idempotencyKey checkpointId => do
      let (package, created) ← createPackage env.toRuntime instrumentId idempotencyKey checkpointId
      return .package package created
  | .claim postgresql workerId leaseDuration now => do
      return .claimed (← claimPackage postgresql workerId leaseDuration now)
  | .settle postgresql now => do return .settled (← settleStaleCancelling postgresql now)
  | .build claimed keyring => do return .built (← buildOnce env claimed keyring)
  | .retry packageId => do return .package (← retryPackage packageId) true
  | .cancel packageId => do
      let (package, changed) ← cancelRequest packageId
      return .package package changed
  | .run exporter polls => do
      runExporter env exporter polls
      return .exported
  | .register consumerName idempotencyKey => do
      let (consumer, created) ← registerConsumer consumerName idempotencyKey
      return .consumer consumer created
  | .acknowledge consumerId checkpointId => do
      let (consumer, checkpoint) ← acknowledgeCheckpoint consumerId checkpointId
      return .acknowledged consumer checkpoint

end CalibrationLedger
