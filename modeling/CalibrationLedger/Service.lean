import CalibrationLedger.Database
import CalibrationLedger.Merkle
import CalibrationLedger.Security

set_option autoImplicit false

-- The append operations as the statements they issue.
namespace CalibrationLedger

open JsonText Digest Interleaving

abbrev Tx (α : Type) := ExceptT PyError (Program Sql) α

def ask (query : Statement) : Tx (Response query) := ExceptT.lift (Program.statement (S := Sql) query)

-- async with session.begin(): commits on return, rolls back on an exception.
def transaction {α : Type} (body : Tx α) : Tx α := ExceptT.mk do
  match ← body.run with
  | .ok value => do
      let _ ← Program.statement (S := Sql) Statement.commit
      return .ok value
  | .error error => do
      let _ ← Program.statement (S := Sql) Statement.rollback
      return .error error

-- try: body; except IntegrityError: await session.rollback(); handler
def onIntegrityError {α : Type} (body handler : Tx α) : Tx α := ExceptT.mk do
  match ← body.run with
  | .error .integrityError => do
      let _ ← Program.statement (S := Sql) Statement.rollback
      handler.run
  | outcome => return outcome

structure SubmitReport where
  businessKey : String
  instrumentId : String
  operatorId : String
  report : Json

abbrev SubmitRevision := SubmitReport

structure SubmitRevocation where
  businessKey : String
  operatorId : String
  reason : String

structure PreparedReport where
  request : SubmitReport
  reportDigest : String
  fingerprint : String

def notFoundError (entity identifier : String) : PyError :=
  .ledger ⟨"NOT_FOUND", text (entity ++ " was not found"), 404,
    [("entity", string entity), ("id", string identifier)]⟩

def checkIdempotency (existing : Event) (fingerprint : String) : Py Event :=
  if existing.contentFingerprint ≠ fingerprint then
    .error (.ledger ⟨"IDEMPOTENCY_CONFLICT", text "business key was already used with different content", 409,
      [("business_key", string existing.businessKey), ("event_id", string existing.eventId.toText)]⟩)
  else .ok existing

section

variable (rt : Runtime)

@[irreducible] def fingerprint (payload : List (String × Json)) : Py String :=
  (canonicalJson rt (.obj (dict payload))).map (sha256Hex rt)

def invalidReport (index : Nat) (request : SubmitReport) : PyError :=
  .ledger ⟨"BATCH_ITEM_INVALID", text "a report in the batch failed the single-report validation rules", 422,
    [("index", .int index), ("business_key", string request.businessKey), ("reason", string "invalid_report"),
      ("message", string (rt.encodingErrorText request.report))]⟩

def reportFingerprint (request : SubmitReport) (reportDigest : String) : Py String :=
  fingerprint rt [("event_type", string "report"), ("business_key", string request.businessKey),
    ("instrument_id", string request.instrumentId), ("operator_id", string request.operatorId),
    ("report_digest", string reportDigest)]

-- except ValueError as exc: raise self._invalid_report(index, request, exc)
def batchDigest (index : Nat) (request : SubmitReport) : Py String :=
  match digestJson rt request.report with
  | .error .valueError => .error (invalidReport rt index request)
  | outcome => outcome

def prepareBatchReport (index : Nat) (request : SubmitReport) : Py PreparedReport := do
  let reportDigest ← batchDigest rt index request
  let fingerprint ← reportFingerprint rt request reportDigest
  return ⟨request, reportDigest, fingerprint⟩

structure Draft where
  eventType : EventType
  businessKey : String
  fingerprint : String
  instrumentId : String
  operatorId : String
  reportDigest : Option String
  previousEventId : Option Uuid
  recordId : Option Uuid
  reason : Option String

-- The sequence is only assigned by the insert; nothing reads it before.
def newEvent (draft : Draft) : Tx Event := do
  let eventId ← ask .uuidFactory
  let occurredAt ← ask .clock
  let event : Event := {
    sequence := 0
    eventId
    recordId := draft.recordId.getD eventId
    eventType := draft.eventType
    businessKey := draft.businessKey
    contentFingerprint := draft.fingerprint
    instrumentId := draft.instrumentId
    operatorId := draft.operatorId
    reportDigest := draft.reportDigest
    previousEventId := draft.previousEventId
    reason := draft.reason
    occurredAt
    leafHash := "" }
  let data ← eventCommitmentBytes rt event.fields
  return { event with leafHash := hex (leafHash rt.toHashFunction data) }

-- session.add(event); await session.flush()
def flushEvent (event : Event) : Tx Event := do
  let sequence ← ask .nextval
  let row := { event with sequence }
  if ← ask (.insertEvent row) then return row else throw .integrityError

def reportDraft (request : SubmitReport) (reportDigest fingerprint : String) : Draft where
  eventType := .report
  businessKey := request.businessKey
  fingerprint
  instrumentId := request.instrumentId
  operatorId := request.operatorId
  reportDigest := some reportDigest
  previousEventId := none
  recordId := none
  reason := none

def insertReport (request : SubmitReport) (reportDigest fingerprint : String) : Tx (Event × Bool) := do
  match ← ask (.selectByKey request.businessKey) with
  | some existing => return (← checkIdempotency existing fingerprint, false)
  | none =>
      ask .lockShared
      let event ← newEvent rt (reportDraft request reportDigest fingerprint)
      return (← flushEvent event, true)

def appendReport (request : SubmitReport) : Tx (Event × Bool) := do
  let reportDigest ← digestJson rt request.report
  let fingerprint ← reportFingerprint rt request reportDigest
  onIntegrityError (transaction (insertReport rt request reportDigest fingerprint)) do
    match ← ask (.selectByKey request.businessKey) with
    | some existing => return (← checkIdempotency existing fingerprint, false)
    | none => throw .integrityError

def prepareBatch : Nat → List SubmitReport → Py (List PreparedReport)
  | _, [] => .ok []
  | index, request :: rest => do
      let item ← prepareBatchReport rt index request
      let later ← prepareBatch (index + 1) rest
      return item :: later

-- firstIndex holds the first item of every key so far, with its place.
def batchCollision (index : Nat) (firstIndex : List (Nat × PreparedReport)) :
    List PreparedReport → Option PyError
  | [] => none
  | item :: rest =>
      match firstIndex.find? fun entry => entry.2.request.businessKey = item.request.businessKey with
      | none => batchCollision (index + 1) (firstIndex ++ [(index, item)]) rest
      | some (prior, first) =>
          if first.fingerprint ≠ item.fingerprint then
            some (.ledger ⟨"IDEMPOTENCY_CONFLICT",
              text "business key was already used in this batch with different content", 409,
              [("index", .int index), ("first_index", .int prior),
                ("business_key", string item.request.businessKey)]⟩)
          else batchCollision (index + 1) firstIndex rest

def conflictingItem (existing : List Event) : Nat → List PreparedReport → Option PyError
  | _, [] => none
  | index, item :: rest =>
      match existing.find? fun row => row.businessKey = item.request.businessKey with
      | none => conflictingItem existing (index + 1) rest
      | some row =>
          if row.contentFingerprint ≠ item.fingerprint then
            some (.ledger ⟨"IDEMPOTENCY_CONFLICT",
              text "business key was already used with different content", 409,
              [("index", .int index), ("business_key", string item.request.businessKey),
                ("event_id", string row.eventId.toText)]⟩)
          else conflictingItem existing (index + 1) rest

def batchKeys (prepared : List PreparedReport) : List String :=
  prepared.map fun item => item.request.businessKey

def committedBatchConflict (prepared : List PreparedReport) : Tx (Option PyError) := transaction do
  let existing ← ask (.selectByKeys (batchKeys prepared))
  return conflictingItem existing 0 prepared

-- exc.details = {"index": index, **exc.details}
def withIndex {α : Type} (index : Nat) : Py α → Py α
  | .error (.ledger error) =>
      .error (.ledger { error with details := ("index", .int index) :: error.details })
  | outcome => outcome

def insertItems (index : Nat) (resolved appended : List Event) :
    List PreparedReport → Tx (List (Event × Bool))
  | [] => return []
  | item :: rest => do
      let key := item.request.businessKey
      match resolved.find? fun row => row.businessKey = key with
      | some existing => do
          let event ← withIndex index (checkIdempotency existing item.fingerprint)
          let later ← insertItems (index + 1) resolved appended rest
          return (event, false) :: later
      | none =>
          match appended.find? fun row => row.businessKey = key with
          | none => do
              let event ← flushEvent
                (← newEvent rt (reportDraft item.request item.reportDigest item.fingerprint))
              let later ← insertItems (index + 1) (resolved ++ [event]) (appended ++ [event]) rest
              return (event, true) :: later
          | some event => do
              let later ← insertItems (index + 1) resolved appended rest
              return (event, false) :: later

def insertReportBatch (prepared : List PreparedReport) : Tx (List (Event × Bool)) := do
  ask .lockShared
  let existing ← ask (.selectByKeys (batchKeys prepared))
  insertItems rt 0 existing [] prepared

def batchInsertAttempts : Nat := 4

-- The loop with so many attempts left after this one.
def attemptBatch (prepared : List PreparedReport) : Nat → Tx (List (Event × Bool))
  | 0 => onIntegrityError (transaction (insertReportBatch rt prepared)) do
      match ← committedBatchConflict prepared with
      | some conflict => throw conflict
      | none => throw .integrityError
  | left + 1 => onIntegrityError (transaction (insertReportBatch rt prepared)) do
      match ← committedBatchConflict prepared with
      | some conflict => throw conflict
      | none => attemptBatch prepared left

def appendReportBatch (requests : List SubmitReport) : Tx (List (Event × Bool)) := do
  let prepared ← prepareBatch rt 0 requests
  match batchCollision 0 [] prepared with
  | some conflict => throw conflict
  | none => attemptBatch rt prepared (batchInsertAttempts - 1)

structure Successor where
  previousEventId : Uuid
  eventType : EventType
  businessKey : String
  fingerprint : String
  operatorId : String
  instrumentId : Option String
  reportDigest : Option String
  reason : Option String

def alreadySuperseded (previousEventId : Uuid) (successor : Event) : PyError :=
  .ledger ⟨"EVENT_ALREADY_SUPERSEDED", text "the selected event already has a successor", 409,
    [("event_id", string previousEventId.toText), ("successor_event_id", string successor.eventId.toText)]⟩

def recordRevoked (previousEventId : Uuid) : PyError :=
  .ledger ⟨"RECORD_REVOKED", text "a revoked record cannot be revised or revoked again", 409,
    [("event_id", string previousEventId.toText)]⟩

def instrumentMismatch (expected received : String) : PyError :=
  .ledger ⟨"INSTRUMENT_MISMATCH", text "a revision cannot change the instrument identifier", 409,
    [("expected", string expected), ("received", string received)]⟩

def successorDraft (request : Successor) (parent : Event) : Draft where
  eventType := request.eventType
  businessKey := request.businessKey
  fingerprint := request.fingerprint
  instrumentId := parent.instrumentId
  operatorId := request.operatorId
  reportDigest := request.reportDigest
  previousEventId := some parent.eventId
  recordId := some parent.recordId
  reason := request.reason

def changesInstrument (requested : Option String) (parent : Event) : Option String :=
  requested.filter fun instrument => instrument ≠ parent.instrumentId

def insertSuccessor (request : Successor) : Tx (Event × Bool) := do
  match ← ask (.selectByKey request.businessKey) with
  | some existing => return (← checkIdempotency existing request.fingerprint, false)
  | none =>
      ask .lockShared
      match ← ask (.selectForUpdate request.previousEventId) with
      | none => throw (notFoundError "event" request.previousEventId.toText)
      | some parent =>
          if parent.eventType = .revocation then throw (recordRevoked request.previousEventId)
          else
            match ← ask (.selectSuccessor request.previousEventId) with
            | some successor => throw (alreadySuperseded request.previousEventId successor)
            | none =>
                match changesInstrument request.instrumentId parent with
                | some received => throw (instrumentMismatch parent.instrumentId received)
                | none =>
                    let event ← newEvent rt (successorDraft request parent)
                    return (← flushEvent event, true)

def appendSuccessor (request : Successor) : Tx (Event × Bool) :=
  onIntegrityError (transaction (insertSuccessor rt request)) do
    match ← ask (.selectByKey request.businessKey) with
    | some existing => return (← checkIdempotency existing request.fingerprint, false)
    | none =>
        match ← ask (.selectSuccessor request.previousEventId) with
        | some successor => throw (alreadySuperseded request.previousEventId successor)
        | none => throw .integrityError

def revisionFingerprint (previousEventId : Uuid) (request : SubmitRevision) (reportDigest : String) :
    Py String :=
  fingerprint rt [("event_type", string "revision"), ("business_key", string request.businessKey),
    ("previous_event_id", string previousEventId.toText), ("instrument_id", string request.instrumentId),
    ("operator_id", string request.operatorId), ("report_digest", string reportDigest)]

def revocationFingerprint (previousEventId : Uuid) (request : SubmitRevocation) : Py String :=
  fingerprint rt [("event_type", string "revocation"), ("business_key", string request.businessKey),
    ("previous_event_id", string previousEventId.toText), ("operator_id", string request.operatorId),
    ("reason", string request.reason)]

def revisionOf (previousEventId : Uuid) (request : SubmitRevision) (reportDigest fingerprint : String) :
    Successor where
  previousEventId
  eventType := .revision
  businessKey := request.businessKey
  fingerprint
  operatorId := request.operatorId
  instrumentId := some request.instrumentId
  reportDigest := some reportDigest
  reason := none

def revocationOf (previousEventId : Uuid) (request : SubmitRevocation) (fingerprint : String) :
    Successor where
  previousEventId
  eventType := .revocation
  businessKey := request.businessKey
  fingerprint
  operatorId := request.operatorId
  instrumentId := none
  reportDigest := none
  reason := some request.reason

def appendRevision (previousEventId : Uuid) (request : SubmitRevision) : Tx (Event × Bool) := do
  let reportDigest ← digestJson rt request.report
  let fingerprint ← revisionFingerprint rt previousEventId request reportDigest
  appendSuccessor rt (revisionOf previousEventId request reportDigest fingerprint)

def appendRevocation (previousEventId : Uuid) (request : SubmitRevocation) : Tx (Event × Bool) := do
  let fingerprint ← revocationFingerprint rt previousEventId request
  appendSuccessor rt (revocationOf previousEventId request fingerprint)

end

end CalibrationLedger
