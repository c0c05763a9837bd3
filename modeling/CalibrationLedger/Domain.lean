import CalibrationLedger.Canonical

set_option autoImplicit false

-- The rows of the ledger and what is committed to and shown of them.
namespace CalibrationLedger

open JsonText Digest

inductive EventType where
  | report
  | revision
  | revocation
deriving DecidableEq

def EventType.name : EventType → String
  | .report => "report"
  | .revision => "revision"
  | .revocation => "revocation"

structure Event where
  sequence : Int
  eventId : Uuid
  recordId : Uuid
  eventType : EventType
  businessKey : String
  contentFingerprint : String
  instrumentId : String
  operatorId : String
  reportDigest : Option String
  previousEventId : Option Uuid
  reason : Option String
  occurredAt : Instant
  leafHash : String
deriving DecidableEq

structure Checkpoint where
  checkpointId : Uuid
  leafCount : Nat
  lastEventSequence : Int
  rootHash : String
  previousCheckpointId : Option Uuid
  previousRootHash : Option String
  keyVersion : String
  createdAt : Instant
  signature : String
deriving DecidableEq

-- A row's timestamp is a datetime; a parsed object's can be any value.
inductive Timestamp where
  | datetime (value : DateTime)
  | json (value : Json)

-- A row or a parsed object as the code reads it: get(key), and the one field that
-- can hold a datetime. A UUID attribute stands as its text, for str() is all
-- that is ever done with it.
structure Fields where
  get : String → Json
  time : Timestamp

def string (content : String) : Json := .str (text content)

def optional (content : Option String) : Json := (content.map string).getD .null

def Event.fields (event : Event) : Fields where
  get
    | "event_id" => string event.eventId.toText
    | "record_id" => string event.recordId.toText
    | "event_type" => string event.eventType.name
    | "business_key" => string event.businessKey
    | "content_fingerprint" => string event.contentFingerprint
    | "instrument_id" => string event.instrumentId
    | "operator_id" => string event.operatorId
    | "report_digest" => optional event.reportDigest
    | "previous_event_id" => optional (event.previousEventId.map Uuid.toText)
    | "reason" => optional event.reason
    | _ => .null
  time := .datetime ⟨event.occurredAt, some 0⟩

def Checkpoint.fields (checkpoint : Checkpoint) : Fields where
  get
    | "checkpoint_id" => string checkpoint.checkpointId.toText
    | "leaf_count" => .int checkpoint.leafCount
    | "last_event_sequence" => .int checkpoint.lastEventSequence
    | "root_hash" => string checkpoint.rootHash
    | "previous_checkpoint_id" => optional (checkpoint.previousCheckpointId.map Uuid.toText)
    | "previous_root_hash" => optional checkpoint.previousRootHash
    | "key_version" => string checkpoint.keyVersion
    | _ => .null
  time := .datetime ⟨checkpoint.createdAt, some 0⟩

def jsonFields (timeKey : String) (members : Dict) : Fields :=
  ⟨fun key => getItem key members, .json (getItem timeKey members)⟩

section

variable (rt : Runtime)

-- isoformat_utc, a string being parsed first. Anything else has no tzinfo.
def timestampText : Timestamp → Py Text
  | .datetime value => isoformatUtc value
  | .json (.str content) =>
      match rt.fromisoformat (replace "Z" "+00:00" content) with
      | some value => isoformatUtc value
      | none => .error .valueError
  | .json _ => .error .attributeError

-- str(value) if value is not None else None
def optionalStr : Json → Json
  | .null => .null
  | value => .str (pyStr rt value)

def commitmentMembers (event : Fields) (occurredText : Text) : List (String × Json) := [
  ("schema_version", .int 1),
  ("event_id", .str (pyStr rt (event.get "event_id"))),
  ("record_id", .str (pyStr rt (event.get "record_id"))),
  ("event_type", event.get "event_type"),
  ("business_key", event.get "business_key"),
  ("content_fingerprint", event.get "content_fingerprint"),
  ("instrument_id", event.get "instrument_id"),
  ("operator_id", event.get "operator_id"),
  ("report_digest", event.get "report_digest"),
  ("previous_event_id", optionalStr rt (event.get "previous_event_id")),
  ("reason", event.get "reason"),
  ("occurred_at", .str occurredText)]

def payloadMembers (checkpoint : Fields) (createdText : Text) : List (String × Json) := [
  ("schema_version", .int 1),
  ("checkpoint_id", .str (pyStr rt (checkpoint.get "checkpoint_id"))),
  ("leaf_count", checkpoint.get "leaf_count"),
  ("last_event_sequence", checkpoint.get "last_event_sequence"),
  ("root_hash", checkpoint.get "root_hash"),
  ("previous_checkpoint_id", optionalStr rt (checkpoint.get "previous_checkpoint_id")),
  ("previous_root_hash", checkpoint.get "previous_root_hash"),
  ("key_version", checkpoint.get "key_version"),
  ("created_at", .str createdText)]

end

def dict (members : List (String × Json)) : Dict := members.map fun entry => (text entry.1, entry.2)

section

variable (rt : Runtime)

def eventCommitment (event : Fields) : Py Dict := do
  let occurredText ← timestampText rt event.time
  return dict (commitmentMembers rt event occurredText)

def eventCommitmentBytes (event : Fields) : Py Bytes := do
  let commitment ← eventCommitment rt event
  canonicalJson rt (.obj commitment)

def eventView (event : Event) : Py Dict := do
  let result ← eventCommitment rt event.fields
  let shown := result.filter fun entry => entry.1 ≠ text "schema_version"
  return (text "sequence", .int event.sequence) :: shown ++ [(text "leaf_hash", string event.leafHash)]

def checkpointPayload (checkpoint : Fields) : Py Dict := do
  let createdText ← timestampText rt checkpoint.time
  return dict (payloadMembers rt checkpoint createdText)

def checkpointSigningBytes (checkpoint : Fields) : Py Bytes := do
  let payload ← checkpointPayload rt checkpoint
  canonicalJson rt (.obj payload)

def checkpointView (checkpoint : Checkpoint) : Py Dict := do
  let payload ← checkpointPayload rt checkpoint.fields
  return payload ++ [(text "signature", string checkpoint.signature)]

end

end CalibrationLedger
