import CalibrationLedger.Sealing

set_option autoImplicit false

-- What the proof endpoints build from the committed rows.
namespace CalibrationLedger

open JsonText Digest HashTree

section

variable (rt : Runtime)

def boundaryKey (keyring : Keyring) (checkpoint : Checkpoint) : Py Bytes :=
  match requireKey keyring (text checkpoint.keyVersion) with
  | .error (.keyConfiguration message) =>
      .error (.ledger ⟨"UNKNOWN_KEY_VERSION", message, 500, [("key_version", string checkpoint.keyVersion)]⟩)
  | outcome => outcome

def validatedPrefix (table : EventTable) (checkpoint : Checkpoint) (keyring : Keyring) :
    Py (List Event × List Bytes) := do
  let events := table.upTo checkpoint.lastEventSequence
  if events.length ≠ checkpoint.leafCount ∨ events = [] then
    throw (checkpointError "CHECKPOINT_CORRUPT"
        "checkpoint boundary does not match the event prefix" checkpoint)
  else
    let leaves ← checkedLeaves rt events
    if hex (merkleRoot rt.toHashFunction leaves) ≠ checkpoint.rootHash then
      throw (checkpointError "CHECKPOINT_CORRUPT"
          "recomputed Merkle root does not match checkpoint" checkpoint)
    else
      let key ← boundaryKey keyring checkpoint
      checkSignature rt checkpoint key "stored checkpoint signature failed verification"
      return (events, leaves)

def chainBroken (message : String) (checkpoint : Checkpoint) : PyError :=
  checkpointError "CHECKPOINT_CHAIN_BROKEN" message checkpoint

-- session.get(Checkpoint, id)
def Ledger.checkpoint (ledger : Ledger) (checkpointId : Uuid) : Option Checkpoint :=
  ledger.checkpoints.find? fun row => row.checkpointId = checkpointId

def sideName : Side → String
  | .left => "left"
  | .right => "right"

-- The list methods raise MerkleProofError, a ValueError.
def orMerkleProofError {α : Type} : Option α → Py α
  | some proof => .ok proof
  | none => .error .valueError

def bundle (checkpoint previous : Checkpoint) (oldView : Dict) (hashes : List Bytes) : Json := .obj (dict [
  ("old_checkpoint", .obj oldView),
  ("new_checkpoint_id", string checkpoint.checkpointId.toText),
  ("old_size", .int previous.leafCount),
  ("new_size", .int checkpoint.leafCount),
  ("hashes", .arr (hashes.map fun item => string (hex item)))])

def buildConsistencyBundle (ledger : Ledger) (checkpoint : Checkpoint) (leaves : List Bytes)
    (keyring : Keyring) :
    Py Json :=
  match checkpoint.previousCheckpointId with
  | none => return .null
  | some previousId =>
      match ledger.checkpoint previousId with
      | none => throw (chainBroken "adjacent checkpoint record is missing" checkpoint)
      | some previous => do
          let _ ← validatedPrefix rt ledger.events previous keyring
          if some previous.rootHash ≠ checkpoint.previousRootHash then
            throw (chainBroken "adjacent checkpoint root linkage is inconsistent" checkpoint)
          else
            let oldView ← checkpointView rt previous
            let hashes ← orMerkleProofError (consistencyProof rt.toHashFunction leaves previous.leafCount)
            return bundle checkpoint previous oldView hashes

def stepView (step : InclusionStep) : Json :=
  .obj (dict [("side", string (sideName step.side)), ("hash", string (hex step.hash))])

def receiptOf (event checkpoint : Dict) (index leafCount : Nat) (path : List InclusionStep)
    (consistency : Json) : Dict :=
  dict [
    ("event", .obj event),
    ("witness_status", string "sealed"),
    ("checkpoint", .obj checkpoint),
    ("inclusion_proof", .obj (dict [
      ("leaf_index", .int index),
      ("tree_size", .int leafCount),
      ("path", .arr (path.map stepView))])),
    ("consistency_proof", consistency)]

def sealedReceipt (event : Event) (index : Nat) (checkpoint : Checkpoint) (leaves : List Bytes)
    (consistency : Json) : Py Dict := do
  let path ← orMerkleProofError (inclusionProof rt.toHashFunction leaves index)
  let event ← eventView rt event
  let view ← checkpointView rt checkpoint
  return receiptOf event view index checkpoint.leafCount path consistency

def pendingReceipt (event : Dict) : Dict := dict [
  ("event", .obj event),
  ("witness_status", string "pending"),
  ("checkpoint", .null),
  ("inclusion_proof", .null),
  ("consistency_proof", .null)]

def buildReceiptAtCheckpoint (ledger : Ledger) (event : Event) (checkpoint : Checkpoint) (keyring : Keyring) :
    Py Dict := do
  let (events, leaves) ← validatedPrefix rt ledger.events checkpoint keyring
  match events.findIdx? fun item => item.eventId = event.eventId with
  | none =>
      throw (.ledger ⟨"CHECKPOINT_CORRUPT", text "checkpoint boundary does not contain the event", 500,
        [("checkpoint_id", string checkpoint.checkpointId.toText),
          ("event_id", string event.eventId.toText)]⟩)
  | some index =>
      let consistency ← buildConsistencyBundle rt ledger checkpoint leaves keyring
      sealedReceipt rt event index checkpoint leaves consistency

def buildReceipt (ledger : Ledger) (eventId : Uuid) (keyring : Keyring) : Py Dict :=
  match ledger.events.byId eventId with
  | none => throw (notFoundError "event" eventId.toText)
  | some event => do
      let data ← eventCommitmentBytes rt event.fields
      if hex (leafHash rt.toHashFunction data) ≠ event.leafHash then throw (nodeCorrupt event)
      else
        match latest (ledger.checkpoints.filter fun row => event.sequence ≤ row.lastEventSequence) with
        | none => return pendingReceipt (← eventView rt event)
        | some checkpoint => buildReceiptAtCheckpoint rt ledger event checkpoint keyring

structure EventPage where
  checkpointId : Text
  items : List Dict
  nextAfterSequence : Option Int
  hasMore : Bool

def invalidCursor (message : String) (checkpoint : Checkpoint) (cursor incrementStart : Int) : PyError :=
  .ledger ⟨"INVALID_CURSOR", text message, 422,
    [("checkpoint_id", string checkpoint.checkpointId.toText), ("after_sequence", .int cursor),
      ("increment_start", .int incrementStart), ("upper_bound", .int checkpoint.lastEventSequence)]⟩

def incrementStart (ledger : Ledger) (checkpoint : Checkpoint) : Py Int :=
  match checkpoint.previousCheckpointId with
  | none => return 0
  | some previousId =>
      match ledger.checkpoint previousId with
      | none => throw (chainBroken "adjacent checkpoint record is missing" checkpoint)
      | some previous => return previous.lastEventSequence

-- page[-1][1].sequence if has_more else None
def nextCursor (hasMore : Bool) (page : List (Event × Nat)) : Py (Option Int) :=
  if hasMore then
    match page.getLast? with
    | some entry => return some entry.1.sequence
    | none => throw .indexError
  else return none

def buildCheckpointEventPage (ledger : Ledger) (checkpointId : Uuid) (afterSequence : Option Int)
    (limit : Nat) (keyring : Keyring) : Py EventPage :=
  match ledger.checkpoint checkpointId with
  | none => throw (notFoundError "checkpoint" checkpointId.toText)
  | some checkpoint => do
      let start ← incrementStart ledger checkpoint
      let cursor := afterSequence.getD start
      if cursor < start then
        throw (invalidCursor "after_sequence is before the checkpoint's increment start" checkpoint
            cursor start)
      else if checkpoint.lastEventSequence < cursor then
        throw (invalidCursor "after_sequence is beyond the checkpoint's fixed upper bound" checkpoint
            cursor start)
      else
        let (events, leaves) ← validatedPrefix rt ledger.events checkpoint keyring
        let consistency ← buildConsistencyBundle rt ledger checkpoint leaves keyring
        let candidates := events.zipIdx.filter fun entry => cursor < entry.1.sequence
        let page := candidates.take limit
        let items ← page.mapM fun entry => sealedReceipt rt entry.1 entry.2 checkpoint leaves consistency
        let hasMore := decide (limit < candidates.length)
        let nextAfterSequence ← nextCursor hasMore page
        return { checkpointId := text checkpoint.checkpointId.toText, items, nextAfterSequence, hasMore }

end

end CalibrationLedger
