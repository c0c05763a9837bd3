import CalibrationLedger.Growth
import CalibrationLedger.Library.Moments

set_option autoImplicit false

-- The read endpoints, and the same endpoints statement by statement: writers and
-- sealers commit between the SELECTs of one request.
namespace CalibrationLedger

open JsonText Digest HashTree Interleaving Moments

section

variable (rt : Runtime)

def buildCheckpointView (ledger : Ledger) (checkpointId : Uuid) (keyring : Keyring) : Py Dict :=
  match ledger.checkpoint checkpointId with
  | none => throw (notFoundError "checkpoint" checkpointId.toText)
  | some checkpoint => do
      let (_, leaves) ← validatedPrefix rt ledger.events checkpoint keyring
      let consistency ← buildConsistencyBundle rt ledger checkpoint leaves keyring
      let view ← checkpointView rt checkpoint
      return dict [("checkpoint", .obj view), ("consistency_proof", consistency)]

end

inductive LedgerQuery where
  | eventById (eventId : Uuid)
  | coveringCheckpoint (sequence : Int)
  | getCheckpoint (checkpointId : Uuid)
  | eventsUpTo (boundary : Int)

@[reducible] def LedgerReply : LedgerQuery → Type
  | .eventById _ => Option Event
  | .coveringCheckpoint _ => Option Checkpoint
  | .getCheckpoint _ => Option Checkpoint
  | .eventsUpTo _ => List Event

abbrev LedgerSql : Signature := ⟨LedgerQuery, LedgerReply⟩

def Ledger.answer : (query : LedgerQuery) → Ledger → LedgerReply query
  | .eventById eventId, ledger => ledger.events.byId eventId
  | .coveringCheckpoint sequence, ledger =>
      latest (ledger.checkpoints.filter fun row => sequence ≤ row.lastEventSequence)
  | .getCheckpoint checkpointId, ledger => ledger.checkpoint checkpointId
  | .eventsUpTo boundary, ledger => ledger.events.upTo boundary

abbrev ReadTx (α : Type) := ExceptT PyError (Program LedgerSql) α

def select (query : LedgerQuery) : ReadTx (LedgerReply query) :=
  ExceptT.lift (Program.statement (S := LedgerSql) query)

-- The answer to a request whose statements find these moments, one after the other.
def serve {α : Type} (request : ReadTx α) (moments : Nat → Ledger) : Py α :=
  (readAlong Ledger.answer request.run moments).1

namespace Requests

variable (rt : Runtime)

def validatedPrefix (checkpoint : Checkpoint) (keyring : Keyring) : ReadTx (List Event × List Bytes) := do
  let events ← select (.eventsUpTo checkpoint.lastEventSequence)
  if events.length ≠ checkpoint.leafCount ∨ events = [] then
    throw (checkpointError "CHECKPOINT_CORRUPT"
        "checkpoint boundary does not match the event prefix" checkpoint)
  else
    let leaves ← checkedLeaves rt events
    if hex (merkleRoot rt.toHashFunction leaves) ≠ checkpoint.rootHash then
      throw (checkpointError "CHECKPOINT_CORRUPT"
          "recomputed Merkle root does not match checkpoint" checkpoint)
    else
      let key ← boundaryKey keyring checkpoint
      checkSignature rt checkpoint key "stored checkpoint signature failed verification"
      return (events, leaves)

def buildConsistencyBundle (checkpoint : Checkpoint) (leaves : List Bytes) (keyring : Keyring) :
    ReadTx Json :=
  match checkpoint.previousCheckpointId with
  | none => return .null
  | some previousId => do
      match ← select (.getCheckpoint previousId) with
      | none => throw (chainBroken "adjacent checkpoint record is missing" checkpoint)
      | some previous =>
          let _ ← validatedPrefix rt previous keyring
          if some previous.rootHash ≠ checkpoint.previousRootHash then
            throw (chainBroken "adjacent checkpoint root linkage is inconsistent" checkpoint)
          else
            let oldView ← checkpointView rt previous
            let hashes ← orMerkleProofError (consistencyProof rt.toHashFunction leaves previous.leafCount)
            return bundle checkpoint previous oldView hashes

def buildReceiptAtCheckpoint (event : Event) (checkpoint : Checkpoint) (keyring : Keyring) : ReadTx Dict := do
  let (events, leaves) ← validatedPrefix rt checkpoint keyring
  match events.findIdx? fun item => item.eventId = event.eventId with
  | none =>
      throw (.ledger ⟨"CHECKPOINT_CORRUPT", text "checkpoint boundary does not contain the event", 500,
        [("checkpoint_id", string checkpoint.checkpointId.toText),
          ("event_id", string event.eventId.toText)]⟩)
  | some index =>
      let consistency ← buildConsistencyBundle rt checkpoint leaves keyring
      sealedReceipt rt event index checkpoint leaves consistency

def buildReceipt (eventId : Uuid) (keyring : Keyring) : ReadTx Dict := do
  match ← select (.eventById eventId) with
  | none => throw (notFoundError "event" eventId.toText)
  | some event =>
      let data ← eventCommitmentBytes rt event.fields
      if hex (leafHash rt.toHashFunction data) ≠ event.leafHash then throw (nodeCorrupt event)
      else
        match ← select (.coveringCheckpoint event.sequence) with
        | none => return pendingReceipt (← eventView rt event)
        | some checkpoint => buildReceiptAtCheckpoint rt event checkpoint keyring

def buildCheckpointView (checkpointId : Uuid) (keyring : Keyring) : ReadTx Dict := do
  match ← select (.getCheckpoint checkpointId) with
  | none => throw (notFoundError "checkpoint" checkpointId.toText)
  | some checkpoint =>
      let (_, leaves) ← validatedPrefix rt checkpoint keyring
      let consistency ← buildConsistencyBundle rt checkpoint leaves keyring
      let view ← checkpointView rt checkpoint
      return dict [("checkpoint", .obj view), ("consistency_proof", consistency)]

def incrementStart (checkpoint : Checkpoint) : ReadTx Int :=
  match checkpoint.previousCheckpointId with
  | none => return 0
  | some previousId => do
      match ← select (.getCheckpoint previousId) with
      | none => throw (chainBroken "adjacent checkpoint record is missing" checkpoint)
      | some previous => return previous.lastEventSequence

def buildCheckpointEventPage (checkpointId : Uuid) (afterSequence : Option Int) (limit : Nat)
    (keyring : Keyring) : ReadTx EventPage := do
  match ← select (.getCheckpoint checkpointId) with
  | none => throw (notFoundError "checkpoint" checkpointId.toText)
  | some checkpoint =>
      let start ← incrementStart checkpoint
      let cursor := afterSequence.getD start
      if cursor < start then
        throw (invalidCursor "after_sequence is before the checkpoint's increment start" checkpoint
            cursor start)
      else if checkpoint.lastEventSequence < cursor then
        throw (invalidCursor "after_sequence is beyond the checkpoint's fixed upper bound" checkpoint
            cursor start)
      else
        let (events, leaves) ← validatedPrefix rt checkpoint keyring
        let consistency ← buildConsistencyBundle rt checkpoint leaves keyring
        let candidates := events.zipIdx.filter fun entry => cursor < entry.1.sequence
        let page := candidates.take limit
        let items : List Dict ← liftM
          (page.mapM fun entry => sealedReceipt rt entry.1 entry.2 checkpoint leaves consistency)
        let hasMore := decide (limit < candidates.length)
        let nextAfterSequence ← (liftM (nextCursor hasMore page) : ReadTx (Option Int))
        return { checkpointId := text checkpoint.checkpointId.toText, items, nextAfterSequence, hasMore }

end Requests

end CalibrationLedger
