import CalibrationLedger.Service

set_option autoImplicit false

namespace CalibrationLedger

open JsonText Digest Interleaving

inductive SealResult where
  | busy
  | idle
  | sealed (checkpoint : Checkpoint)
deriving DecidableEq

-- The constructor refuses a batch size below one.
structure CheckpointSealer where
  keyring : Keyring
  currentKeyVersion : String
  batchSize : Nat
  positive : 0 < batchSize

def signingKey (keyring : Keyring) (version : String) : Py Bytes :=
  match requireKey keyring (text version) with
  | .error (.keyConfiguration message) =>
      .error (.ledger ⟨"UNKNOWN_KEY_VERSION", message, 500, [("key_version", string version)]⟩)
  | outcome => outcome

def sequenceCorrupt (expected actual : Nat) : PyError :=
  .ledger ⟨"EVENT_SEQUENCE_CORRUPT", text "event prefix does not match the expected checkpoint boundary", 500,
    [("expected_count", .int expected), ("actual_count", .int actual)]⟩

def nodeCorrupt (event : Event) : PyError :=
  .ledger ⟨"MERKLE_NODE_CORRUPT", text "stored event commitment does not match immutable event fields", 500,
    [("event_id", string event.eventId.toText), ("sequence", .int event.sequence)]⟩

def checkpointError (code message : String) (checkpoint : Checkpoint) : PyError :=
  .ledger ⟨code, text message, 500, [("checkpoint_id", string checkpoint.checkpointId.toText)]⟩

section

variable (rt : Runtime)

-- The loop that recomputes every leaf hash and compares it with the stored one.
def checkedLeaves : List Event → Py (List Bytes)
  | [] => .ok []
  | event :: rest => do
      let data ← eventCommitmentBytes rt event.fields
      let calculated := leafHash rt.toHashFunction data
      if hex calculated ≠ event.leafHash then throw (nodeCorrupt event)
      else
        let later ← checkedLeaves rest
        return calculated :: later

def checkSignature (checkpoint : Checkpoint) (key : Bytes) (message : String) : Py Unit := do
  let payload ← checkpointSigningBytes rt checkpoint.fields
  if ← verifyCheckpointSignature rt.toHashFunction payload (text checkpoint.signature) key then return ()
  else throw (checkpointError "CHECKPOINT_SIGNATURE_INVALID" message checkpoint)

def leafCountOf (previous : Option Checkpoint) : Nat := previous.elim 0 Checkpoint.leafCount

def boundaryOf (previous : Option Checkpoint) : Int := previous.elim 0 Checkpoint.lastEventSequence

def checkPrevious (keyring : Keyring) (previous : Option Checkpoint) (leaves : List Bytes) : Py Unit :=
  match previous with
  | none => return ()
  | some previous =>
      if hex (merkleRoot rt.toHashFunction (leaves.take previous.leafCount)) ≠ previous.rootHash then
        throw (checkpointError "CHECKPOINT_CORRUPT"
            "last checkpoint no longer matches its immutable event prefix" previous)
      else do
        let key ← signingKey keyring previous.keyVersion
        checkSignature rt previous key "last checkpoint signature failed verification"

def checkPrefix (keyring : Keyring) (previous : Option Checkpoint) (batch events : List Event) :
    Py (List Bytes) :=
  if events.length ≠ leafCountOf previous + batch.length then
    throw (sequenceCorrupt (leafCountOf previous + batch.length) events.length)
  else do
    let leaves ← checkedLeaves rt events
    checkPrevious rt keyring previous leaves
    return leaves

def newCheckpoint (sealer : CheckpointSealer) (previous : Option Checkpoint) (targetSequence : Int)
    (events : List Event) (leaves : List Bytes) : Tx Checkpoint := do
  let checkpointId ← ask .uuidFactory
  let createdAt ← ask .clock
  let checkpoint : Checkpoint := {
    checkpointId
    leafCount := events.length
    lastEventSequence := targetSequence
    rootHash := hex (merkleRoot rt.toHashFunction leaves)
    previousCheckpointId := previous.map Checkpoint.checkpointId
    previousRootHash := previous.map Checkpoint.rootHash
    keyVersion := sealer.currentKeyVersion
    createdAt
    signature := "" }
  let key ← signingKey sealer.keyring sealer.currentKeyVersion
  let payload ← checkpointSigningBytes rt checkpoint.fields
  return { checkpoint with signature := signCheckpoint rt.toHashFunction payload key }

def flushCheckpoint (checkpoint : Checkpoint) : Tx Checkpoint := do
  if ← ask (.insertCheckpoint checkpoint) then return checkpoint else throw .integrityError

def sealOnce (sealer : CheckpointSealer) : Tx SealResult := transaction do
  if ← ask .tryLockExclusive then
    let previous ← ask .selectLatest
    let batch ← ask (.selectAfter (boundaryOf previous) sealer.batchSize)
    match batch.getLast? with
    | none => return .idle
    | some newest =>
        let events ← ask (.selectUpTo newest.sequence)
        let leaves ← checkPrefix rt sealer.keyring previous batch events
        let checkpoint ← newCheckpoint rt sealer previous newest.sequence events leaves
        return .sealed (← flushCheckpoint checkpoint)
  else return .busy

end

end CalibrationLedger
