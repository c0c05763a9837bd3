import CalibrationLedger.Merkle
import CalibrationLedger.Security

set_option autoImplicit false

-- The offline verifier, stage by stage in the order of the source.
namespace CalibrationLedger

open JsonText Digest HashTree

def invalidProof (reason : String) (details : List (String × Json)) : PyError :=
  .ledger ⟨"INVALID_PROOF", text reason, 422, details⟩

-- except (KeyError, TypeError, ValueError) as exc: raise InvalidProofError(reason)
def translating {α : Type} (reason : String) : Py α → Py α
  | .ok value => .ok value
  | .error .keyError => .error (invalidProof reason [])
  | .error .typeError => .error (invalidProof reason [])
  | .error .valueError => .error (invalidProof reason [])
  | .error error => .error error

-- if not condition: raise InvalidProofError(reason)
def ensure (condition : Bool) (reason : String) : Py Unit :=
  if condition then .ok () else .error (invalidProof reason [])

def decodeHash (value : Json) (field : String) : Py Bytes :=
  match value with
  | .str content =>
      match fromhex content with
      | some decoded =>
          if decoded.length ≠
            32 then .error (invalidProof (field ++ " must encode 32 bytes") [("field", string field)])
          else .ok decoded
      | none => .error (invalidProof (field ++ " is not valid hexadecimal") [("field", string field)])
  | _ => .error (invalidProof (field ++ " must be a hexadecimal string") [("field", string field)])

section

variable (rt : Runtime)

-- str(value) and canonical_json(value) of a parsed value, and str() of some members of one.
-- What has been through either is not tried again below: it has shown to be shallow enough
-- for str() and for ==.
def strOf (value : Json) : Py Text :=
  if rt.strExhausts value then .error .recursionError else .ok (pyStr rt value)

def dumped (value : Json) : Py Bytes :=
  if rt.dumpsExhausts false true value then .error .recursionError else canonicalJson rt value

def named (data : Dict) (keys : List String) : Py Unit :=
  if keys.any fun key => rt.strExhausts (getItem key data) then .error .recursionError else .ok ()

-- event_commitment_bytes and checkpoint_signing_bytes of a parsed object.
def parsedEventBytes (event : Dict) : Py Bytes := do
  let commitment ← eventCommitment rt (jsonFields "occurred_at" event)
  named rt event ["event_id", "record_id", "previous_event_id"]
  dumped rt (.obj commitment)

def parsedCheckpointBytes (checkpoint : Dict) : Py Bytes := do
  let payload ← checkpointPayload rt (jsonFields "created_at" checkpoint)
  named rt checkpoint ["checkpoint_id", "previous_checkpoint_id"]
  dumped rt (.obj payload)

def signedCheckpointFields (data : Json) (keyring : Keyring) : Py (Text × Bytes × Bytes) := do
  let version ← strOf rt (← subscript "key_version" data)
  let signature ← strOf rt (← subscript "signature" data)
  let key ← requireKey keyring version
  let payload ← parsedCheckpointBytes rt (dictOf data)
  return (signature, key, payload)

def checkpointName (data : Dict) : Json :=
  match member (text "checkpoint_id") data with
  | some value => .str (pyStr rt value)
  | none => string "unknown"

def verifySignedCheckpoint (data : Json) (keyring : Keyring) : Py Unit := do
  let (signature, key, payload) ← translating "checkpoint fields are malformed"
    (signedCheckpointFields rt data keyring)
  if ← verifyCheckpointSignature rt.toHashFunction payload signature key then return ()
  else throw (invalidProof "checkpoint HMAC signature does not match"
      [("checkpoint_id", checkpointName rt (dictOf data))])

structure EventStage where
  status : Json
  claimedLeaf : Bytes
  calculatedLeaf : Bytes

def readEvent (receipt : Dict) : Py EventStage := do
  let event ← subscript "event" (.obj receipt)
  let status ← subscript "witness_status" (.obj receipt)
  let claimedLeaf ← decodeHash (← subscript "leaf_hash" event) "event.leaf_hash"
  let data ← parsedEventBytes rt (dictOf event)
  return ⟨status, claimedLeaf, leafHash rt.toHashFunction data⟩

def readSteps : Nat → List Json → Py (List (Json × Bytes))
  | _, [] => .ok []
  | index, item :: rest => do
      let side ← subscript "side" item
      let hash ← decodeHash (← subscript "hash" item) s!"inclusion_proof.path[{index}].hash"
      let later ← readSteps (index + 1) rest
      return (side, hash) :: later

-- step.side not in {"left", "right"}: a list or a dict cannot even be asked for.
def readSide : Json → Py Side
  | .str content =>
      if content = text "left" then .ok .left
      else if content = text "right" then .ok .right
      else .error (invalidProof "inclusion proof contains an invalid side" [])
  | .arr _ => .error .typeError
  | .obj _ => .error .typeError
  | _ => .error (invalidProof "inclusion proof contains an invalid side" [])

def readSides : List (Json × Bytes) → Py (List InclusionStep)
  | [] => .ok []
  | (side, hash) :: rest => do
      let stands ← readSide side
      let later ← readSides rest
      return ⟨stands, hash⟩ :: later

structure InclusionStage where
  checkpoint : Json
  expectedRoot : Bytes
  included : Bool

def readInclusion (receipt : Dict) (keyring : Keyring) (calculatedLeaf : Bytes) : Py InclusionStage := do
  let checkpoint ← subscript "checkpoint" (.obj receipt)
  let proof ← subscript "inclusion_proof" (.obj receipt)
  verifySignedCheckpoint rt checkpoint keyring
  let expectedRoot ← decodeHash (← subscript "root_hash" checkpoint) "checkpoint.root_hash"
  let path ← iterate (← subscript "path" proof)
  let steps ← readSides (← readSteps 0 path)
  let treeSize ← pyInt rt (← subscript "tree_size" proof)
  let leafCount ← pyInt rt (← subscript "leaf_count" checkpoint)
  ensure (treeSize == leafCount) "inclusion proof tree size does not match checkpoint"
  let leafIndex ← pyInt rt (← subscript "leaf_index" proof)
  return ⟨checkpoint, expectedRoot,
    verifyInclusion rt.toHashFunction calculatedLeaf leafIndex treeSize steps expectedRoot⟩

def readHashes : Nat → List Json → Py (List Bytes)
  | _, [] => .ok []
  | index, item :: rest => do
      let hash ← decodeHash item s!"consistency_proof.hashes[{index}]"
      let later ← readHashes (index + 1) rest
      return hash :: later

def readConsistency (checkpoint consistency previousId : Json) (keyring : Keyring)
    (expectedRoot : Bytes) : Py Bool := do
  let oldCheckpoint ← subscript "old_checkpoint" consistency
  verifySignedCheckpoint rt oldCheckpoint keyring
  let oldId ← subscript "checkpoint_id" oldCheckpoint
  ensure (pyStr rt oldId == pyStr rt previousId) "consistency proof is not for the adjacent checkpoint"
  ensure (pyEq (getItem "previous_root_hash" (dictOf checkpoint))
      (getItem "root_hash" (dictOf oldCheckpoint)))
    "checkpoint predecessor root linkage is broken"
  let newId ← strOf rt (← subscript "new_checkpoint_id" consistency)
  let checkpointId ← subscript "checkpoint_id" checkpoint
  ensure (newId == pyStr rt checkpointId) "consistency proof target checkpoint does not match"
  let items ← iterate (← subscript "hashes" consistency)
  let hashes ← readHashes 0 items
  let oldSize ← pyInt rt (← subscript "old_size" consistency)
  let newSize ← pyInt rt (← subscript "new_size" consistency)
  let oldCount ← pyInt rt (← subscript "leaf_count" oldCheckpoint)
  ensure (oldSize == oldCount) "old consistency size does not match predecessor"
  let newCount ← pyInt rt (← subscript "leaf_count" checkpoint)
  ensure (newSize == newCount) "new consistency size does not match checkpoint"
  let oldRoot ← decodeHash (← subscript "root_hash" oldCheckpoint) "old_checkpoint.root_hash"
  return verifyConsistency rt.toHashFunction oldSize newSize oldRoot expectedRoot hashes

structure Verification where
  valid : Bool
  witnessed : Bool
  checkpointId : Option Text
deriving DecidableEq

def verifyPending (receipt : Dict) : Py Verification := do
  ensure (getItem "checkpoint" receipt = .null && getItem "inclusion_proof" receipt = .null)
    "a pending receipt cannot contain a checkpoint proof"
  return ⟨true, false, none⟩

def verifyPredecessor (receipt : Dict) (keyring : Keyring) (checkpoint : Json) (expectedRoot : Bytes) :
    Py Unit := do
  let previousId := getItem "previous_checkpoint_id" (dictOf checkpoint)
  let consistency := getItem "consistency_proof" receipt
  if previousId = .null then
    ensure (getItem "previous_root_hash" (dictOf checkpoint) =
        .null) "first checkpoint cannot contain a predecessor root"
    ensure (consistency = .null) "first checkpoint cannot have a consistency predecessor"
  else
    match consistency with
    | .obj _ =>
        let consistent ← translating "consistency proof fields are malformed"
          (readConsistency rt checkpoint consistency previousId keyring expectedRoot)
        ensure consistent "checkpoint roots are not append-only consistent"
    | _ => throw (invalidProof "adjacent checkpoint consistency proof is missing" [])

def verifySealed (receipt : Dict) (keyring : Keyring) (calculatedLeaf : Bytes) : Py Verification := do
  let stage ← translating "inclusion proof fields are malformed"
    (readInclusion rt receipt keyring calculatedLeaf)
  ensure stage.included "event is not included in the checkpoint root"
  verifyPredecessor rt receipt keyring stage.checkpoint stage.expectedRoot
  let checkpointId ← subscript "checkpoint_id" stage.checkpoint
  return ⟨true, true, some (pyStr rt checkpointId)⟩

def verifyReceipt (receipt : Dict) (keyring : Keyring) : Py Verification := do
  let stage ← translating "event commitment fields are malformed" (readEvent rt receipt)
  ensure (stage.claimedLeaf == stage.calculatedLeaf) "event commitment hash does not match its public fields"
  if stage.status = string "pending" then verifyPending receipt
  else if stage.status = string "sealed" then verifySealed rt receipt keyring stage.calculatedLeaf
  else throw (invalidProof "unknown witness status" [("witness_status", stage.status)])

end

end CalibrationLedger
