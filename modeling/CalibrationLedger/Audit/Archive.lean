import CalibrationLedger.Audit.Package
import CalibrationLedger.Proofs

set_option autoImplicit false

-- What an audit package holds: one receipt per event within the boundary and a
-- manifest, in a ZIP whose metadata is fixed.
namespace CalibrationLedger

open JsonText Digest

structure ReceiptEntry where
  sequence : Int
  receipt : Dict

-- f"{number:0{width}d}", the sign counted in the width.
def zeroPadded (width : Nat) (number : Int) : List Char :=
  let digits := Nat.toDigits 10 number.natAbs
  let sign := if number < 0 then ['-'] else []
  sign ++ List.replicate (width - sign.length - digits.length) '0' ++ digits

def ReceiptEntry.name (entry : ReceiptEntry) : String :=
  "receipts/event-" ++ String.ofList (zeroPadded 20 entry.sequence) ++ ".json"

structure PackageBundle where
  packageId : String
  idempotencyKey : String
  instrumentId : String
  checkpoint : Dict
  entries : List ReceiptEntry

-- One member of the ZIP. Every other header field is the same constant for all.
structure ZipMember where
  name : String
  data : Bytes
  externalAttr : Nat
  deflated : Bool

-- str(exc), and what zipfile writes for a list of members.
structure Exporting extends Runtime where
  describe : PyError → Text
  zip : List ZipMember → Bytes

section

variable (rt : Runtime)

def receiptBytes (entry : ReceiptEntry) : Py Bytes := canonicalJson rt (.obj entry.receipt)

def buildManifest (bundle : PackageBundle) (entryDigests : List (String × String)) : Py Dict := do
  let leafCount ← subscript "leaf_count" (.obj bundle.checkpoint)
  let lastEventSequence ← subscript "last_event_sequence" (.obj bundle.checkpoint)
  let rootHash ← subscript "root_hash" (.obj bundle.checkpoint)
  return dict [
    ("schema_version", .int 1),
    ("package_id", string bundle.packageId),
    ("idempotency_key", string bundle.idempotencyKey),
    ("instrument_id", string bundle.instrumentId),
    ("boundary", .obj (dict [
      ("checkpoint", .obj bundle.checkpoint),
      ("leaf_count", leafCount),
      ("last_event_sequence", lastEventSequence),
      ("root_hash", rootHash)])),
    ("event_count", .int bundle.entries.length),
    ("files", .arr (entryDigests.map fun file =>
        .obj (dict [("path", string file.1), ("sha256", string file.2)])))]

def receiptsDirectory : ZipMember := ⟨"receipts/", [], 0o040755 * 65536 + 0x10, false⟩

def zipFile (name : String) (data : Bytes) : ZipMember := ⟨name, data, 0o100644 * 65536, true⟩

-- The members of the archive in the order they are written, and the manifest.
def archiveMembers (bundle : PackageBundle) : Py (List ZipMember × Dict) := do
  let serialized ← bundle.entries.mapM fun entry => do
    let data ← receiptBytes rt entry
    return (entry.name, data)
  let manifest ← buildManifest bundle (serialized.map fun file => (file.1, sha256Hex rt file.2))
  let manifestBytes ← canonicalJson rt (.obj manifest)
  return (receiptsDirectory :: serialized.map (fun file => zipFile file.1 file.2) ++
      [zipFile "manifest.json" manifestBytes],
    manifest)

end

def buildArchive (env : Exporting) (bundle : PackageBundle) : Py BuiltArchive := do
  let (members, manifest) ← archiveMembers env.toRuntime bundle
  let content := env.zip members
  return {
    content
    sha256 := sha256Hex env.toRuntime content
    sizeBytes := content.length
    manifest
    eventCount := bundle.entries.length }

def boundaryMissing (checkpointId : Uuid) : PyError :=
  .ledger ⟨"CHECKPOINT_CHAIN_BROKEN", text "fixed boundary checkpoint is missing", 500,
    [("checkpoint_id", string checkpointId.toText)]⟩

def boundaryEmpty (package : AuditPackage) : PyError :=
  .ledger ⟨"AUDIT_BOUNDARY_EMPTY", text "the fixed boundary contains no event for the instrument", 500,
    [("package_id", string package.packageId.toText), ("instrument_id", string package.instrumentId)]⟩

def Ledger.instrumentEvents (ledger : Ledger) (instrumentId : String) (boundary : Int) : List Event :=
  (ledger.events.upTo boundary).filter fun row => row.instrumentId = instrumentId

-- _load_bundle in whatever it runs in: read gives the committed rows as a query
-- finds them, raised brings in what Python code returns or raises.
def loadBundle (rt : Runtime) {m : Type → Type} [Monad m] (read : m Ledger) (raised : {α : Type} → Py α → m α)
    (cancelCheck : m Unit) (package : AuditPackage) (keyring : Keyring) : m PackageBundle := do
  let ledger ← read
  match ledger.checkpoint package.checkpointId with
  | none => raised (.error (boundaryMissing package.checkpointId))
  | some checkpoint =>
      cancelCheck
      let ledger ← read
      let events := ledger.instrumentEvents package.instrumentId checkpoint.lastEventSequence
      if events = [] then raised (.error (boundaryEmpty package))
      else
        cancelCheck
        let entries ← events.mapM fun event => do
          let ledger ← read
          let receipt ← raised (buildReceiptAtCheckpoint rt ledger event checkpoint keyring)
          cancelCheck
          return (⟨event.sequence, receipt⟩ : ReceiptEntry)
        let view ← raised (checkpointView rt checkpoint)
        return {
          packageId := package.packageId.toText
          idempotencyKey := package.idempotencyKey
          instrumentId := package.instrumentId
          checkpoint := view
          entries }

-- _load_bundle of one state, with nobody cancelling.
def loadBundleAt (rt : Runtime) (ledger : Ledger) (package : AuditPackage) (keyring : Keyring) :
    Py PackageBundle :=
  loadBundle rt (pure ledger) id (pure ()) package keyring

end CalibrationLedger
