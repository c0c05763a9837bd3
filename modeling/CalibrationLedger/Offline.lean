import CalibrationLedger.Audit.Readiness
import CalibrationLedger.Keys
import CalibrationLedger.VerifierErrors

set_option autoImplicit false

-- The command that verifies a receipt file with a key file and no service.
namespace CalibrationLedger

open JsonText Digest Interleaving Histories

-- bytes.decode("utf-8")
def decodeUtf8 (data : Bytes) : Option Text :=
  data.toByteArray.utf8Decode?.map fun chars => chars.toList.map .scalar

section

variable (rt : Runtime) (loads : Text → Option Json)

-- _read_object of a file's bytes, if it can be read. json.loads takes every line end as
-- white space, so their translation on reading is left out.
def readObject : Option Bytes → Except CliFault Dict
  | none => .error .os
  | some data =>
      match decodeUtf8 data with
      | none => .error (.raised .valueError)
      | some content =>
          match loads content with
          | some (.obj members) => .ok members
          | _ => .error (.raised .valueError)

def fileKey (member : Text × Json) : Py (Text × Bytes) :=
  do return (member.1, ← decodeSecret (pyStr rt member.2))

def fileKeys (members : Dict) : Py Keyring := members.mapM (fileKey rt)

def verifyFiles (receipt keyring : Option Bytes) : Except CliFault Verification := do
  let receipt ← readObject loads receipt
  let rawKeys ← readObject loads keyring
  let keys ← (fileKeys rt rawKeys).mapError .raised
  (verifyReceipt rt receipt keys).mapError .raised

def runVerify (describe : CliFault → Text) (receipt keyring : Option Bytes) : Py Printed :=
  printOutcome rt describe (verifyFiles rt loads receipt keyring)

end

theorem decode_encoded (content : Text) (data : Bytes) (encoded : encodeUtf8 content = .ok data) :
    decodeUtf8 data = some content := by
  obtain ⟨chars, rfl, rfl⟩ := (encode_utf8_ok content data).mp encoded
  have decoded := List.utf8Decode?_utf8Encode (l := chars)
  rw [List.utf8Encode] at decoded
  rw [decodeUtf8, decoded]
  simp

section

variable (rt : Runtime) (loads : Text → Option Json)

theorem file_read (data : Bytes) (members : Dict) (back : ReadsBack loads data (.obj members)) :
    readObject loads (some data) = .ok members := by
  obtain ⟨content, encoded, loaded⟩ := back
  rw [readObject, decode_encoded content data encoded]
  dsimp only
  rw [loaded]

theorem key_file_read (keyring : Keyring) (members : Dict) (file : KeyFile keyring members)
    (long : ∀ entry ∈ keyring, 32 ≤ entry.2.length) : fileKeys rt members = .ok keyring := by
  induction file with
  | nil => rfl
  | @cons entry member rest others listed _ ih =>
      obtain ⟨secret, rfl, spells⟩ := listed
      rw [fileKeys, List.mapM_cons]
      refine (bind_ok _ _ _).mpr
        ⟨entry, (bind_ok _ _ _).mpr ⟨entry.2, ?_, rfl⟩, (bind_ok _ _ _).mpr ⟨rest, ih ?_, rfl⟩⟩
      · exact spelt_decodes secret entry.2 spells (long entry List.mem_cons_self)
      · exact fun other inside => long other (List.mem_cons_of_mem _ inside)

theorem files_verify (receipt secrets : Bytes) (parsed members : Dict) (keyring : Keyring)
    (read : ReadsBack loads receipt (.obj parsed)) (listed : ReadsBack loads secrets (.obj members))
    (decoded : fileKeys rt members = .ok keyring) :
    verifyFiles rt loads (some receipt) (some secrets) =
      (verifyReceipt rt parsed keyring).mapError .raised := by
  rw [verifyFiles, file_read loads receipt parsed read, file_read loads secrets members listed]
  dsimp only [bind, Except.bind]
  rw [decoded]
  rfl

theorem run_verify_main (describe : CliFault → Text) (receipt secrets : Bytes) (parsed members : Dict)
    (keyring : Keyring) (read : ReadsBack loads receipt (.obj parsed))
    (listed : ReadsBack loads secrets (.obj members)) (decoded : fileKeys rt members = .ok keyring) :
    runVerify rt loads describe (some receipt) (some secrets) = verifyMain rt describe parsed keyring := by
  rw [runVerify, files_verify rt loads receipt secrets parsed members keyring read listed decoded, verifyMain]

theorem main_follows (describe : CliFault → Text) (receipt secrets : Bytes) (parsed members : Dict)
    (keyring : Keyring) (read : ReadsBack loads receipt (.obj parsed))
    (listed : ReadsBack loads secrets (.obj members)) (file : KeyFile keyring members)
    (long : ∀ entry ∈ keyring, 32 ≤ entry.2.length) (result : Verification)
    (verified : verifyReceipt rt parsed keyring = .ok result) :
    runVerify rt loads describe (some receipt) (some secrets) = .ok ⟨verificationContent result, 0⟩ := by
  rw [run_verify_main rt loads describe receipt secrets parsed members keyring read listed
    (key_file_read rt keyring members file long)]
  exact main_prints rt describe parsed keyring result verified

end

section

variable {ι κ : Type} [DecidableEq ι] [Fintype ι] [DecidableEq κ] (env : Exporting) (calls : ι → Call)
  (jobs : κ → AuditCall)

-- A service and an auditor given one key file agree on the keyring, and with it the command
-- accepts every receipt file of every archive that is ready.
theorem archives_verify_offline (now : Deployment ι κ) (reached : (deploy env calls jobs).Reaches now)
    (claims : Claims jobs now.audit.store) (legible : Legible env.toRuntime now.audit.store.ledger)
    (loads : Text → Option Json) (undoes : Undoes env.toRuntime loads)
    (narrow : ∀ event ∈ now.audit.store.ledger.events.rows, event.sequence < 2 ^ 63) (content : Text)
    (secrets : Bytes) (written : encodeUtf8 content = .ok secrets) (members : Dict)
    (loaded : loads content = some (.obj members)) (keyring : Keyring) (file : KeyFile keyring members)
    (long : ∀ entry ∈ keyring, 32 ≤ entry.2.length) (describe : CliFault → Text) :
    (content ≠ [] → ∀ settings : Settings, settings.hmacKeysJson = some content →
      (keyring.lookup (text settings.currentKeyVersion)).isSome → settings.keyring loads = .ok keyring) ∧
    ∀ id row, now.audit.store.packages id = some row → row.status = .ready →
      ∃ boundary artifact receipts manifest,
      now.audit.store.ledger.checkpoint row.checkpointId = some boundary ∧
      now.audit.store.artifacts row.packageId = some artifact ∧
      artifact.zipContent = env.zip (receiptsDirectory :: receipts ++ [manifest]) ∧
      (HoldsKeys (SigningKey calls) keyring (neededBy now.audit.store.ledger.checkpoints boundary) →
        List.Forall₂ (fun event receipt => receipt.name = receiptPath event.sequence ∧
            runVerify env.toRuntime loads describe (some receipt.data) (some secrets) =
              .ok ⟨verificationContent ⟨true, true, some (text boundary.checkpointId.toText)⟩, 0⟩)
          (now.audit.store.ledger.instrumentEvents row.instrumentId boundary.lastEventSequence)
              receipts) := by
  refine ⟨fun present settings given current => ?_, fun id row found ready => ?_⟩
  · have decoded := key_file_decodes keyring members file long settings.currentKeyVersion current
    rw [Settings.keyring, given]
    cases content with
    | nil => exact absurd rfl present
    | cons first rest =>
        dsimp only
        rw [loaded]
        cases file with
        | nil => cases current
        | cons _ _ => exact decoded
  · obtain ⟨boundary, artifact, builder, bundle, receipts, last, manifest, bounded, covers, stored,
        bytes, _, _, _, bundled, made⟩ :=
      ready_archive env calls jobs now reached claims id row found ready
    refine ⟨boundary, artifact, receipts, last, bounded, stored, bytes, fun holds => ?_⟩
    have complete :=
      archive_complete env calls jobs now reached legible loads undoes narrow row boundary bounded
        covers builder keyring
      bundle receipts last manifest bundled made holds
    refine complete.filed.imp fun event receipt filed => ?_
    obtain ⟨_, parsed, _, read, _, verified⟩ := filed.receipt
    refine ⟨by rw [filed.member]; rfl, ?_⟩
    exact main_follows env.toRuntime loads describe receipt.data secrets parsed members keyring read
      ⟨content, written, loaded⟩ file long _
      verified

end

-- The sample ledger sealed with a key of the length the settings ask for, and one export of it.
def auditedKeyring : Keyring := [(text "v1", List.replicate 32 7)]

theorem audited_batch : 0 < 10 := by decide

def auditedCalls : Bool → Call
  | false => sampleCalls false
  | true => .sealing ⟨auditedKeyring, "v1", 10, audited_batch⟩

def auditedCheckpoint : Checkpoint :=
  { sampleCheckpoint with signature := "0e118947d7882c2f9dd5279d3869039fd7a5cb76a84f430256171e5a98d59f16" }

def auditedLedger : Ledger := { sampleLedger with checkpoints := [auditedCheckpoint] }

def auditedExports : Bool → AuditCall
  | false => .create "scale-7" "export-1" none
  | true => .run ⟨true, "a", 120000000, auditedKeyring⟩ 1

def auditedSessions : Config (auditing Bool) (Except AuditError AuditOutcome) :=
  ⟨AuditStore.empty Bool auditedLedger, fun i => some ((auditedExports i).program sampleArchiving).run⟩

def auditedKeyFile : Dict :=
  [(text "v1", .str (base64Marker ++ (Base64.encode (List.replicate 32 7)).map .scalar))]

-- The report and its seal, then the request of an export that is not yet claimed.
theorem audited_stages :
    (∃ final ∈ runSchedule (postgres Bool) (List.replicate 7 false ++ List.replicate 8 true)
      (start reference auditedCalls) sampleSupply,
        final.1.store.events.rows = [sampleEvent] ∧ final.1.store.checkpoints = [auditedCheckpoint]) ∧
    ∃ final ∈ runSchedule (auditing Bool) (List.replicate 6 false) auditedSessions sampleChoices,
      (∃ row ∈ final.1.store.packages 1, row.status = .pending ∧ row.instrumentId = "scale-7") ∧
        final.1.store.packages 0 = none ∧ final.1.store.nextId = 2 := by
  constructor <;> decide +kernel

theorem audited_keys (version : Text) (key : Bytes) (signs : SigningKey auditedCalls version key) :
    auditedKeyring.lookup version = some key := by
  obtain ⟨i, sealer, call, rfl, held⟩ := signs
  cases i with
  | false => cases call
  | true =>
      cases call
      exact held

theorem audited_legible : Legible reference auditedLedger :=
  ⟨fun event inside => by rw [List.mem_singleton.mp inside]; exact sample_readable,
    fun checkpoint inside => by rw [List.mem_singleton.mp inside]; exact sample_readable⟩

theorem audited_deployment : ∃ (now : Deployment Bool Bool) (row : AuditPackage),
    (deploy sampleArchiving auditedCalls auditedExports).Reaches now ∧
    now.audit.store.ledger = auditedLedger ∧
      now.audit.store.packages 1 = some row ∧ row.status = .ready ∧ row.instrumentId = "scale-7" := by
  obtain ⟨⟨⟨ledger, _⟩, sealed, rows, checkpoints⟩, ⟨config, left⟩, run, ⟨row, found, pending, named⟩,
    unused, next⟩ := audited_stages
  have reached := run_schedule_reaches (postgres Bool) _ _ _ _ _ sealed
  have same : ledger.store.toLedger = auditedLedger := by
    obtain ⟨⟨⟨⟨found, sorted⟩, listed⟩, sequence, transactions⟩, sessions⟩ := ledger
    cases rows
    cases checkpoints
    rfl
  have before := ledger_reaches (deploy sampleArchiving auditedCalls auditedExports) ledger rfl reached
  rw [same] at before
  have requested :=
    before.trans (audit_reaches _ config (run_schedule_reaches (auditing Bool) _ auditedSessions _ _ _ run))
  have deployed := free_deployed sampleArchiving auditedCalls auditedExports _ requested
  have seen : config.store.ledger = auditedLedger := deployed.seen.trans same
  have begins := run_schedule_untouched (auditing Bool) _ _ config _ left run true (by decide)
  have candid : NoWrongKey (SigningKey auditedCalls) auditedKeyring := fun version _ key found signs =>
    Option.some.inj (found.symm.trans (audited_keys version key signs))
  obtain ⟨final, new, _, onward, kept, at_id, ready, instrument, _⟩ :=
    package_exported sampleArchiving auditedCalls auditedExports
    ⟨ledger, config⟩ requested true ⟨true, "a", 120000000, auditedKeyring⟩ rfl begins 1
    (queue_covers_first config.store deployed.disciplined.inv.life.filed unused next) candid
      (by rw [seen]; exact audited_legible) _
    (inverse_undoes reference) (by rw [seen]; decide) (fun _ => sampleChoices 0)
    (fun _ => ⟨rfl, fun _ => rfl, sample_fits⟩)
    (by rw [seen]; decide) row found pending
  exact ⟨final, new, onward, kept.trans seen, at_id, ready, instrument.trans named⟩

theorem sample_archive_verifies_offline :
    ∃ (now : Deployment Bool Bool) (row : AuditPackage) (artifact : AuditPackageArtifact)
    (receipt manifest : ZipMember) (secrets : Bytes),
    (deploy sampleArchiving auditedCalls auditedExports).Reaches now ∧
      now.audit.store.packages 1 = some row ∧ now.audit.store.artifacts row.packageId = some artifact ∧
      artifact.zipContent = sampleArchiving.zip [receiptsDirectory, receipt, manifest] ∧
      runVerify reference (Function.partialInv (render (jsonFloat reference.floatRepr))) (fun _ => [])
        (some receipt.data) (some secrets) =
        .ok ⟨verificationContent ⟨true, true, some (text sampleCheckpoint.checkpointId.toText)⟩, 0⟩ := by
  obtain ⟨now, row, reached, seen, found, ready, named⟩ := audited_deployment
  have legible : Legible reference now.audit.store.ledger := by
    rw [seen]
    exact audited_legible
  have spelt : Spells (base64Marker ++ (Base64.encode (List.replicate 32 7)).map .scalar)
    (List.replicate 32 7) := .inl rfl
  have scalars : Scalars (base64Marker ++ (Base64.encode (List.replicate 32 7)).map .scalar) :=
    scalars_append _ _ (text_scalars _) ⟨_, rfl⟩
  obtain ⟨chars, shape⟩ :=
    render_scalars reference (.obj auditedKeyFile) ⟨text_scalars "v1", scalars, trivial⟩
  have claims : Claims auditedExports now.audit.store := by
    intro k claimed keyring call
    cases k <;> cases call
  have keyed : KeyFile auditedKeyring auditedKeyFile := .cons ⟨_, rfl, spelt⟩ .nil
  have undoes := inverse_undoes reference
  have distinct : Distinct (.obj auditedKeyFile) := ⟨by decide, trivial, trivial⟩
  obtain ⟨_, archives⟩ :=
    archives_verify_offline sampleArchiving auditedCalls auditedExports now reached claims legible _ undoes
    (by rw [seen]; decide) _ _ ((encode_utf8_ok _ _).mpr ⟨chars, shape, rfl⟩) auditedKeyFile
      (undoes (.obj auditedKeyFile) distinct) auditedKeyring keyed
    (by decide) fun _ => []
  obtain ⟨boundary, artifact, receipts, manifest, bounded, stored, content, accepted⟩ :=
    archives 1 row found ready
  have covered : boundary ∈ now.audit.store.ledger.checkpoints := List.mem_of_find?_eq_some bounded
  rw [seen] at covered
  cases List.mem_singleton.mp covered
  have printed := accepted fun _ _ => audited_keys _
  have listed : now.audit.store.ledger.instrumentEvents row.instrumentId
      auditedCheckpoint.lastEventSequence = [sampleEvent] := by
    rw [seen, named]
    decide
  rw [listed] at printed
  cases printed with
  | cons first rest =>
      cases rest
      exact ⟨now, row, artifact, _, manifest, _, reached, found, stored, content, first.2⟩

end CalibrationLedger
