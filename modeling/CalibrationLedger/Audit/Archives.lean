import CalibrationLedger.Audit.Contents
import CalibrationLedger.Audit.Deliveries

set_option autoImplicit false

-- Whoever holds the keys builds the whole archive of a package, and every reader who
-- holds them can verify it.
namespace CalibrationLedger

open JsonText Digest Interleaving

theorem map_length {α β : Type} (entries : List α) (each : α → Py β) (results : List β)
    (mapped : entries.mapM each = .ok results) :
    entries.length = results.length := by
  induction entries generalizing results with
  | nil =>
      cases mapped
      rfl
  | cons entry rest ih =>
      rw [List.mapM_cons] at mapped
      obtain ⟨first, _, onward⟩ := (bind_ok _ _ _).mp mapped
      obtain ⟨others, made, same⟩ := (bind_ok _ _ _).mp onward
      cases same
      exact congrArg (· + 1) (ih others made)

theorem archive_members_shape (rt : Runtime) (bundle : PackageBundle) (members : List ZipMember)
    (manifest : Dict) (made : archiveMembers rt bundle = .ok (members, manifest)) :
    ∃ receipts file, members = receiptsDirectory :: receipts ++ [file] ∧
    bundle.entries.length = receipts.length := by
  obtain ⟨serialized, mapped, onward⟩ := (bind_ok _ _ _).mp made
  obtain ⟨_, _, onward⟩ := (bind_ok _ _ _).mp onward
  obtain ⟨data, _, same⟩ := (bind_ok _ _ _).mp onward
  cases same
  refine ⟨serialized.map fun file => zipFile file.1 file.2, zipFile "manifest.json" data, rfl, ?_⟩
  rw [List.length_map]
  exact map_length _ _ _ mapped

section

variable {ι κ : Type} [DecidableEq ι] [Fintype ι] [DecidableEq κ] (env : Exporting) (calls : ι → Call)
  (jobs : κ → AuditCall)

section

variable (now : Deployment ι κ) (reached : (deploy env calls jobs).Reaches now)
  (legible : Legible env.toRuntime now.audit.store.ledger) (loads : Text → Option Json)
  (undoes : Undoes env.toRuntime loads)
  (narrow : ∀ event ∈ now.audit.store.ledger.events.rows, event.sequence < 2 ^ 63)
  (package : AuditPackage) (boundary : Checkpoint)
  (bounded : now.audit.store.ledger.checkpoint package.checkpointId = some boundary)
  (covers : now.audit.store.ledger.instrumentEvents package.instrumentId boundary.lastEventSequence ≠ [])

include reached legible undoes narrow bounded covers

theorem archive_buildable (keyring : Keyring)
    (holds : HoldsKeys (SigningKey calls) keyring (neededBy now.audit.store.ledger.checkpoints boundary)) :
    ∃ bundle manifest receipts file,
    loadBundleAt env.toRuntime now.audit.store.ledger package keyring = .ok bundle ∧
      archiveMembers env.toRuntime bundle = .ok (receiptsDirectory :: receipts ++ [file], manifest) ∧
      bundle.entries.length = receipts.length ∧
      CompleteArchive env.toRuntime loads now.audit.store.ledger boundary keyring keyring
        package.instrumentId receipts file := by
  have deployed := free_deployed env calls jobs now reached
  have sound := history_sound env.toRuntime calls now.ledger deployed.ledger
  rw [deployed.seen] at bounded covers legible narrow holds ⊢
  have member : boundary ∈ now.ledger.store.checkpoints := List.mem_of_find?_eq_some bounded
  exact archive_built env.toRuntime
    (SigningKey calls) now.ledger.store sound legible loads undoes keyring keyring boundary member holds
    holds package bounded covers narrow

theorem archive_complete (keyring reader : Keyring) (bundle : PackageBundle) (receipts : List ZipMember)
    (file : ZipMember) (manifest : Dict)
    (loaded : loadBundleAt env.toRuntime now.audit.store.ledger package keyring = .ok bundle)
    (made : archiveMembers env.toRuntime bundle = .ok (receiptsDirectory :: receipts ++ [file], manifest))
    (holds : HoldsKeys (SigningKey calls) reader (neededBy now.audit.store.ledger.checkpoints boundary)) :
    CompleteArchive env.toRuntime loads now.audit.store.ledger boundary reader reader
      package.instrumentId receipts file := by
  obtain ⟨other, listed, files, last, reloaded, remade, _, complete⟩ :=
    archive_buildable env calls jobs now reached legible loads undoes narrow package boundary bounded
      covers reader holds
  have one := bundle_agrees env.toRuntime now.audit.store.ledger keyring reader package bundle other
    loaded reloaded
  subst one
  rw [made] at remade
  have parts : receipts = files ∧ file = last := by
    have equal := congrArg Prod.fst (Except.ok.inj remade)
    simpa using equal
  rw [parts.1, parts.2]
  exact complete

end

end

-- An archive as its members one after the other, each after the sizes of its name and data.
def sampleArchiving : Exporting :=
  { sampleExporting with
    zip := fun members => members.flatMap fun member =>
      [member.name.length, member.data.length / 65536, member.data.length / 256, member.data.length].map
        UInt8.ofNat ++
        member.name.toList.map (fun character => UInt8.ofNat character.toNat) ++ member.data }

def sampleExports : Bool → AuditCall
  | false => .create "scale-7" "export-1" none
  | true => .run ⟨true, "a", 120000000, sampleKeyring⟩ 1

def archivingSessions {κ : Type} (jobs : κ → AuditCall) :
    Config (auditing κ) (Except AuditError AuditOutcome) :=
  ⟨AuditStore.empty κ sampleLedger, fun i => some ((jobs i).program sampleArchiving).run⟩

theorem sample_archiving {κ : Type} [DecidableEq κ] (jobs : κ → AuditCall) (schedule : List κ)
    (final : Config (auditing κ) (Except AuditError AuditOutcome)) (rest : Nat → Choice)
    (ran : runSchedule (auditing κ) schedule (archivingSessions jobs) sampleChoices = some (final, rest)) :
    ∃ ledger, (deploy sampleArchiving sampleCalls jobs).Reaches ⟨ledger, final⟩ ∧
    ledger.store.toLedger = sampleLedger := by
  obtain ⟨ledger, reached, rows, checkpoints, _⟩ := sample_run
  have same : ledger.store.toLedger = sampleLedger := by
    obtain ⟨⟨⟨⟨found, sorted⟩, listed⟩, sequence, transactions⟩, sessions⟩ := ledger
    cases rows
    cases checkpoints
    rfl
  have sealed := ledger_reaches (deploy sampleArchiving sampleCalls jobs) ledger rfl reached
  rw [same] at sealed
  exact ⟨ledger, sealed.trans
    (audit_reaches _ final (run_schedule_reaches (auditing κ) schedule _ _ _ _ ran)), same⟩

end CalibrationLedger
