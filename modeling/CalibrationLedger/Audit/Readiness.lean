import CalibrationLedger.Audit.Draining

set_option autoImplicit false

-- Every package that is ready has its whole archive stored, whoever built it.
namespace CalibrationLedger

open JsonText Digest Interleaving

section

variable {ι κ : Type} [DecidableEq ι] [Fintype ι] [DecidableEq κ] (env : Exporting) (calls : ι → Call)
  (jobs : κ → AuditCall)

theorem package_exported (now : Deployment ι κ) (reached : (deploy env calls jobs).Reaches now) (k : κ)
    (exporter : Exporter) (call : jobs k = .run exporter 1)
    (begins : now.audit.sessions k = some ((jobs k).program env).run) (id : Nat)
    (queues : QueueCovers {id} now.audit.store)
    (candid : NoWrongKey (SigningKey calls) exporter.keyring)
    (legible : Legible env.toRuntime now.audit.store.ledger) (loads : Text → Option Json)
    (undoes : Undoes env.toRuntime loads)
    (narrow : ∀ event ∈ now.audit.store.ledger.events.rows, event.sequence < 2 ^ 63)
    (supply : Nat → Choice) (unhindered : Unhindered exporter.leaseDuration supply)
    (holds : ∀ checkpoint ∈ now.audit.store.ledger.checkpoints,
      (exporter.keyring.lookup (text checkpoint.keyVersion)).isSome)
    (row : AuditPackage) (found : now.audit.store.packages id = some row)
    (pending : row.status = .pending) :
    ∃ (final : Deployment ι κ) (new : AuditPackage) (boundary : Checkpoint),
    (deploy env calls jobs).Reaches final ∧
      final.audit.store.ledger = now.audit.store.ledger ∧ final.audit.store.packages id = some new ∧
      new.status = .ready ∧
      new.instrumentId = row.instrumentId ∧
      now.audit.store.ledger.checkpoint row.checkpointId = some boundary ∧
      new.eventCount =
        some (now.audit.store.ledger.instrumentEvents row.instrumentId
          boundary.lastEventSequence).length := by
  have life := (free_deployed env calls jobs now reached).disciplined.inv.life
  obtain ⟨final, _, onward, _, _, drained⟩ :=
    exporter_ends env calls jobs now reached k exporter 1 call begins {id} queues (le_refl 1) candid
    legible loads undoes narrow supply unhindered
  obtain ⟨boundary, bounded, covers⟩ := life.covered id row found
  have needed : ∀ checkpoint ∈ neededBy now.audit.store.ledger.checkpoints boundary,
      (exporter.keyring.lookup (text checkpoint.keyVersion)).isSome := fun checkpoint inside =>
        holds checkpoint (List.mem_of_mem_filter inside)
  obtain ⟨archive, receipts, manifest, built, _, counted, complete⟩ :=
    build_succeeds env calls jobs now reached exporter.keyring candid row
    boundary bounded covers legible loads undoes narrow needed
  obtain ⟨new, at_id, treated⟩ := drained.ended id row found pending
  rw [built] at treated
  obtain ⟨later, still, evolves⟩ := drained.course.forward.onward.rows id row found
  rw [at_id] at still
  cases still
  obtain ⟨_, _, _, _, instrument, _, _⟩ := by simpa only [AuditPackage.identity,
    Prod.mk.injEq] using evolves.same
  have whole := complete exporter.keyring
    (no_wrong_key_holds (SigningKey calls) exporter.keyring candid _ needed)
  refine ⟨final, new, boundary, reached.trans onward, drained.course.ledger, at_id, treated.1,
    instrument, bounded, ?_⟩
  rw [treated.2.1, counted, whole.filed.length_eq]

theorem ready_archive (now : Deployment ι κ) (reached : (deploy env calls jobs).Reaches now)
    (claims : Claims jobs now.audit.store) (id : Nat) (row : AuditPackage)
    (found : now.audit.store.packages id = some row) (ready : row.status = .ready) :
    ∃ boundary artifact keyring bundle receipts file manifest,
      now.audit.store.ledger.checkpoint row.checkpointId = some boundary ∧
      now.audit.store.ledger.instrumentEvents row.instrumentId boundary.lastEventSequence ≠ [] ∧
      now.audit.store.artifacts row.packageId = some artifact ∧
      artifact.zipContent = env.zip (receiptsDirectory :: receipts ++ [file]) ∧
      artifact.sha256 = sha256Hex env.toRuntime artifact.zipContent ∧
      artifact.sizeBytes = artifact.zipContent.length ∧
      row.eventCount = some receipts.length ∧
      loadBundleAt env.toRuntime now.audit.store.ledger row keyring = .ok bundle ∧
      archiveMembers env.toRuntime bundle = .ok (receiptsDirectory :: receipts ++ [file], manifest) := by
  have life := (free_deployed env calls jobs now reached).disciplined.inv.life
  obtain ⟨artifact, stored⟩ := Option.isSome_iff_exists.mp (life.kept id row found ready)
  obtain ⟨boundary, bounded, covers⟩ := life.covered id row found
  obtain ⟨keyring, archive, built, content, digest, size, counted⟩ :=
    (delivered_run env calls jobs now reached claims).2 id row artifact found stored
  obtain ⟨bundle, loaded, archived⟩ := (bind_ok _ _ _).mp built
  obtain ⟨⟨members, manifest⟩, made, same⟩ := (bind_ok _ _ _).mp archived
  cases same
  obtain ⟨receipts, file, rfl, total⟩ := archive_members_shape env.toRuntime bundle members manifest made
  exact ⟨boundary, artifact, keyring, bundle, receipts, file, manifest, bounded, covers, stored,
    content, by rw [digest, content],
    by rw [size, content], by rw [counted, total], loaded, made⟩

theorem ready_archives_are_complete (now : Deployment ι κ)
    (reached : (deploy env calls jobs).Reaches now) (claims : Claims jobs now.audit.store)
    (legible : Legible env.toRuntime now.audit.store.ledger) (loads : Text → Option Json)
    (undoes : Undoes env.toRuntime loads)
    (narrow : ∀ event ∈ now.audit.store.ledger.events.rows, event.sequence < 2 ^ 63) (id : Nat)
    (row : AuditPackage) (found : now.audit.store.packages id = some row) (ready : row.status = .ready) :
    ∃ boundary artifact receipts manifest,
    now.audit.store.ledger.checkpoint row.checkpointId = some boundary ∧
      now.audit.store.artifacts row.packageId = some artifact ∧
      artifact.zipContent = env.zip (receiptsDirectory :: receipts ++ [manifest]) ∧
      artifact.sha256 = sha256Hex env.toRuntime artifact.zipContent ∧
      artifact.sizeBytes = artifact.zipContent.length ∧
      row.eventCount = some receipts.length ∧
      ∀ reader, HoldsKeys (SigningKey calls) reader (neededBy now.audit.store.ledger.checkpoints boundary) →
        CompleteArchive env.toRuntime loads now.audit.store.ledger boundary reader reader
          row.instrumentId receipts manifest := by
  obtain ⟨boundary, artifact, keyring, bundle, receipts, file, manifest, bounded, covers, stored,
    content, digest, size, counted, loaded,
    made⟩ := ready_archive env calls jobs now reached claims id row found ready
  exact ⟨boundary, artifact, receipts, file, bounded, stored, content, digest, size, counted,
    fun reader holds =>
    archive_complete env calls jobs now reached legible loads undoes narrow row boundary bounded covers
      keyring reader bundle receipts
      file manifest loaded made holds⟩

end

-- The sample package, built in one poll.
theorem sample_exported :
    ∃ (now : Deployment Bool Bool) (row : AuditPackage),
    (deploy sampleArchiving sampleCalls sampleExports).Reaches now ∧
    now.audit.store.ledger = sampleLedger ∧ now.audit.store.packages 1 = some row ∧
    row.status = .ready ∧ row.eventCount = some 1 := by
  obtain ⟨⟨config, left⟩, run, ⟨row, found, pending, named⟩, unused, next⟩ := sample_request
  have begins := run_schedule_untouched (auditing Bool) _ _ config _ left run true (by decide)
  obtain ⟨ledger, reached, sealed⟩ := sample_archiving sampleExports _ config left run
  have deployed := free_deployed sampleArchiving sampleCalls sampleExports _ reached
  have seen : config.store.ledger = sampleLedger := deployed.seen.trans sealed
  obtain ⟨final, new, boundary, onward, same, at_id, ready, _, bounded, counted⟩ :=
    package_exported sampleArchiving sampleCalls sampleExports
    ⟨ledger, config⟩ reached true ⟨true, "a", 120000000, sampleKeyring⟩ rfl begins 1
    (queue_covers_first config.store deployed.disciplined.inv.life.filed unused next) sample_no_wrong_key
    (sample_legible _ (by rw [seen]; rfl) (by rw [seen]; rfl)) _ (inverse_undoes reference)
    (by rw [seen]; decide) (fun _ => sampleChoices 0)
    (fun _ => ⟨rfl, fun _ => rfl, sample_fits⟩) (by rw [seen]; decide) row found pending
  have covered : boundary ∈ config.store.ledger.checkpoints := List.mem_of_find?_eq_some bounded
  rw [seen] at covered
  cases List.mem_singleton.mp covered
  refine ⟨final, new, onward, same.trans seen, at_id, ready, ?_⟩
  rw [counted, seen, named]
  decide

theorem sample_archive_complete :
    ∃ (now : Deployment Bool Bool) (row : AuditPackage) (artifact : AuditPackageArtifact)
    (receipts : List ZipMember) (manifest : ZipMember),
    (deploy sampleArchiving sampleCalls sampleExports).Reaches now ∧
      now.audit.store.packages 1 = some row ∧ row.status = .ready ∧
      now.audit.store.artifacts row.packageId = some artifact ∧ row.eventCount = some 1 ∧
      artifact.zipContent = sampleArchiving.zip (receiptsDirectory :: receipts ++ [manifest]) ∧
      CompleteArchive reference
        (Function.partialInv (render (jsonFloat reference.floatRepr))) sampleLedger sampleCheckpoint
        sampleKeyring sampleKeyring row.instrumentId receipts manifest := by
  obtain ⟨now, row, reached, seen, found, ready, counted⟩ := sample_exported
  have claims : Claims sampleExports now.audit.store := by
    intro k claimed keyring call
    cases k <;> cases call
  obtain ⟨boundary, artifact, receipts, manifest, bounded, stored, content, _, _, _, complete⟩ :=
    ready_archives_are_complete sampleArchiving sampleCalls sampleExports now reached claims
      (sample_legible _ (by rw [seen]; rfl) (by rw [seen]; rfl)) _ (inverse_undoes reference)
      (by rw [seen]; decide) 1 row found ready
  have covered : boundary ∈ now.audit.store.ledger.checkpoints := List.mem_of_find?_eq_some bounded
  rw [seen] at covered
  cases List.mem_singleton.mp covered
  refine ⟨_, row, artifact, receipts, manifest, reached, found, ready, stored, counted, content, ?_⟩
  rw [← seen]
  exact complete sampleKeyring fun _ _ => sample_keys _

end CalibrationLedger
