import CalibrationLedger.Completeness
import CalibrationLedger.Library.Readings
import CalibrationLedger.Audit.Packages

set_option autoImplicit false

-- What a package holds is settled with its boundary: it is the same whoever builds
-- it, and whenever.
namespace CalibrationLedger

open JsonText Digest Interleaving Readings

def KeysAgree (keyring other : Keyring) (checkpoints : List Checkpoint) : Prop :=
  ∀ checkpoint ∈ checkpoints, keyring.lookup (text checkpoint.keyVersion) = other.lookup
    (text checkpoint.keyVersion)

-- _load_bundle over a ledger that moves on with each of its statements.
def loadBundleThrough (rt : Runtime) (moments : Nat → Ledger) (package : AuditPackage)
    (keyring : Keyring) : Py PackageBundle :=
  Prod.fst <$> (loadBundle rt (reading moments) StateT.lift (pure ()) package keyring).run 0

section

variable (rt : Runtime) (ledger : Ledger) (keyring other : Keyring)

theorem prefix_keys (checkpoint : Checkpoint)
    (same : keyring.lookup (text checkpoint.keyVersion) = other.lookup (text checkpoint.keyVersion)) :
    validatedPrefix rt ledger.events checkpoint keyring =
      validatedPrefix rt ledger.events checkpoint other := by
  simp only [validatedPrefix, boundaryKey, requireKey, same]

variable (chain : OneChain ledger.checkpoints) (checkpoint : Checkpoint)
  (member : checkpoint ∈ ledger.checkpoints)
  (agree : KeysAgree keyring other (neededBy ledger.checkpoints checkpoint))

include chain member agree

theorem receipt_keys (event : Event) : buildReceiptAtCheckpoint rt ledger event checkpoint keyring =
    buildReceiptAtCheckpoint rt ledger event checkpoint other := by
  have own := prefix_keys rt ledger keyring other checkpoint
    (agree checkpoint (List.mem_filter.mpr ⟨member, by simp⟩))
  have bundles : ∀ leaves, buildConsistencyBundle rt ledger checkpoint leaves keyring =
      buildConsistencyBundle rt ledger checkpoint leaves other := by
    intro leaves
    rw [buildConsistencyBundle, buildConsistencyBundle]
    cases link : checkpoint.previousCheckpointId with
    | none => rfl
    | some previousId =>
        obtain ⟨previous, inside, named, found⟩ :=
          chain_previous ledger.checkpoints chain checkpoint member previousId link
        have served : ledger.checkpoint previousId = some previous := found
        have needed : previous ∈ neededBy ledger.checkpoints checkpoint :=
          List.mem_filter.mpr ⟨inside, by simp [link, named]⟩
        simp only [served, prefix_keys rt ledger keyring other previous (agree previous needed)]
  simp only [buildReceiptAtCheckpoint, own, bundles]

end

section

variable (rt : Runtime) (before : Ledger) (chain : OneChain before.checkpoints)
  (package attempt : AuditPackage) (same : attempt.identity = package.identity)
  (checkpoint : Checkpoint) (bounded : before.checkpoint package.checkpointId = some checkpoint)
  (keyring other : Keyring) (agree : KeysAgree keyring other (neededBy before.checkpoints checkpoint))

include chain same bounded agree

theorem bundle_frozen (moments : Nat → Ledger) (grows : ∀ turn, LedgerGrows before (moments turn)) :
    loadBundleThrough rt moments attempt other = loadBundleAt rt before package keyring := by
  obtain ⟨_, packageId, key, _, instrument, boundary, _⟩ := by
    simpa only [AuditPackage.identity, Prod.mk.injEq] using same
  have member : checkpoint ∈ before.checkpoints := List.mem_of_find?_eq_some bounded
  have served := fun turn => grown_checkpoint before (moments turn) (grows turn) _ checkpoint bounded
  have rows := fun turn =>
    instrument_events_kept before (moments turn) (grows turn) checkpoint member package.instrumentId
  have receipts : ∀ turn event, buildReceiptAtCheckpoint rt (moments turn) event checkpoint other =
      buildReceiptAtCheckpoint rt before event checkpoint keyring := fun turn event =>
    (grown_receipt rt before (moments turn) (grows turn) checkpoint member other chain event).trans
      (receipt_keys rt before keyring other chain checkpoint member agree event).symm
  have identical : ∀ {α : Type} (outcome : Py α), id outcome = outcome := fun _ => rfl
  suffices timeless : MomentFree (loadBundle rt (reading moments) StateT.lift (pure ()) attempt other)
      (loadBundleAt rt before package keyring) from timeless 0
  rw [loadBundleAt, loadBundle, loadBundle]
  simp only [identical]
  refine moment_free_reading moments _ _ fun turn => ?_
  simp only [boundary, served turn, pure_bind, bounded]
  refine moment_free_reading moments _ _ fun turn => ?_
  simp only [instrument, rows turn, boundaryEmpty, packageId]
  by_cases none : before.instrumentEvents package.instrumentId checkpoint.lastEventSequence = []
  · rw [if_pos none, if_pos none]
    exact moment_free_lift _
  · rw [if_neg none, if_neg none]
    refine moment_free_bind _ _ _ _ (moment_free_map _ _ _ fun event _ => ?_) fun entries => ?_
    · refine moment_free_reading moments _ _ fun turn => ?_
      refine moment_free_bind _ _ _ _ ?_ fun receipt => moment_free_pure _
      rw [receipts turn event]
      exact moment_free_lift _
    · refine moment_free_bind _ _ _ _ (moment_free_lift _) fun view => ?_
      rw [key]
      exact moment_free_pure _

end

theorem load_bundle_at (rt : Runtime) (ledger : Ledger) (package : AuditPackage) (checkpoint : Checkpoint)
    (bounded : ledger.checkpoint package.checkpointId = some checkpoint) (keyring : Keyring)
    (covers : ledger.instrumentEvents package.instrumentId checkpoint.lastEventSequence ≠ []) :
    loadBundleAt rt ledger package keyring = do
      let entries ← (ledger.instrumentEvents package.instrumentId checkpoint.lastEventSequence).mapM
          fun event => do
        let receipt ← buildReceiptAtCheckpoint rt ledger event checkpoint keyring
        return (⟨event.sequence, receipt⟩ : ReceiptEntry)
      let view ← checkpointView rt checkpoint
      return ⟨package.packageId.toText, package.idempotencyKey, package.instrumentId, view, entries⟩ := by
  have identical : ∀ {α : Type} (outcome : Py α), id outcome = outcome := fun _ => rfl
  rw [loadBundleAt, loadBundle]
  simp only [identical, pure_bind, bounded, if_neg covers]

section

variable (rt : Runtime) (signing : Text → Bytes → Prop) {ι : Type} (store : Store ι)
  (sound : Sound rt signing store) (package : AuditPackage) (covered : Covered store.toLedger package)
  (checkpoint : Checkpoint) (bounded : store.toLedger.checkpoint package.checkpointId = some checkpoint)
  (keyring : Keyring) (holds : HoldsKeys signing keyring (neededBy store.checkpoints checkpoint))

include sound covered bounded holds

theorem bundle_loaded : ∃ bundle, loadBundleAt rt store.toLedger package keyring = .ok bundle := by
  have member : checkpoint ∈ store.checkpoints := List.mem_of_find?_eq_some bounded
  obtain ⟨consistency, built, _⟩ := sound_bundled rt signing store sound checkpoint member
  have keyed := own_key signing keyring store.checkpoints checkpoint member holds
  obtain ⟨boundary, found, some⟩ := covered
  rw [bounded] at found
  cases found
  obtain ⟨entries, loaded⟩ :=
    map_ok (store.toLedger.instrumentEvents package.instrumentId checkpoint.lastEventSequence)
    (fun event => do
      let receipt ← buildReceiptAtCheckpoint rt store.toLedger event checkpoint keyring
      return (⟨event.sequence, receipt⟩ : ReceiptEntry)) fun event inside => by
    obtain ⟨index, place⟩ := List.mem_iff_getElem?.mp (List.mem_of_mem_filter inside)
    exact ⟨_, (bind_ok _ _ _).mpr
      ⟨_, built_at_checkpoint rt signing store sound keyring checkpoint member keyed
      consistency event index (built keyring holds) place, rfl⟩⟩
  rw [load_bundle_at rt store.toLedger package checkpoint bounded keyring some]
  exact ⟨_, (bind_ok _ _ _).mpr
    ⟨entries, loaded, (bind_ok _ _ _).mpr ⟨_, checkpoint_view_shown rt checkpoint, rfl⟩⟩⟩

end

section

variable {ι κ : Type} [DecidableEq ι] [Fintype ι] [DecidableEq κ] (env : Exporting) (calls : ι → Call)
  (jobs : κ → AuditCall)

-- Once a package is there, what is loaded and archived for it no longer changes:
-- not with the ledger moving on under the statements, not with the row, and not
-- with any keys but those of its boundary and the checkpoint before.
theorem boundaries_are_frozen (now : Deployment ι κ) (reached : (deploy env calls jobs).Reaches now)
    (id : Nat) (row : AuditPackage) (found : now.audit.store.packages id = some row) :
    ∃ boundary, now.audit.store.ledger.checkpoint row.checkpointId = some boundary ∧
      (∀ keyring, HoldsKeys (SigningKey calls) keyring
        (neededBy now.audit.store.ledger.checkpoints boundary) →
        ∃ bundle, loadBundleAt env.toRuntime now.audit.store.ledger row keyring = .ok bundle) ∧
      ∀ keyring other, KeysAgree keyring other (neededBy now.audit.store.ledger.checkpoints boundary) →
        (∀ later : Deployment ι κ, now.Reaches later → ∃ new, later.audit.store.packages id = some new ∧
          new.identity = row.identity ∧
          loadBundleAt env.toRuntime later.audit.store.ledger new other =
            loadBundleAt env.toRuntime now.audit.store.ledger row keyring) ∧
        ∀ moments : Nat → Deployment ι κ, (∀ turn, now.Reaches (moments turn)) → ∀ attempt : AuditPackage,
          attempt.identity = row.identity →
          let loaded := loadBundleThrough env.toRuntime
            (fun turn => (moments turn).audit.store.ledger) attempt other
          let settled := loadBundleAt env.toRuntime now.audit.store.ledger row keyring
          loaded = settled ∧ loaded >>= archiveMembers env.toRuntime =
            settled >>= archiveMembers env.toRuntime ∧
            loaded >>= buildArchive env = settled >>= buildArchive env := by
  have deployed := free_deployed env calls jobs now reached
  have sound := history_sound env.toRuntime calls now.ledger deployed.ledger
  obtain ⟨boundary, bounded, covered⟩ := deployed.disciplined.inv.life.covered id row found
  have chain : OneChain now.audit.store.ledger.checkpoints := by
    rw [deployed.seen]
    exact sound_one_chain env.toRuntime _ _ sound
  refine ⟨boundary, bounded, fun keyring holds => ?_, fun keyring other agree => ⟨fun later onward => ?_, ?_⟩⟩
  · rw [deployed.seen] at covered bounded holds ⊢
    exact bundle_loaded env.toRuntime _ _ sound row
      ⟨boundary, bounded, covered⟩ boundary bounded keyring holds
  · have grown := free_onward env calls jobs now later reached onward
    obtain ⟨new, at_id, evolves⟩ := grown.rows id row found
    have redeployed := free_deployed env calls jobs later (reached.trans onward)
    have rechained : OneChain later.audit.store.ledger.checkpoints := by
      rw [redeployed.seen]
      exact sound_one_chain
        env.toRuntime _ _ (history_sound env.toRuntime calls later.ledger redeployed.ledger)
    obtain ⟨limit, rebounded, _⟩ := redeployed.disciplined.inv.life.covered id new at_id
    have still := bundle_frozen env.toRuntime later.audit.store.ledger rechained new new rfl limit
      rebounded other other
      (fun _ _ => rfl) (fun _ => later.audit.store.ledger) (fun _ => ledger_grows_refl _)
    have frozen := bundle_frozen env.toRuntime now.audit.store.ledger chain row new evolves.same
      boundary bounded keyring other
      agree (fun _ => later.audit.store.ledger) (fun _ => grown.ledger)
    exact ⟨new, at_id, evolves.same, still.symm.trans frozen⟩
  · intro moments onward attempt same
    have frozen := bundle_frozen env.toRuntime now.audit.store.ledger chain row attempt same boundary
      bounded keyring other agree
      (fun turn => (moments turn).audit.store.ledger)
      (fun turn => (free_onward env calls jobs now (moments turn) reached (onward turn)).ledger)
    dsimp only
    rw [frozen]
    exact ⟨rfl, rfl, rfl⟩

end

-- The package is given up between two loads with different keyrings.
theorem sample_boundary_frozen :
    ∃ (now later : Deployment Bool Bool) (row new : AuditPackage) (bundle : PackageBundle),
    now.Reaches later ∧ now.audit.store.packages 1 = some row ∧ row.status = .pending ∧
    later.audit.store.packages 1 = some new ∧ new.status = .cancelled ∧
    loadBundleAt reference now.audit.store.ledger row sampleKeyring = .ok bundle ∧
    loadBundleAt reference later.audit.store.ledger new ((text "v0", [0]) :: sampleKeyring) = .ok bundle := by
  have ran : ∃ mid ∈ runSchedule (auditing Bool) (List.replicate 6 false)
    (sampleSessions sampleWithdrawal) sampleChoices,
      ∃ final ∈ runSchedule (auditing Bool) [true] mid.1 mid.2,
      (∃ row ∈ mid.1.store.packages 1, row.status = .pending) ∧
        ∃ new ∈ final.1.store.packages 1, new.status = .cancelled := by decide +kernel
  obtain ⟨⟨mid, rest⟩, run, ⟨final, others⟩, further, ⟨row, found, pending⟩, new, at_id, cancelled⟩ := ran
  obtain ⟨ledger, reached, sealed⟩ := sample_deployment sampleWithdrawal _ mid rest run
  have onward := audit_reaches ⟨ledger, mid⟩ final (run_schedule_reaches (auditing Bool) _ _ _ _ _ further)
  have seen := (free_deployed sampleExporting sampleCalls sampleWithdrawal _ reached).seen
  have checkpoints : mid.store.ledger.checkpoints = [sampleCheckpoint] := by rw [seen, sealed]; rfl
  obtain ⟨boundary, _, loaded, frozen⟩ :=
    boundaries_are_frozen sampleExporting sampleCalls sampleWithdrawal ⟨ledger, mid⟩
    reached 1 row found
  obtain ⟨bundle, first⟩ := loaded sampleKeyring fun _ _ => sample_keys _
  have agree : KeysAgree sampleKeyring ((text "v0", [0]) :: sampleKeyring)
      (neededBy mid.store.ledger.checkpoints boundary) := by
    intro checkpoint needed
    have inside := List.mem_of_mem_filter needed
    rw [checkpoints] at inside
    rw [List.mem_singleton.mp inside]
    decide
  obtain ⟨later, at_later, _, same⟩ := (frozen _ _ agree).1 ⟨ledger, final⟩ onward
  have one : later = new := Option.some.inj (at_later.symm.trans at_id)
  subst one
  exact ⟨⟨ledger, mid⟩, ⟨ledger, final⟩, row, later, bundle, onward, found, pending, at_later,
    cancelled, first, same.trans first⟩

end CalibrationLedger
