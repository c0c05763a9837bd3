import CalibrationLedger.Chain
import CalibrationLedger.Proofs

set_option autoImplicit false

-- The ledger as its readers see it only grows, and what is built at a checkpoint of
-- it is built alike ever after.
namespace CalibrationLedger

open JsonText Digest Interleaving

structure LedgerGrows (before after : Ledger) : Prop where
  appended : ∃ more, after.checkpoints = before.checkpoints ++ more
  sealed : ∀ checkpoint ∈ before.checkpoints,
    after.events.upTo checkpoint.lastEventSequence = before.events.upTo checkpoint.lastEventSequence

theorem ledger_grows_refl (ledger : Ledger) : LedgerGrows ledger ledger :=
  ⟨⟨[], (List.append_nil _).symm⟩, fun _ _ => rfl⟩

theorem ledger_grows_trans (a b c : Ledger) (first : LedgerGrows a b) (second : LedgerGrows b c) :
    LedgerGrows a c := by
  obtain ⟨more, appended⟩ := first.appended
  obtain ⟨others, later⟩ := second.appended
  refine ⟨⟨more ++ others, by rw [later, appended, List.append_assoc]⟩, fun checkpoint member => ?_⟩
  rw [second.sealed checkpoint (by rw [appended]; exact List.mem_append_left _ member),
    first.sealed checkpoint member]

theorem grows_ledger {ι : Type} (before after : Store ι) (grows : Grows before after) :
    LedgerGrows before.toLedger after.toLedger := ⟨grows.appended, grows.sealed⟩

theorem chain_previous (checkpoints : List Checkpoint) (chain : OneChain checkpoints)
    (checkpoint : Checkpoint) (member : checkpoint ∈ checkpoints) (previousId : Uuid)
    (link : checkpoint.previousCheckpointId = some previousId) :
    ∃ previous ∈ checkpoints, previous.checkpointId = previousId ∧
      checkpoints.find? (fun row => row.checkpointId = previousId) = some previous := by
  obtain ⟨before, after, cut⟩ := List.append_of_mem member
  rcases List.eq_nil_or_concat before with rfl | ⟨others, previous, rfl⟩
  · rw [(chain.genesis checkpoint (by rw [cut]; rfl)).1] at link
    cases link
  · rw [List.concat_eq_append, List.append_assoc] at cut
    have linked := chain.linked
    rw [cut, List.singleton_append] at linked
    have step : Follows previous checkpoint := (List.isChain_append.mp linked).2.1.rel
    rw [step.link] at link
    cases link
    have inside : previous ∈ checkpoints := by
      rw [cut]
      simp
    exact ⟨previous, inside, rfl, distinct_found checkpoints chain.distinct previous inside⟩

section

variable (rt : Runtime) (before after : Ledger) (grows : LedgerGrows before after)

include grows

theorem grown_checkpoint (checkpointId : Uuid) (checkpoint : Checkpoint)
    (found : before.checkpoint checkpointId = some checkpoint) :
    after.checkpoint checkpointId = some checkpoint := by
  obtain ⟨more, appended⟩ := grows.appended
  rw [Ledger.checkpoint] at found
  rw [Ledger.checkpoint, appended, List.find?_append, found]
  rfl

variable (checkpoint : Checkpoint) (member : checkpoint ∈ before.checkpoints) (keyring : Keyring)

include member

theorem grown_prefix : validatedPrefix rt after.events checkpoint keyring =
    validatedPrefix rt before.events checkpoint keyring := by
  rw [validatedPrefix, validatedPrefix, grows.sealed checkpoint member]

variable (chain : OneChain before.checkpoints)

include chain

theorem grown_start : incrementStart after checkpoint = incrementStart before checkpoint := by
  rw [incrementStart, incrementStart]
  cases link : checkpoint.previousCheckpointId with
  | none => rfl
  | some previousId =>
      obtain ⟨previous, _, _, found⟩ :=
        chain_previous before.checkpoints chain checkpoint member previousId link
      have served : before.checkpoint previousId = some previous := found
      simp only [served, grown_checkpoint before after grows previousId previous served]

theorem grown_bundle (leaves : List Bytes) : buildConsistencyBundle rt after checkpoint leaves keyring =
    buildConsistencyBundle rt before checkpoint leaves keyring := by
  rw [buildConsistencyBundle, buildConsistencyBundle]
  cases link : checkpoint.previousCheckpointId with
  | none => rfl
  | some previousId =>
      obtain ⟨previous, inside, _, found⟩ :=
        chain_previous before.checkpoints chain checkpoint member previousId link
      have served : before.checkpoint previousId = some previous := found
      simp only [served, grown_checkpoint before after grows previousId previous served,
        grown_prefix rt before after grows previous inside keyring]

theorem grown_receipt (event : Event) : buildReceiptAtCheckpoint rt after event checkpoint keyring =
    buildReceiptAtCheckpoint rt before event checkpoint keyring := by
  simp only [buildReceiptAtCheckpoint, grown_prefix rt before after grows checkpoint member keyring,
    grown_bundle rt before after grows checkpoint member keyring chain]

theorem grown_page (afterSequence : Option Int) (limit : Nat) :
    buildCheckpointEventPage rt after checkpoint.checkpointId afterSequence limit keyring =
      buildCheckpointEventPage rt before checkpoint.checkpointId afterSequence limit keyring := by
  have found : before.checkpoint checkpoint.checkpointId = some checkpoint :=
    distinct_found before.checkpoints chain.distinct checkpoint member
  simp only [buildCheckpointEventPage, found,
    grown_checkpoint before after grows checkpoint.checkpointId checkpoint found,
    grown_start before after grows checkpoint member chain,
    grown_prefix rt before after grows checkpoint member keyring,
    grown_bundle rt before after grows checkpoint member keyring chain]

end

end CalibrationLedger
