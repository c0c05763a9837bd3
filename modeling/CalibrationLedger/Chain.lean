import Mathlib.Data.List.Chain
import CalibrationLedger.History

set_option autoImplicit false

-- The checkpoints of a history are one chain over a prefix that no longer moves.
namespace CalibrationLedger

open JsonText Digest Interleaving

structure Follows (previous next : Checkpoint) : Prop where
  link : next.previousCheckpointId = some previous.checkpointId
  rootLink : next.previousRootHash = some previous.rootHash
  counts : previous.leafCount < next.leafCount
  boundaries : previous.lastEventSequence < next.lastEventSequence

structure OneChain (checkpoints : List Checkpoint) : Prop where
  genesis : ∀ first, checkpoints.head? = some first → first.previousCheckpointId = none ∧
    first.previousRootHash = none
  linked : checkpoints.IsChain Follows
  distinct : checkpoints.Pairwise fun a b => a.checkpointId ≠ b.checkpointId

theorem distinct_found (checkpoints : List Checkpoint)
    (distinct : checkpoints.Pairwise fun a b => a.checkpointId ≠ b.checkpointId)
    (checkpoint : Checkpoint) (member : checkpoint ∈ checkpoints) :
    checkpoints.find? (fun row => row.checkpointId = checkpoint.checkpointId) = some checkpoint := by
  induction checkpoints with
  | nil => cases member
  | cons first rest ih =>
      obtain ⟨apart, later⟩ := List.pairwise_cons.mp distinct
      rcases List.mem_cons.mp member with rfl | inside
      · simp
      · rw [List.find?_cons_of_neg (by simpa using apart checkpoint inside)]
        exact ih later inside

section

variable (rt : Runtime)

-- The committed rows up to the boundary are as many as the checkpoint counts and
-- hash, by their stored leaf hashes, to its root.
structure Covers (table : EventTable) (checkpoint : Checkpoint) : Prop where
  count : (table.upTo checkpoint.lastEventSequence).length = checkpoint.leafCount
  leaves : ∀ row ∈ table.upTo checkpoint.lastEventSequence, row.leafHash = hex (rowLeaf rt row)
  root : hex (merkleRoot rt.toHashFunction ((table.upTo checkpoint.lastEventSequence).map (rowLeaf rt))) =
    checkpoint.rootHash

variable (signing : Text → Bytes → Prop)

theorem chained_genesis (table : EventTable) (checkpoints : List Checkpoint)
    (chained : Chained rt signing table none checkpoints) (first : Checkpoint)
    (head : checkpoints.head? = some first) :
    first.previousCheckpointId = none ∧ first.previousRootHash = none := by
  cases checkpoints with
  | nil => cases head
  | cons checkpoint rest =>
      cases head
      exact ⟨chained.1.link, chained.1.rootLink⟩

theorem chained_linked (table : EventTable) (previous : Option Checkpoint) (checkpoints : List Checkpoint)
    (chained : Chained rt signing table previous checkpoints) : checkpoints.IsChain Follows := by
  induction checkpoints generalizing previous with
  | nil => exact .nil
  | cons first rest ih =>
      have onward := ih (some first) chained.2
      cases rest with
      | nil => exact .singleton first
      | cons second others =>
          have step := chained.2.1
          exact List.isChain_cons_cons.mpr ⟨⟨step.link, step.rootLink, step.grows, step.advances⟩, onward⟩

variable {ι : Type}

theorem sound_one_chain (store : Store ι) (sound : Sound rt signing store) : OneChain store.checkpoints where
  genesis := chained_genesis rt signing store.events store.checkpoints sound.chain
  linked := chained_linked rt signing store.events none store.checkpoints sound.chain
  distinct := sound.distinct

theorem sound_covers (store : Store ι) (sound : Sound rt signing store) (checkpoint : Checkpoint)
    (member : checkpoint ∈ store.checkpoints) : Covers rt store.events checkpoint := by
  obtain ⟨_, extended, _⟩ :=
    chained_member rt signing store.events none store.checkpoints sound.chain checkpoint member
  refine ⟨extended.count, fun row inside => ?_, extended.root⟩
  exact (sound.rows row (.inl (List.mem_of_mem_filter inside))).1.leaf

variable [DecidableEq ι] [Fintype ι]

-- At every moment of every history the checkpoints are one chain, and what each of
-- them covers is the same at every later moment.
theorem checkpoints_form_one_chain (calls : ι → Call) (now later : Config (postgres ι) (Py Outcome))
    (reached : Reaches (postgres ι) (start rt calls) now) (onward : Reaches (postgres ι) now later) :
    OneChain now.store.checkpoints ∧ (∃ more, later.store.checkpoints = now.store.checkpoints ++ more) ∧
      ∀ checkpoint ∈ now.store.checkpoints, Covers rt now.store.events checkpoint ∧
        Covers rt later.store.events checkpoint ∧
        later.store.events.upTo checkpoint.lastEventSequence =
          now.store.events.upTo checkpoint.lastEventSequence ∧
        ∀ row ∈ later.store.events.rows, row ∉ now.store.events.rows →
        checkpoint.lastEventSequence < row.sequence := by
  have sound := history_sound rt calls now reached
  have sounder := history_sound rt calls later (reaches_trans (postgres ι) _ _ _ reached onward)
  have grows := history_grows rt calls now later reached onward
  obtain ⟨more, appended⟩ := grows.appended
  refine ⟨sound_one_chain rt _ now.store sound, ⟨more, appended⟩, fun checkpoint member => ?_⟩
  have kept : checkpoint ∈ later.store.checkpoints := by
    rw [appended]
    exact List.mem_append_left _ member
  have unmoved := grows.sealed checkpoint member
  refine ⟨sound_covers rt _ now.store sound checkpoint member,
    sound_covers rt _ later.store sounder checkpoint kept,
    unmoved, fun row inside absent => ?_⟩
  by_contra below
  have covered : row ∈ later.store.events.upTo checkpoint.lastEventSequence :=
    List.mem_filter.mpr ⟨inside, by simpa using below⟩
  rw [unmoved] at covered
  exact absent (List.mem_of_mem_filter covered)

end

-- Two checkpoints, and what the first of them covered while it was the only one.
theorem sample_forms_one_chain : ∃ mid now : Config (postgres (Fin 5)) (Py Outcome),
    Reaches (postgres (Fin 5)) (start reference chronicle) mid ∧ Reaches (postgres (Fin 5)) mid now ∧
    mid.store.checkpoints = [sampleCheckpoint] ∧ now.store.checkpoints = [sampleCheckpoint, laterCheckpoint] ∧
    OneChain now.store.checkpoints ∧ Covers reference now.store.events laterCheckpoint ∧
    now.store.events.upTo sampleCheckpoint.lastEventSequence =
      mid.store.events.upTo sampleCheckpoint.lastEventSequence ∧
    ∀ row ∈ now.store.events.rows, row ∉ mid.store.events.rows →
    sampleCheckpoint.lastEventSequence < row.sequence := by
  obtain ⟨mid, now, reached, onward, ⟨_, first⟩, _, both⟩ := chronicle_run
  obtain ⟨_, _, kept⟩ := checkpoints_form_one_chain reference chronicle mid now reached onward
  obtain ⟨chain, _, covered⟩ := checkpoints_form_one_chain reference chronicle now now
    (reaches_trans (postgres (Fin 5)) _ _ _ reached onward) (reaches_refl (postgres (Fin 5)) now)
  obtain ⟨_, _, unmoved, later⟩ := kept sampleCheckpoint (by rw [first]; exact List.mem_singleton_self _)
  have held : laterCheckpoint ∈ now.store.checkpoints := by
    rw [both]
    exact List.mem_cons_of_mem _ (List.mem_singleton_self _)
  exact ⟨mid, now, reached, onward, first, both, chain, (covered laterCheckpoint held).1, unmoved, later⟩

end CalibrationLedger
