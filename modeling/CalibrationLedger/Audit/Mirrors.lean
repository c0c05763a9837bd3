import CalibrationLedger.Audit.Acknowledgements
import CalibrationLedger.Paging
import CalibrationLedger.Soundness

set_option autoImplicit false

-- What a consumer holds that reads the increment of each checkpoint it acknowledges.
namespace CalibrationLedger

open JsonText Digest HashTree Interleaving Histories

section

variable (rt : Runtime) (signing : Text → Bytes → Prop)

theorem chained_front (table : EventTable) (previous : Option Checkpoint) (front rest : List Checkpoint)
    (chained : Chained rt signing table previous (front ++ rest)) :
    Chained rt signing table previous front := by
  induction front generalizing previous with
  | nil => trivial
  | cons first others ih => exact ⟨chained.1, ih (some first) chained.2⟩

theorem increment_appended (table : EventTable) (checkpoint : Checkpoint) (start : Int)
    (low : start ≤ checkpoint.lastEventSequence) :
    table.upTo start ++ increment table checkpoint start = table.upTo checkpoint.lastEventSequence := by
  have inner : ((table.upTo checkpoint.lastEventSequence).filter fun row => row.sequence ≤ start) =
      table.upTo start := by
    rw [EventTable.upTo, EventTable.upTo, List.filter_filter]
    refine List.filter_congr fun row _ => ?_
    by_cases below : row.sequence ≤ start
    · simp [below, le_trans below low]
    · simp [below]
  rw [← inner, increment]
  exact sorted_filter_split _ start (table.sorted.filter _)

variable {ι : Type} (store : Store ι) (sound : Sound rt signing store)

include sound

theorem extended_start (previous : Option Checkpoint) (checkpoint : Checkpoint)
    (extended : Extends rt signing store.events previous checkpoint)
    (origin : ∀ row ∈ previous, row ∈ store.checkpoints) :
    incrementStart store.toLedger checkpoint = .ok (boundaryOf previous) := by
  rw [incrementStart, extended.link]
  cases previous with
  | none => rfl
  | some row =>
      have found : store.toLedger.checkpoint row.checkpointId = some row :=
        distinct_found store.checkpoints sound.distinct row (origin row rfl)
      rw [Option.map_some]
      dsimp only
      rw [found]
      rfl

variable (keyring : Keyring) (holds : HoldsKeys signing keyring store.checkpoints) (limit : Nat)
  (positive : 0 < limit)

include holds positive

theorem increment_walked (previous : Option Checkpoint) (checkpoint : Checkpoint)
    (member : checkpoint ∈ store.checkpoints)
    (extended : Extends rt signing store.events previous checkpoint)
    (origin : ∀ row ∈ previous, row ∈ store.checkpoints) (request : Nat → Option Int → Py EventPage)
    (answers : ∀ turn cursor, request turn cursor =
      buildCheckpointEventPage rt store.toLedger checkpoint.checkpointId cursor limit keyring) :
    ∃ rounds items, followPages request rounds 0 none = .ok (some items) ∧
      List.Forall₂ (fun event item =>
        (∃ consistency index, item = receiptAt rt store.events checkpoint consistency event index) ∧
        buildReceiptAtCheckpoint rt store.toLedger event checkpoint keyring = .ok item)
        (increment store.events checkpoint (boundaryOf previous)) items := by
  have keyed : HoldsKeys signing keyring [checkpoint] :=
    own_key signing keyring store.checkpoints checkpoint member
    fun row needed => holds row (List.mem_of_mem_filter needed)
  have began := extended_start rt signing store sound previous checkpoint extended origin
  obtain ⟨consistency, built, _⟩ := sound_bundled rt signing store sound checkpoint member
  have bundled := built keyring fun row needed => holds row (List.mem_of_mem_filter needed)
  have pages := pages_followed rt signing store sound checkpoint member keyring _ began consistency
    bundled keyed
    (fun _ => store) (fun _ => grows_same store store rfl) limit positive _ 0 none (le_refl _)
    (le_of_lt extended.advances) (Nat.lt_succ_self _)
  have same : request = fun _ cursor =>
    buildCheckpointEventPage rt store.toLedger checkpoint.checkpointId cursor limit keyring :=
    funext fun turn => funext fun cursor => answers turn cursor
  refine ⟨_, _, by rw [same]; exact pages, ?_⟩
  rw [Option.getD_none, ← candidates_rows, List.forall₂_map_left_iff, List.forall₂_map_right_iff,
    List.forall₂_same]
  intro entry inside
  exact ⟨⟨consistency, entry.2, rfl⟩,
    built_at_checkpoint rt signing store sound keyring checkpoint member keyed consistency entry.1
    entry.2 bundled (candidate_inside checkpoint _ _ entry inside)⟩

theorem chain_walked (previous : Option Checkpoint) (read : List Checkpoint)
    (chained : Chained rt signing store.events previous read)
    (inside : ∀ checkpoint ∈ read, checkpoint ∈ store.checkpoints)
    (origin : ∀ row ∈ previous, row ∈ store.checkpoints)
    (request : Checkpoint → Nat → Option Int → Py EventPage)
    (answers : ∀ checkpoint ∈ read, ∀ turn cursor, request checkpoint turn cursor =
      buildCheckpointEventPage rt store.toLedger checkpoint.checkpointId cursor limit keyring) :
    ∃ pages rows, List.Forall₂
      (fun checkpoint items => ∃ rounds, followPages (request checkpoint) rounds 0 none = .ok (some items))
        read pages ∧
      store.events.upTo (boundaryOf previous) ++ rows =
        store.events.upTo (boundaryOf (read.getLast?.or previous)) ∧
      List.Forall₂ (fun event item => ∃ checkpoint ∈ read,
        (∃ consistency index, item = receiptAt rt store.events checkpoint consistency event index) ∧
        buildReceiptAtCheckpoint rt store.toLedger event checkpoint keyring =
          .ok item) rows pages.flatten := by
  induction read generalizing previous with
  | nil => exact ⟨[], [], .nil, by simp, .nil⟩
  | cons first rest ih =>
      have member := inside first List.mem_cons_self
      obtain ⟨rounds, items, followed, shown⟩ :=
        increment_walked rt signing store sound keyring holds limit positive previous first
        member chained.1 origin (request first) (answers first List.mem_cons_self)
      obtain ⟨pages, rows, walked, appended, receipts⟩ := ih (some first) chained.2
        (fun checkpoint later => inside checkpoint (List.mem_cons_of_mem _ later))
        (fun row same => Option.mem_some.mp same ▸ member)
        (fun checkpoint later => answers checkpoint (List.mem_cons_of_mem _ later))
      refine ⟨items :: pages, increment store.events first (boundaryOf previous) ++ rows,
        .cons ⟨rounds, followed⟩ walked, ?_, ?_⟩
      · have last : (first :: rest).getLast?.or previous = rest.getLast?.or (some first) := by
          cases rest with
          | nil => rfl
          | cons second others =>
              rw [List.getLast?_cons_cons]
              cases final : (second :: others).getLast? with
              | none => simp at final
              | some found => rfl
        rw [last, ← appended, ← List.append_assoc,
          increment_appended store.events first _ (le_of_lt chained.1.advances)]
        rfl
      · rw [List.flatten_cons]
        refine List.rel_append ?_ ?_
        · exact shown.imp fun event item found => ⟨first, List.mem_cons_self, found⟩
        · exact receipts.imp fun event item ⟨checkpoint, later, found⟩ =>
            ⟨checkpoint, List.mem_cons_of_mem _ later, found⟩

end

section

variable (rt : Runtime)

-- The leaf a consumer computes from the event it was shown.
def itemLeaf (item : Dict) : Py Bytes := do
  let data ← eventCommitmentBytes rt (receiptEvent item)
  return leafHash rt.toHashFunction data

theorem shown_item_leaf (table : EventTable) (checkpoint : Checkpoint) (consistency : Json)
    (event : Event) (index : Nat) (readable : Readable rt event.occurredAt) :
    itemLeaf rt (receiptAt rt table checkpoint consistency event index) = .ok (rowLeaf rt event) := by
  have item : getItem "event" (receiptAt rt table checkpoint consistency event index) =
      .obj (dict (event.shown rt)) := by
    rw [receiptAt, receiptOf, get_item_dict]
    rfl
  refine (bind_ok _ _ _).mpr ⟨event.bytes rt, ?_, rfl⟩
  rw [receiptEvent, item]
  exact shown_event_commits rt event readable

theorem shown_leaves (items : List Dict) (rows : List Event)
    (readable : ∀ row ∈ rows, Readable rt row.occurredAt)
    (shown : List.Forall₂ (fun event item => ∃ table checkpoint consistency index,
      item = receiptAt rt table checkpoint consistency event index) rows items) :
    items.mapM (itemLeaf rt) = .ok (rows.map (rowLeaf rt)) := by
  induction shown with
  | nil => rfl
  | cons found _ ih =>
      obtain ⟨table, checkpoint, consistency, index, rfl⟩ := found
      have first := shown_item_leaf rt table checkpoint consistency _ index (readable _ List.mem_cons_self)
      have others := ih fun row later => readable row (List.mem_cons_of_mem _ later)
      rw [List.mapM_cons, first, others]
      rfl

end

section

variable {ι κ : Type} [DecidableEq ι] [Fintype ι] [DecidableEq κ] (env : Exporting) (calls : ι → Call)
  (jobs : κ → AuditCall)

theorem page_any_moment (now other : Deployment ι κ) (reached : (deploy env calls jobs).Reaches now)
    (otherReached : (deploy env calls jobs).Reaches other)
    (along : other.Reaches now ∨ now.Reaches other) (checkpoint : Checkpoint)
    (member : checkpoint ∈ now.ledger.store.checkpoints)
    (there : checkpoint ∈ other.ledger.store.checkpoints) (keyring : Keyring) (cursor : Option Int)
    (limit : Nat) :
    buildCheckpointEventPage env.toRuntime other.ledger.store.toLedger checkpoint.checkpointId cursor
      limit keyring =
      buildCheckpointEventPage env.toRuntime now.ledger.store.toLedger checkpoint.checkpointId cursor
        limit keyring := by
  have deployed := free_deployed env calls jobs now reached
  have deployedOther := free_deployed env calls jobs other otherReached
  rcases along with earlier | later
  · have grows := (free_onward env calls jobs other now otherReached earlier).ledger
    rw [deployed.seen, deployedOther.seen] at grows
    have chain := sound_one_chain env.toRuntime _ _ (history_sound env.toRuntime calls _ deployedOther.ledger)
    exact (grown_page env.toRuntime _ _ grows checkpoint there keyring chain cursor limit).symm
  · have grows := (free_onward env calls jobs now other reached later).ledger
    rw [deployed.seen, deployedOther.seen] at grows
    have chain := sound_one_chain env.toRuntime _ _ (history_sound env.toRuntime calls _ deployed.ledger)
    exact grown_page env.toRuntime _ _ grows checkpoint member keyring chain cursor limit

-- A consumer that reads, at whatever moments, the increment of each checkpoint it has
-- acknowledged holds every event up to its cursor once, in order, and with these
-- computes the root the cursor was signed with.
theorem consumers_mirror_the_ledger (now : Deployment ι κ)
    (reached : (deploy env calls jobs).Reaches now) (n : Nat) (row : AuditConsumer)
    (found : now.audit.store.consumers n = some row) (keyring : Keyring)
    (holds : HoldsKeys (SigningKey calls) keyring now.ledger.store.checkpoints)
    (legible : Legible env.toRuntime now.ledger.store.toLedger) (limit : Nat) (positive : 0 < limit)
    (moments : Checkpoint → Nat → Deployment ι κ)
    (along : ∀ checkpoint turn, checkpoint ∈ now.ledger.store.checkpoints →
      checkpoint.checkpointId ∈ acknowledgedBy now.audit.store.acknowledged n →
        (deploy env calls jobs).Reaches (moments checkpoint turn) ∧
        checkpoint ∈ (moments checkpoint turn).ledger.store.checkpoints ∧
        ((moments checkpoint turn).Reaches now ∨ now.Reaches (moments checkpoint turn))) :
    ∃ read pages, read <+: now.ledger.store.checkpoints ∧
      read.map Checkpoint.checkpointId = acknowledgedBy now.audit.store.acknowledged n ∧
      row.lastCheckpointId = read.getLast?.map Checkpoint.checkpointId ∧
      List.Forall₂ (fun checkpoint items => ∃ rounds,
        followPages (fun turn cursor => buildCheckpointEventPage env.toRuntime
        (moments checkpoint turn).ledger.store.toLedger checkpoint.checkpointId cursor limit keyring)
          rounds 0 none = .ok (some items))
        read pages ∧
      List.Forall₂ (fun event item => ∃ checkpoint ∈ read,
        buildReceiptAtCheckpoint env.toRuntime now.ledger.store.toLedger event checkpoint keyring = .ok item)
        (now.ledger.store.events.upTo (boundaryOf read.getLast?)) pages.flatten ∧
      ∀ last ∈ read.getLast?, pages.flatten.length = last.leafCount ∧ ∃ leaves,
        pages.flatten.mapM (itemLeaf env.toRuntime) = .ok leaves ∧
        hex (merkleRoot env.toHashFunction leaves) = last.rootHash := by
  have deployed := free_deployed env calls jobs now reached
  have cursors := deployed.disciplined.inv.cursors
  have checkpoints : now.audit.store.ledger.checkpoints = now.ledger.store.checkpoints :=
    congrArg Ledger.checkpoints deployed.seen
  have sound := history_sound env.toRuntime calls now.ledger deployed.ledger
  obtain ⟨more, whole⟩ := cursors.followed n
  rw [checkpoints] at whole
  obtain ⟨read, rest, split, named, _⟩ := List.map_eq_append_iff.mp whole.symm
  have member : ∀ checkpoint ∈ read, checkpoint ∈ now.ledger.store.checkpoints := fun checkpoint inside => by
    rw [split]
    exact List.mem_append_left _ inside
  have chained := sound.chain
  rw [split] at chained
  obtain ⟨pages, rows, walked, appended, receipts⟩ :=
    chain_walked env.toRuntime _ now.ledger.store sound keyring holds limit positive
    none read (chained_front env.toRuntime _ _ none read rest chained) member
      (fun _ nothing => by cases nothing)
    (fun checkpoint turn cursor => buildCheckpointEventPage env.toRuntime
      (moments checkpoint turn).ledger.store.toLedger
      checkpoint.checkpointId cursor limit keyring) fun checkpoint inside turn cursor => by
        obtain ⟨reachedThen, there, ordered⟩ := along checkpoint turn (member checkpoint inside) (by
          rw [← named]
          exact List.mem_map_of_mem inside)
        exact page_any_moment env calls jobs now _ reached reachedThen ordered checkpoint
          (member checkpoint inside) there keyring cursor limit
  have nothing : now.ledger.store.events.upTo (boundaryOf none) = [] :=
    List.filter_eq_nil_iff.mpr fun event inside => by
    have low := (sound.sequences event (.inl inside)).1
    simp only [decide_eq_true_eq]
    exact not_le.mpr low
  rw [nothing, List.nil_append, Option.or_none] at appended
  subst appended
  refine ⟨read, pages, ⟨rest, split.symm⟩, named, ?_, walked,
    receipts.imp fun event item ⟨checkpoint, inside, _, built⟩ =>
    ⟨checkpoint, inside, built⟩, fun last isLast => ?_⟩
  · rw [cursors.cursor n row found, ← named, List.getLast?_map]
  · have covered :=
      sound_covers env.toRuntime _ now.ledger.store sound last (member last (List.mem_of_getLast? isLast))
    rw [Option.mem_def.mp isLast] at receipts
    refine ⟨receipts.length_eq.symm.trans covered.count, _, ?_, covered.root⟩
    refine shown_leaves env.toRuntime _ _ (fun event inside => legible.events event
        (List.mem_of_mem_filter inside)) ?_
    exact receipts.imp fun event item ⟨checkpoint, _, ⟨consistency, index, is⟩, _⟩ =>
      ⟨_, checkpoint, consistency, index, is⟩

end

theorem sample_consumer_mirrors :
    ∃ (now : Deployment Bool (Fin 3)) (row : AuditConsumer) (rounds : Nat) (items : List Dict)
    (leaves : List Bytes), (deploy sampleExporting sampleCalls sampleConsumer).Reaches now ∧
      now.audit.store.consumers 1 = some row ∧ row.lastCheckpointId = some sampleCheckpoint.checkpointId ∧
      followPages (fun _ cursor =>
        buildCheckpointEventPage reference now.ledger.store.toLedger sampleCheckpoint.checkpointId
        cursor 1 sampleKeyring) rounds 0 none = .ok (some items) ∧ items.length = 1 ∧
      items.mapM (itemLeaf reference) = .ok leaves ∧
          hex (merkleRoot reference.toHashFunction leaves) = sampleCheckpoint.rootHash := by
  obtain ⟨⟨final, rest⟩, run, ⟨row, found, moved⟩, own⟩ := sample_acknowledged
  obtain ⟨ledger, reached, sealed⟩ := sample_deployment sampleConsumer _ final rest run
  have rows : ledger.store.events.rows = [sampleEvent] :=
    congrArg (fun seen : Ledger => seen.events.rows) sealed
  have checkpoints : ledger.store.checkpoints = [sampleCheckpoint] := congrArg Ledger.checkpoints sealed
  obtain ⟨read, pages, front, named, _, walked, _, complete⟩ :=
    consumers_mirror_the_ledger sampleExporting sampleCalls sampleConsumer
    ⟨ledger, final⟩ reached 1 row found sampleKeyring (fun _ _ => sample_keys _)
      (sample_legible _ rows checkpoints) 1 Nat.one_pos
    (fun _ _ => ⟨ledger, final⟩) fun checkpoint _ member _ => ⟨reached, member, .inl .refl⟩
  have only : read = [sampleCheckpoint] := by
    have count : read.length = 1 := by simpa [own] using congrArg List.length named
    rw [checkpoints] at front
    exact front.eq_of_length count
  subst only
  obtain ⟨items, others, ⟨rounds, followed⟩, none, rfl⟩ := List.forall₂_cons_left_iff.mp walked
  rw [List.forall₂_nil_left_iff.mp none] at complete
  obtain ⟨counted, leaves, read, root⟩ := complete sampleCheckpoint rfl
  rw [List.flatten_singleton] at counted read
  exact ⟨_, row, rounds, items, leaves, reached, found, moved, followed, counted, read, root⟩

end CalibrationLedger
