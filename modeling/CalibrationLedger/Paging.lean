import CalibrationLedger.Completeness
import CalibrationLedger.Growth

set_option autoImplicit false

-- A client reads the increment of a checkpoint page by page while the tables grow.
namespace CalibrationLedger

open JsonText Digest HashTree Interleaving

-- The rows a checkpoint newly covers.
def increment (table : EventTable) (checkpoint : Checkpoint) (start : Int) : List Event :=
  (table.upTo checkpoint.lastEventSequence).filter fun row => start < row.sequence

-- What a client does: it asks on from next_after_sequence while has_more is set.
-- request gives the answer at each turn; none stands for a walk not yet over.
def followPages (request : Nat → Option Int → Py EventPage) : Nat → Nat → Option Int → Py (Option (List Dict))
  | 0, _, _ => return none
  | rounds + 1, turn, cursor => do
      let page ← request turn cursor
      if page.hasMore then
        let rest ← followPages request rounds (turn + 1) page.nextAfterSequence
        return rest.map fun items => page.items ++ items
      else return some page.items

theorem filter_past_page {α : Type} (key : α → Int) (entries : List α) (limit : Nat) (newest : α)
    (sorted : entries.Pairwise fun a b => key a < key b)
    (ends : (entries.take limit).getLast? = some newest) :
    entries.filter (fun entry => key newest < key entry) = entries.drop limit := by
  have ordered := sorted
  rw [← List.take_append_drop limit entries] at ordered
  obtain ⟨page, _, beyond⟩ := List.pairwise_append.mp ordered
  have last : newest ∈ entries.take limit := List.mem_of_getLast? ends
  obtain ⟨earlier, cut⟩ := List.getLast?_eq_some_iff.mp ends
  have shown : (entries.take limit).filter (fun entry => key newest < key entry) = [] := by
    apply List.filter_eq_nil_iff.mpr
    intro entry member
    rw [cut] at member page
    simp only [decide_eq_true_eq, not_lt]
    rcases List.mem_append.mp member with before | at_end
    · exact le_of_lt ((List.pairwise_append.mp page).2.2 entry before newest (List.mem_singleton_self _))
    · rw [List.mem_singleton.mp at_end]
  have left : (entries.drop limit).filter (fun entry => key newest < key entry) = entries.drop limit := by
    apply List.filter_eq_self.mpr
    intro entry member
    simpa using beyond newest last entry member
  calc entries.filter (fun entry => key newest < key entry)
      = (entries.take limit ++ entries.drop limit).filter (fun entry => key newest < key entry) := by
        rw [List.take_append_drop]
    _ = entries.drop limit := by rw [List.filter_append, shown, left, List.nil_append]

theorem candidates_sorted (table : EventTable) (checkpoint : Checkpoint) (cursor : Int) :
    (candidatesOf table checkpoint cursor).Pairwise fun a b => a.1.sequence < b.1.sequence := by
  have rows : ((table.upTo checkpoint.lastEventSequence).zipIdx.map Prod.fst).Pairwise fun a b =>
    a.sequence < b.sequence := by
    rw [List.zipIdx_map_fst]
    exact table.sorted.filter _
  exact (List.pairwise_map.mp rows).filter _

theorem candidates_rows (table : EventTable) (checkpoint : Checkpoint) (start : Int) :
    (candidatesOf table checkpoint start).map Prod.fst = increment table checkpoint start := by
  have whole : (table.upTo checkpoint.lastEventSequence).zipIdx.map Prod.fst =
      table.upTo checkpoint.lastEventSequence :=
    List.zipIdx_map_fst 0 _
  have moved : (candidatesOf table checkpoint start).map Prod.fst =
      ((table.upTo checkpoint.lastEventSequence).zipIdx.map Prod.fst).filter fun row =>
        start < row.sequence := by
    rw [List.filter_map]
    rfl
  rw [moved, whole, increment]

theorem candidates_resume (table : EventTable) (checkpoint : Checkpoint) (cursor : Int) (limit : Nat)
    (newest : Event × Nat)
    (ends : ((candidatesOf table checkpoint cursor).take limit).getLast? = some newest) :
    candidatesOf table checkpoint newest.1.sequence = (candidatesOf table checkpoint cursor).drop limit := by
  have sorted := candidates_sorted table checkpoint cursor
  have past : cursor < newest.1.sequence := by
    have inside := List.mem_of_mem_take (List.mem_of_getLast? ends)
    simpa using (List.mem_filter.mp inside).2
  rw [← filter_past_page (fun entry : Event × Nat => entry.1.sequence) _ limit newest sorted ends]
  rw [candidatesOf, candidatesOf, List.filter_filter]
  apply List.filter_congr
  intro entry _
  by_cases beyond : newest.1.sequence < entry.1.sequence
  · simp [beyond, lt_trans past beyond]
  · simp [beyond]

section

variable (rt : Runtime) (signing : Text → Bytes → Prop) {ι : Type} (store : Store ι)

variable (sound : Sound rt signing store) (checkpoint : Checkpoint)
  (member : checkpoint ∈ store.checkpoints) (keyring : Keyring)

variable (start : Int) (began : incrementStart store.toLedger checkpoint = .ok start)
  (consistency : Json)
  (bundled : buildConsistencyBundle rt store.toLedger checkpoint
    (leavesOf rt store.events checkpoint) keyring = .ok consistency)
  (holds : HoldsKeys signing keyring [checkpoint])

include sound member began bundled holds

theorem pages_followed (stores : Nat → Store ι) (grown : ∀ turn, Grows store (stores turn))
    (limit : Nat) (positive : 0 < limit) (rounds turn : Nat) (afterSequence : Option Int)
    (low : start ≤ afterSequence.getD start)
    (high : afterSequence.getD start ≤ checkpoint.lastEventSequence)
    (enough : (candidatesOf store.events checkpoint (afterSequence.getD start)).length < rounds) :
    followPages (fun turn cursor =>
        buildCheckpointEventPage rt (stores turn).toLedger checkpoint.checkpointId cursor limit keyring)
          rounds turn afterSequence =
      .ok (some ((candidatesOf store.events checkpoint (afterSequence.getD start)).map fun entry =>
        receiptAt rt store.events checkpoint consistency entry.1 entry.2)) := by
  induction rounds generalizing turn afterSequence with
  | zero => omega
  | succ rounds ih =>
      have grows := grows_ledger store (stores turn) (grown turn)
      have one := sound_one_chain rt signing store sound
      have answer := (grown_page rt store.toLedger
          (stores turn).toLedger grows checkpoint member keyring one afterSequence limit).trans
        (page_built rt signing store sound keyring checkpoint member holds start began consistency
          bundled afterSequence limit positive low high)
      refine (bind_ok _ _ _).mpr ⟨_, answer, ?_⟩
      dsimp only
      by_cases more : limit < (candidatesOf store.events checkpoint (afterSequence.getD start)).length
      · obtain ⟨newest, ends⟩ : ∃ newest,
          ((candidatesOf store.events checkpoint (afterSequence.getD start)).take limit).getLast? =
            some newest := by
          apply Option.isSome_iff_exists.mp
          rw [List.getLast?_isSome, Ne, List.take_eq_nil_iff]
          rintro (none | nothing)
          · omega
          · rw [nothing] at more
            simp at more
        have resumed := candidates_resume store.events checkpoint (afterSequence.getD start) limit newest ends
        have inside := List.mem_of_mem_take (List.mem_of_getLast? ends)
        have past : afterSequence.getD start <
          newest.1.sequence := by simpa using (List.mem_filter.mp inside).2
        have below : newest.1.sequence ≤ checkpoint.lastEventSequence := by
          have row := List.mem_of_getElem? (candidate_inside checkpoint store.events _ newest inside)
          simpa using (List.mem_filter.mp row).2
        have onward := ih (turn + 1) (some newest.1.sequence) (by rw [Option.getD_some]; omega)
          (by rw [Option.getD_some]; exact below) (by rw [Option.getD_some, resumed, List.length_drop]; omega)
        rw [Option.getD_some, resumed] at onward
        rw [if_pos (decide_eq_true more), if_pos (decide_eq_true more), ends, Option.map_some]
        refine (bind_ok _ _ _).mpr ⟨_, onward, ?_⟩
        rw [Option.map_some, ← List.map_append, List.take_append_drop]
        rfl
      · rw [if_neg (by simpa using more), List.take_of_length_le (by omega)]
        rfl

end

section

variable (rt : Runtime) {ι : Type} [DecidableEq ι] [Fintype ι]

theorem moments_reached (moments : Nat → Config (postgres ι) (Py Outcome))
    (onward : ∀ turn, Reaches (postgres ι) (moments turn) (moments (turn + 1))) (turn : Nat) :
    Reaches (postgres ι) (moments 0) (moments turn) := by
  induction turn with
  | zero => exact reaches_refl (postgres ι) _
  | succ turn ih => exact reaches_trans (postgres ι) _ _ _ ih (onward turn)

-- Paging through an increment while the ledger grows gives every row of it once, in
-- order, as its receipt at the checkpoint; and a page asked for again is the same.
theorem increments_are_paged (calls : ι → Call) (moments : Nat → Config (postgres ι) (Py Outcome))
    (reached : Reaches (postgres ι) (start rt calls) (moments 0))
    (onward : ∀ turn, Reaches (postgres ι) (moments turn) (moments (turn + 1))) (checkpoint : Checkpoint)
    (member : checkpoint ∈ (moments 0).store.checkpoints) (keyring : Keyring)
    (holds : HoldsKeys (SigningKey calls) keyring (neededBy (moments 0).store.checkpoints checkpoint))
    (limit : Nat) (positive : 0 < limit) :
    (∃ start rounds items,
      (checkpoint.previousCheckpointId = none ∧ start = 0 ∨ ∃ previous ∈ (moments 0).store.checkpoints,
        checkpoint.previousCheckpointId = some previous.checkpointId ∧ start = previous.lastEventSequence) ∧
      followPages (fun turn cursor => buildCheckpointEventPage rt
        (moments turn).store.toLedger checkpoint.checkpointId
        cursor limit keyring) rounds 0 none = .ok (some items) ∧
      ∀ turn, List.Forall₂
        (fun event item => buildReceiptAtCheckpoint rt
          (moments turn).store.toLedger event checkpoint keyring = .ok item)
        (increment (moments turn).store.events checkpoint start) items) ∧
    ∀ turn later, Reaches (postgres ι) (moments turn) later → ∀ afterSequence size keys,
      buildCheckpointEventPage rt later.store.toLedger checkpoint.checkpointId afterSequence size keys =
        buildCheckpointEventPage rt
          (moments turn).store.toLedger checkpoint.checkpointId afterSequence size keys := by
  have sound := history_sound rt calls (moments 0) reached
  have one := sound_one_chain rt _ (moments 0).store sound
  have along := moments_reached moments onward
  have grown := fun turn => history_grows rt calls (moments 0) (moments turn) reached (along turn)
  refine ⟨?_, fun turn later further afterSequence size keys => ?_⟩
  · obtain ⟨start, began, before⟩ := sound_began rt _ (moments 0).store sound checkpoint member
    obtain ⟨consistency, built, _⟩ := sound_bundled rt _ (moments 0).store sound checkpoint member
    have bundled := built keyring holds
    have keyed := own_key _ keyring _ checkpoint member holds
    have pages := pages_followed rt _ (moments 0).store sound checkpoint member keyring start began
      consistency bundled keyed
      (fun turn => (moments turn).store) grown limit positive _ 0 none (le_refl start) (le_of_lt before)
      (Nat.lt_succ_self _)
    refine ⟨start, _, _, ?_, pages, fun turn => ?_⟩
    · rw [incrementStart] at began
      cases link : checkpoint.previousCheckpointId with
      | none =>
          rw [link] at began
          exact .inl ⟨rfl, (Except.ok.inj began).symm⟩
      | some previousId =>
          obtain ⟨previous, inside, rfl, found⟩ := chain_previous _ one checkpoint member previousId link
          have served : (moments 0).store.toLedger.checkpoint previous.checkpointId = some previous := found
          rw [link] at began
          simp only [served] at began
          exact .inr ⟨previous, inside, rfl, (Except.ok.inj began).symm⟩
    · have unmoved : increment (moments turn).store.events checkpoint start =
          increment (moments 0).store.events checkpoint start := by
        rw [increment, increment, (grown turn).sealed checkpoint member]
      rw [unmoved, ← candidates_rows, Option.getD_none, List.forall₂_map_left_iff, List.forall₂_map_right_iff,
        List.forall₂_same]
      intro entry inside
      rw [grown_receipt rt _ _ (grows_ledger _ _ (grown turn)) checkpoint member keyring one entry.1]
      exact built_at_checkpoint rt _ (moments 0).store sound keyring checkpoint member keyed consistency
        entry.1 entry.2
        bundled (candidate_inside checkpoint _ start entry inside)
  · have reachedTurn := reaches_trans (postgres ι) _ _ _ reached (along turn)
    obtain ⟨more, appended⟩ := (grown turn).appended
    have grows := grows_ledger _ _ (history_grows rt calls (moments turn) later reachedTurn further)
    have chain := sound_one_chain rt _ (moments turn).store
      (history_sound rt calls (moments turn) reachedTurn)
    have kept : checkpoint ∈ (moments turn).store.checkpoints := by
      rw [appended]
      exact List.mem_append_left _ member
    exact grown_page rt _ _ grows checkpoint kept keys chain afterSequence size

end

-- An increment of two events, one to a page.
theorem sample_increment_paged :
    ∃ (now : Config (postgres (Fin 5)) (Py Outcome)) (rounds : Nat) (first second : Dict),
    Reaches (postgres (Fin 5)) (start reference chronicle) now ∧
    buildReceiptAtCheckpoint reference now.store.toLedger revisedEvent laterCheckpoint sampleKeyring =
      .ok first ∧
    buildReceiptAtCheckpoint reference now.store.toLedger laterEvent laterCheckpoint sampleKeyring =
      .ok second ∧
    followPages (fun _ cursor =>
      buildCheckpointEventPage reference now.store.toLedger laterCheckpoint.checkpointId
      cursor 1 sampleKeyring) rounds 0 none = .ok (some [first, second]) := by
  obtain ⟨_, now, before, onward, _, rows, checkpoints⟩ := chronicle_run
  have reached := reaches_trans (postgres (Fin 5)) _ _ _ before onward
  obtain ⟨⟨start, rounds, items, from_start, walked, matched⟩, _⟩ := increments_are_paged reference chronicle
    (fun _ => now) reached (fun _ => reaches_refl (postgres (Fin 5)) now) laterCheckpoint
    (by rw [checkpoints]; simp) sampleKeyring (fun _ _ => chronicle_keys _) 1 Nat.one_pos
  have one : start = 1 := by
    rcases from_start with ⟨none, _⟩ | ⟨previous, held, link, start⟩
    · cases none
    · rw [checkpoints, List.mem_pair] at held
      rcases held with rfl | rfl
      · exact start
      · exact absurd link (by decide)
  have two : increment now.store.events laterCheckpoint start = [revisedEvent, laterEvent] := by
    rw [increment, EventTable.upTo, rows, one]
    decide
  have found := matched 0
  rw [two] at found
  obtain ⟨first, others, builtFirst, rest, rfl⟩ := List.forall₂_cons_left_iff.mp found
  obtain ⟨second, others, builtSecond, none, rfl⟩ := List.forall₂_cons_left_iff.mp rest
  rw [List.forall₂_nil_left_iff.mp none] at walked
  exact ⟨now, rounds, first, second, reached, builtFirst, builtSecond, walked⟩

end CalibrationLedger
