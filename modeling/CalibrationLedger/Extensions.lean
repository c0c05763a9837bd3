import CalibrationLedger.Binding
import CalibrationLedger.Library.Extensions

set_option autoImplicit false

-- What accepted proofs say of trees of which only sizes and roots are known.
namespace CalibrationLedger

open Digest HashTree

theorem split_cut : StableCut split := ⟨split_pos, split_lt, split_stable⟩

section

variable (h : HashFunction) (seen : Bytes × Bytes → Prop)

theorem route_placed (size index : Nat) (leaf : Bytes) (route : List InclusionStep)
    (inside : index < size) (shape : route.map Sibling.side = collectSides index size)
    (joined : ∀ pair ∈ climbJoins (nodeHash h) leaf route, seen pair) :
    LeafAt (nodeHash h) split seen index size leaf (climb (nodeHash h) leaf route) := by
  induction size using Nat.strong_induction_on generalizing index route with
  | _ size ih =>
      rw [collectSides] at shape
      by_cases short : size < 2
      · rw [if_pos short] at shape
        obtain rfl : route = [] := List.map_eq_nil_iff.mp shape
        obtain rfl : size = 1 := by omega
        obtain rfl : index = 0 := by omega
        exact .leaf leaf
      · rw [if_neg short] at shape
        dsimp only at shape
        have below := split_lt size (by omega)
        have first := split_pos size
        by_cases left : index < split size
        · rw [if_pos left] at shape
          obtain ⟨init, last, rfl, initShape, lastShape⟩ := List.map_eq_append_iff.mp shape
          obtain ⟨⟨side, held⟩, rfl, rfl⟩ := List.map_eq_singleton_iff.mp lastShape
          rw [climb_joins_append] at joined
          rw [climb_append]
          have inner := ih (split size) below index init left initShape fun pair member =>
            joined pair (List.mem_append_left _ member)
          exact .left index size leaf _ held (by omega) left (joined _ (by simp [climbJoins])) inner
        · rw [if_neg left] at shape
          obtain ⟨init, last, rfl, initShape, lastShape⟩ := List.map_eq_append_iff.mp shape
          obtain ⟨⟨side, held⟩, rfl, rfl⟩ := List.map_eq_singleton_iff.mp lastShape
          rw [climb_joins_append] at joined
          rw [climb_append]
          have inner := ih (size - split size) (by omega) (index - split size) init
              (by omega) initShape fun pair member =>
            joined pair (List.mem_append_left _ member)
          exact .right index size leaf held _ (by omega) (by omega) (joined _ (by simp [climbJoins])) inner

theorem inclusion_placed (leaf : Bytes) (index size : Int) (proof : List InclusionStep) (root : Bytes)
    (accepted : verifyInclusion h leaf index size proof root = true)
    (joined : ∀ pair ∈ climbJoins (nodeHash h) leaf proof, seen pair) :
    ∃ place count : Nat, index = place ∧ size = count ∧
    LeafAt (nodeHash h) split seen place count leaf root := by
  unfold verifyInclusion at accepted
  split at accepted
  · rename_i inside
    dsimp only at accepted
    split at accepted
    · cases accepted
    · obtain ⟨shape, _, reached⟩ := (replay_iff h leaf root proof _).mp (eq_of_beq accepted)
      obtain ⟨place, rfl⟩ := Int.eq_ofNat_of_zero_le inside.1
      obtain ⟨count, rfl⟩ := Int.eq_ofNat_of_zero_le (by omega : 0 ≤ size)
      refine ⟨place, count, rfl, rfl, ?_⟩
      rw [← reached]
      exact route_placed h seen count place leaf proof (by omega) shape joined
  · cases accepted

-- The two digests a round joins for the old root, where it does.
def oldJoins (walk : Walk) : List Bytes → List (Bytes × Bytes)
  | [] => []
  | item :: rest =>
      (if walk.fn % 2 = 1 ∨ walk.fn = walk.sn then [(item, walk.oldHash)] else []) ++
        match advance h walk item with
        | some next => oldJoins next rest
        | none => []

theorem advance_running (walk : Walk) (item : Bytes) (running : walk.sn ≠ 0) :
    ∃ next, advance h walk item = some next := by
  rw [advance, if_neg running]
  split
  · exact ⟨_, rfl⟩
  · exact ⟨_, rfl⟩

theorem advance_widths (walk next : Walk) (item : Bytes) (old : walk.oldHash.length = 32)
    (moved : advance h walk item = some next) : next.oldHash.length = 32 ∧ next.newHash.length = 32 := by
  rw [advance] at moved
  split at moved
  · cases moved
  · split at moved <;> cases moved
    · exact ⟨h.digest_length _, h.digest_length _⟩
    · exact ⟨old, h.digest_length _⟩

theorem ended_walk (walk final : Walk) (items : List Bytes) (ended : walk.sn = 0)
    (moved : items.foldlM (advance h) walk = some final) : items = [] ∧ final = walk := by
  cases items with
  | nil => exact ⟨rfl, (Option.some.inj moved).symm⟩
  | cons item rest =>
      rw [List.foldlM_cons, advance, if_pos ended] at moved
      cases moved

theorem turns_left (bit : Nat) (part whole : Walk) (beside : LeftPart bit part whole) (running : part.sn ≠ 0)
    (joined : part.fn % 2 = 1 ∨ part.fn = part.sn) : whole.fn % 2 = 1 ∨ whole.fn = whole.sn := by
  obtain ⟨fn, within, full, low, high, _, _⟩ := beside
  obtain ⟨less, rfl⟩ : ∃ less, bit = less + 1 :=
    Nat.exists_eq_succ_of_ne_zero fun zero => by rw [zero, Nat.pow_zero] at full; omega
  rw [Nat.pow_succ] at full
  omega

theorem turns_right (bit : Nat) (part whole : Walk) (beside : RightPart bit part whole)
    (running : part.sn ≠ 0) (joined : part.fn % 2 = 1 ∨ part.fn = part.sn) :
    whole.fn % 2 = 1 ∨ whole.fn = whole.sn := by
  obtain ⟨fn, sn, within, small, _, _⟩ := beside
  obtain ⟨low, rfl⟩ : ∃ low, bit = low + 1 :=
    Nat.exists_eq_succ_of_ne_zero fun zero => by rw [zero, Nat.pow_zero] at small; omega
  rw [Nat.pow_succ] at fn sn
  omega

theorem left_part_ends (items : List Bytes) (bit : Nat) (part whole final : Walk)
    (beside : LeftPart bit part whole) (moved : items.foldlM (advance h) whole = some final)
    (ended : final.sn = 0) :
    ∃ inner item last, inner.foldlM (advance h) part = some last ∧ last.sn = 0 ∧
      final = ⟨0, 0, last.oldHash, nodeHash h last.newHash item⟩ ∧
      (last.newHash, item) ∈ walkJoins h whole items ∧
      (∀ pair ∈ walkJoins h part inner, pair ∈ walkJoins h whole items) ∧
      ∀ pair ∈ oldJoins h part inner, pair ∈ oldJoins h whole items := by
  induction items generalizing bit part whole with
  | nil =>
      cases moved
      have low := beside.low
      have positive := Nat.two_pow_pos bit
      omega
  | cons item rest ih =>
      rw [List.foldlM_cons] at moved
      by_cases ends : part.sn = 0
      · obtain ⟨moves, pair⟩ := advance_last_left h bit part whole item beside ends
        rw [moves] at moved
        obtain ⟨rfl, rfl⟩ := ended_walk h _ final rest rfl moved
        refine ⟨[], item, part, rfl, ends, rfl, ?_, by simp [walkJoins], by simp [oldJoins]⟩
        rw [walkJoins, pair]
        exact List.mem_cons_self
      · obtain ⟨next, moves⟩ := advance_running h part item ends
        obtain ⟨less, after, follows, onward⟩ := advance_left h bit part whole next item beside moves
        rw [follows] at moved
        obtain ⟨inner, other, last, reached, stops, shape, joined, news, olds⟩ := ih less next
          after onward moved
        refine ⟨item :: inner, other, last, by rw [List.foldlM_cons, moves]; exact reached, stops,
          shape, ?_, ?_, ?_⟩
        · rw [walkJoins, follows]
          exact List.mem_cons_of_mem _ joined
        · rw [walkJoins, walkJoins, moves, follows, pair_left bit part whole item beside ends]
          intro pair member
          rcases List.mem_cons.mp member with rfl | later
          · exact List.mem_cons_self
          · exact List.mem_cons_of_mem _ (news pair later)
        · rw [oldJoins, oldJoins, moves, follows, beside.oldHash]
          intro pair member
          rcases List.mem_append.mp member with now | later
          · split at now
            · rename_i joined
              rw [if_pos (turns_left bit part whole beside ends joined)]
              exact List.mem_append_left _ now
            · cases now
          · exact List.mem_append_right _ (olds pair later)

theorem right_part_ends (items : List Bytes) (bit : Nat) (part whole final : Walk)
    (beside : RightPart bit part whole) (moved : items.foldlM (advance h) whole = some final)
    (ended : final.sn = 0) :
    ∃ inner item last, inner.foldlM (advance h) part = some last ∧ last.sn = 0 ∧
      final = ⟨0, 0, nodeHash h item last.oldHash, nodeHash h item last.newHash⟩ ∧
      (item, last.newHash) ∈ walkJoins h whole items ∧ (item, last.oldHash) ∈ oldJoins h whole items ∧
      (∀ pair ∈ walkJoins h part inner, pair ∈ walkJoins h whole items) ∧
      ∀ pair ∈ oldJoins h part inner, pair ∈ oldJoins h whole items := by
  induction items generalizing bit part whole with
  | nil =>
      cases moved
      have sn := beside.sn
      have positive := Nat.two_pow_pos bit
      omega
  | cons item rest ih =>
      rw [List.foldlM_cons] at moved
      by_cases ends : part.sn = 0
      · obtain ⟨moves, pair⟩ := advance_last_right h bit part whole item beside ends
        rw [moves] at moved
        obtain ⟨rfl, rfl⟩ := ended_walk h _ final rest rfl moved
        have equal : whole.fn = whole.sn := by
          have fn := beside.fn
          have sn := beside.sn
          have within := beside.within
          omega
        refine ⟨[], item, part, rfl, ends, rfl, ?_, ?_, by simp [walkJoins], by simp [oldJoins]⟩
        · rw [walkJoins, pair]
          exact List.mem_cons_self
        · rw [oldJoins, if_pos (.inr equal), beside.oldHash]
          exact List.mem_append_left _ List.mem_cons_self
      · obtain ⟨next, moves⟩ := advance_running h part item ends
        obtain ⟨less, after, follows, onward⟩ := advance_right h bit part whole next item beside moves
        rw [follows] at moved
        obtain ⟨inner, other, last, reached, stops, shape, joined, before, news, olds⟩ := ih less next
          after onward moved
        refine ⟨item :: inner, other, last, by rw [List.foldlM_cons, moves]; exact reached, stops,
          shape, ?_, ?_, ?_, ?_⟩
        · rw [walkJoins, follows]
          exact List.mem_cons_of_mem _ joined
        · rw [oldJoins, follows]
          exact List.mem_append_right _ before
        · rw [walkJoins, walkJoins, moves, follows, pair_right bit part whole item beside ends]
          intro pair member
          rcases List.mem_cons.mp member with rfl | later
          · exact List.mem_cons_self
          · exact List.mem_cons_of_mem _ (news pair later)
        · rw [oldJoins, oldJoins, moves, follows, beside.oldHash]
          intro pair member
          rcases List.mem_append.mp member with now | later
          · split at now
            · rename_i joined
              rw [if_pos (turns_right bit part whole beside ends joined)]
              exact List.mem_append_left _ now
            · cases now
          · exact List.mem_append_right _ (olds pair later)

-- The walk of the verifier over two sizes is the descent to where the old tree ends.
def startAt (m n : Nat) (anchor : Bytes) : Walk :=
  ⟨(stripOnes (m - 1) (n - 1)).1, (stripOnes (m - 1) (n - 1)).2, anchor, anchor⟩

theorem start_at_left (m n : Nat) (anchor : Bytes) (positive : 0 < m) (part : m < n) (left : m ≤ split n) :
    ∃ bit, LeftPart bit (startAt m (split n) anchor) (startAt m n anchor) := by
  have below := split_lt n (by omega)
  have half := split_half n (by omega)
  obtain ⟨exponent, power⟩ : ∃ exponent, split n = 2 ^ exponent := ⟨_, rfl⟩
  obtain ⟨bit, within, full, low, high⟩ :=
    strip_ones_left (m - 1) (split n - 1) (n - 1) exponent (by omega) (by omega)
    (by omega) (by rw [Nat.pow_succ]; omega)
  exact ⟨bit, strip_ones_first _ _ _, within, full, low, high, rfl, rfl⟩

theorem start_at_right (m n : Nat) (anchor : Bytes) (part : m < n) (right : ¬ m ≤ split n) :
    ∃ bit, RightPart bit (startAt (m - split n) (n - split n) anchor) (startAt m n anchor) := by
  have half := split_half n (by omega)
  obtain ⟨exponent, power⟩ : ∃ exponent, split n = 2 ^ exponent := ⟨_, rfl⟩
  obtain ⟨bit, stripped, within, small⟩ :=
    strip_ones_right (m - split n - 1) (n - split n - 1) exponent (by omega) (by omega)
  have oldIndex : m - split n - 1 + 2 ^ exponent = m - 1 := by omega
  have newIndex : n - split n - 1 + 2 ^ exponent = n - 1 := by omega
  rw [oldIndex, newIndex] at stripped
  refine ⟨bit, ?_, ?_, Nat.le_of_lt within, small, rfl, rfl⟩
  · rw [startAt, stripped]
    rfl
  · rw [startAt, stripped]
    rfl

theorem start_at_split (n : Nat) (anchor : Bytes) :
    startAt (split n) (split n) anchor = ⟨0, 0, anchor, anchor⟩ := by
  have zero : (stripOnes (split n - 1) (split n - 1)).1 = 0 := strip_ones_power _ _
  rw [startAt, strip_ones_same, zero]

theorem walk_extends (n m : Nat) (anchor : Bytes) (items : List Bytes) (final : Walk) (positive : 0 < m)
    (part : m < n) (moved : items.foldlM (advance h) (startAt m n anchor) = some final)
    (ended : final.sn = 0) (news : ∀ pair ∈ walkJoins h (startAt m n anchor) items, seen pair)
    (olds : ∀ pair ∈ oldJoins h (startAt m n anchor) items, seen pair) :
    RootGrows (nodeHash h) split seen m n final.oldHash final.newHash := by
  induction n using Nat.strong_induction_on generalizing m items final with
  | _ n ih =>
      have below := split_lt n (by omega)
      have first := split_pos n
      by_cases left : m ≤ split n
      · obtain ⟨bit, beside⟩ := start_at_left m n anchor positive part left
        obtain ⟨inner, item, last, reached, stops, rfl, joined, innerNews, innerOlds⟩ :=
          left_part_ends h items bit _ _ final beside moved ended
        refine .left m n last.oldHash last.newHash item (by omega) left (news _ joined) ?_
        by_cases whole : m = split n
        · subst whole
          rw [start_at_split] at reached
          obtain ⟨_, rfl⟩ := ended_walk h _ last inner rfl reached
          exact .whole _ anchor
        · exact ih (split n) below m inner last positive (by omega) reached stops
            (fun pair member => news pair (innerNews pair member))
            fun pair member => olds pair (innerOlds pair member)
      · obtain ⟨bit, beside⟩ := start_at_right m n anchor part left
        obtain ⟨inner, item, last, reached, stops, rfl, joined, before, innerNews, innerOlds⟩ :=
          right_part_ends h items bit _ _ final beside moved ended
        refine .right m n item last.oldHash last.newHash (by omega) (by omega) (olds _ before)
          (news _ joined) ?_
        exact ih (n - split n) (by omega) (m - split n) inner last (by omega) (by omega) reached stops
          (fun pair member => news pair (innerNews pair member)) fun pair member =>
            olds pair (innerOlds pair member)

-- All the verifier joins between two roots.
def consistencyPairs (oldSize newSize : Nat) (oldRoot : Bytes) (proof : List Bytes) : List (Bytes × Bytes) :=
  if oldSize < newSize then
    match startWith oldSize newSize oldRoot proof with
    | none => []
    | some (walk, items) => walkJoins h walk items ++ oldJoins h walk items
  else []

theorem start_with_at (m n : Nat) (oldRoot : Bytes) (proof : List Bytes) (walk : Walk) (items : List Bytes)
    (starts : startWith m n oldRoot proof = some (walk, items)) :
    ∃ anchor, walk = startAt m n anchor ∧ (anchor = oldRoot ∨ anchor ∈ proof) := by
  unfold startWith at starts
  dsimp only at starts
  split at starts
  · cases starts
    exact ⟨oldRoot, rfl, .inl rfl⟩
  · split at starts
    · cases starts
    · cases starts
      exact ⟨_, rfl, .inr List.mem_cons_self⟩

theorem consistency_extends (oldSize newSize : Int) (oldRoot newRoot : Bytes) (proof : List Bytes)
    (accepted : verifyConsistency h oldSize newSize oldRoot newRoot proof = true)
    (joined : ∀ pair ∈ consistencyPairs h oldSize.toNat newSize.toNat oldRoot proof, seen pair) :
    ∃ m n : Nat, oldSize = m ∧ newSize = n ∧ RootGrows (nodeHash h) split seen m n oldRoot newRoot := by
  have range : 1 ≤ oldSize ∧ oldSize ≤ newSize := by
    by_contra outside
    unfold verifyConsistency at accepted
    rw [if_pos (by omega)] at accepted
    cases accepted
  obtain ⟨m, rfl⟩ := Int.eq_ofNat_of_zero_le (by omega : 0 ≤ oldSize)
  obtain ⟨n, rfl⟩ := Int.eq_ofNat_of_zero_le (by omega : 0 ≤ newSize)
  refine ⟨m, n, rfl, rfl, ?_⟩
  by_cases same : m = n
  · subst same
    unfold verifyConsistency at accepted
    rw [if_neg (by omega), if_pos rfl] at accepted
    obtain rfl := eq_of_beq (Bool.and_eq_true_iff.mp accepted).2
    exact .whole m oldRoot
  · obtain ⟨_, walk, items, final, starts, finished, ended, rfl, rfl⟩ :=
      verify_consistency_walks h m n oldRoot newRoot proof (by omega) (by omega) accepted
    rw [Int.toNat_natCast, Int.toNat_natCast, consistencyPairs, if_pos (by omega), starts] at joined
    obtain ⟨anchor, rfl, _⟩ := start_with_at m n _ proof walk items starts
    exact walk_extends h seen n m anchor items final (by omega) (by omega) finished ended
      (fun pair member => joined pair (List.mem_append_left _ member)) fun pair member =>
        joined pair (List.mem_append_right _ member)

theorem consistency_inputs_pairs (oldSize newSize : Nat) (oldRoot : Bytes) (proof : List Bytes) :
    ∀ input ∈ consistencyInputs h oldSize newSize oldRoot proof,
    input ∈ (consistencyPairs h oldSize newSize oldRoot proof).map pairInput := by
  intro input member
  rw [consistencyInputs] at member
  rw [consistencyPairs]
  by_cases less : oldSize < newSize
  · rw [if_pos less] at member
    rw [if_pos less]
    cases starts : startWith oldSize newSize oldRoot proof with
    | none =>
        rw [starts] at member
        cases member
    | some found =>
        rw [starts] at member
        rw [List.map_append]
        exact List.mem_append_left _ member
  · rw [if_neg less] at member
    cases member

theorem climb_joins_width (leaf : Bytes) (proof : List InclusionStep) (width : leaf.length = 32)
    (widths : ∀ step ∈ proof, step.hash.length = 32) :
    ∀ pair ∈ climbJoins (nodeHash h) leaf proof, pair.1.length = 32 ∧ pair.2.length = 32 := by
  induction proof generalizing leaf with
  | nil => simp [climbJoins]
  | cons first rest ih =>
      obtain ⟨side, hash⟩ := first
      have own : hash.length = 32 := widths ⟨side, hash⟩ List.mem_cons_self
      have later := fun next wide => ih next wide fun step member =>
        widths step (List.mem_cons_of_mem _ member)
      intro pair member
      rw [climbJoins] at member
      rcases List.mem_cons.mp member with rfl | further
      · cases side
        · exact ⟨own, width⟩
        · exact ⟨width, own⟩
      · refine later _ ?_ pair further
        cases side <;> exact h.digest_length _

theorem inclusion_widths (leaf : Bytes) (index size : Int) (proof : List InclusionStep) (root : Bytes)
    (accepted : verifyInclusion h leaf index size proof root = true) :
    ∀ step ∈ proof, step.hash.length = 32 := by
  unfold verifyInclusion at accepted
  split at accepted
  · dsimp only at accepted
    split at accepted
    · cases accepted
    · exact ((replay_iff h leaf root proof _).mp (eq_of_beq accepted)).2.1
  · cases accepted

theorem walk_pairs_width (walk : Walk) (items : List Bytes) (old : walk.oldHash.length = 32)
    (new : walk.newHash.length = 32) (widths : ∀ item ∈ items, item.length = 32) :
    ∀ pair ∈ walkJoins h walk items ++ oldJoins h walk items, pair.1.length = 32 ∧ pair.2.length = 32 := by
  induction items generalizing walk with
  | nil => simp [walkJoins, oldJoins]
  | cons item rest ih =>
      have own := widths item List.mem_cons_self
      have onward (next : Walk) (moved : advance h walk item = some next) := ih next
        (advance_widths h walk next item old moved).1 (advance_widths h walk next item old moved).2
        fun other member => widths other (List.mem_cons_of_mem _ member)
      intro pair member
      rw [walkJoins, oldJoins] at member
      rcases List.mem_append.mp member with joined | kept
      · rcases List.mem_cons.mp joined with rfl | later
        · rw [pairOf]
          split
          · exact ⟨own, new⟩
          · exact ⟨new, own⟩
        · cases moved : advance h walk item with
          | none =>
              rw [moved] at later
              cases later
          | some next =>
              rw [moved] at later
              exact onward next moved pair (List.mem_append_left _ later)
      · rcases List.mem_append.mp kept with now | later
        · split at now
          · rw [List.mem_singleton.mp now]
            exact ⟨own, old⟩
          · cases now
        · cases moved : advance h walk item with
          | none =>
              rw [moved] at later
              cases later
          | some next =>
              rw [moved] at later
              exact onward next moved pair (List.mem_append_right _ later)

theorem consistency_pairs_width (m n : Nat) (oldRoot newRoot : Bytes) (proof : List Bytes)
    (width : oldRoot.length = 32) (accepted : verifyConsistency h m n oldRoot newRoot proof = true) :
    ∀ pair ∈ consistencyPairs h (m : Int).toNat (n : Int).toNat oldRoot proof, pair.1.length = 32 ∧
    pair.2.length = 32 := by
  rw [Int.toNat_natCast, Int.toNat_natCast, consistencyPairs]
  split
  · rename_i less
    have positive : 0 < m := by
      by_contra zero
      unfold verifyConsistency at accepted
      rw [if_pos (by omega)] at accepted
      cases accepted
    obtain ⟨wide, walk, items, final, starts, _⟩ :=
      verify_consistency_walks h m n oldRoot newRoot proof positive less accepted
    rw [starts]
    obtain ⟨anchor, rfl, held⟩ := start_with_at m n oldRoot proof walk items starts
    have own : anchor.length = 32 := by
      rcases held with rfl | inside
      · exact width
      · exact wide anchor inside
    exact walk_pairs_width h _ items own own fun item member =>
      wide item (start_items m n oldRoot proof _ items starts item member)
  · simp

end

end CalibrationLedger
