import CalibrationLedger.Merkle

set_option autoImplicit false

-- The roots and the proofs of the source read as the root and the openings of
-- one tree, so that a root binds its leaves and a proof its leaf.
namespace CalibrationLedger

open Digest HashTree

variable (h : HashFunction)

theorem merkle_root_short (leaves : List Bytes) (short : leaves.length < 2) :
    merkleRoot h leaves = leaves.headD (emptyRoot h) := by
  rw [merkleRoot, if_pos short]

theorem merkle_root_split (leaves : List Bytes) (large : 2 ≤ leaves.length) :
    merkleRoot h leaves = nodeHash h (merkleRoot h (leaves.take (split leaves.length)))
      (merkleRoot h (leaves.drop (split leaves.length))) := by
  rw [merkleRoot, if_neg (by omega)]

theorem tree_of_short (leaves : List Bytes) (short : leaves.length < 2) :
    treeOf leaves = .leaf (leaves.headD []) := by
  rw [treeOf, if_pos short]

theorem tree_of_single (leaf : Bytes) : treeOf [leaf] = .leaf leaf := tree_of_short [leaf] Nat.one_lt_two

theorem tree_of_split (leaves : List Bytes) (large : 2 ≤ leaves.length) :
    treeOf leaves = .node (treeOf (leaves.take (split leaves.length)))
      (treeOf (leaves.drop (split leaves.length))) := by
  rw [treeOf, if_neg (by omega)]

-- The induction every proof about the cut follows: short lists, then the halves.
theorem halves_induction (motive : List Bytes → Prop) (short : ∀ leaves, leaves.length < 2 → motive leaves)
    (halves : ∀ leaves, 2 ≤ leaves.length → motive (leaves.take (split leaves.length)) →
      motive (leaves.drop (split leaves.length)) → motive leaves) (leaves : List Bytes) : motive leaves := by
  generalize bound : leaves.length = size
  induction size using Nat.strong_induction_on generalizing leaves with
  | _ size ih =>
      by_cases large : 2 ≤ leaves.length
      · have positive := split_pos leaves.length
        have below := split_lt leaves.length large
        refine halves leaves large (ih _ ?_ _ rfl) (ih _ ?_ _ rfl)
        · rw [List.length_take]
          omega
        · rw [List.length_drop]
          omega
      · exact short leaves (by omega)

theorem take_split_length (leaves : List Bytes) (large : 2 ≤ leaves.length) :
    (leaves.take (split leaves.length)).length = split leaves.length := by
  have below := split_lt leaves.length large
  rw [List.length_take]
  omega

theorem halves_nonempty (leaves : List Bytes) (large : 2 ≤ leaves.length) :
    leaves.take (split leaves.length) ≠ [] ∧ leaves.drop (split leaves.length) ≠ [] := by
  have positive := split_pos leaves.length
  have below := split_lt leaves.length large
  constructor <;> apply List.ne_nil_of_length_pos
  · rw [take_split_length leaves large]
    exact positive
  · rw [List.length_drop]
    omega

theorem tree_of_leaves (leaves : List Bytes) (nonempty : leaves ≠ []) :
    HashTree.leaves (treeOf leaves) = leaves := by
  induction leaves using halves_induction with
  | short leaves short =>
      cases leaves with
      | nil => exact absurd rfl nonempty
      | cons leaf rest =>
          have single : rest = [] := List.eq_nil_of_length_eq_zero (by rw [List.length_cons] at short; omega)
          rw [tree_of_short _ short, single]
          rfl
  | halves leaves large ihTake ihDrop =>
      obtain ⟨first, second⟩ := halves_nonempty leaves large
      rw [tree_of_split leaves large, HashTree.leaves, ihTake first, ihDrop second, List.take_append_drop]

theorem tree_of_size (leaves : List Bytes) (nonempty : leaves ≠ []) :
    size (treeOf leaves) = leaves.length := by
  rw [size, tree_of_leaves leaves nonempty]

theorem tree_of_root (leaves : List Bytes) (nonempty : leaves ≠ []) :
    root (nodeHash h) (treeOf leaves) = merkleRoot h leaves := by
  induction leaves using halves_induction with
  | short leaves short =>
      rw [tree_of_short leaves short, merkle_root_short h leaves short]
      cases leaves with
      | nil => exact absurd rfl nonempty
      | cons leaf rest => rfl
  | halves leaves large ihTake ihDrop =>
      obtain ⟨first, second⟩ := halves_nonempty leaves large
      rw [tree_of_split leaves large, merkle_root_split h leaves large, root, ihTake first, ihDrop second]

theorem tree_of_same_shape (a b : List Bytes) (same : a.length = b.length) :
    SameShape (treeOf a) (treeOf b) := by
  induction a using halves_induction generalizing b with
  | short a short =>
      rw [tree_of_short a short, tree_of_short b (by omega)]
      trivial
  | halves a large ihTake ihDrop =>
      rw [tree_of_split a large, tree_of_split b (by omega), ← same]
      exact ⟨ihTake _ (by simp [same]), ihDrop _ (by simp [same])⟩

theorem tree_of_sides (leaves : List Bytes) (index : Nat) :
    sides (treeOf leaves) index = collectSides index leaves.length := by
  induction leaves using halves_induction generalizing index with
  | short leaves short => rw [tree_of_short leaves short, collectSides, if_pos short, sides]
  | halves leaves large ihTake ihDrop =>
      rw [tree_of_split leaves large, collectSides, if_neg (by omega), sides,
        tree_of_size _ (halves_nonempty leaves large).1, take_split_length leaves large, ihTake, ihDrop,
        take_split_length leaves large, List.length_drop]

theorem tree_of_opening (leaves : List Bytes) (index : Nat) :
    opening (nodeHash h) (treeOf leaves) index = walk h leaves index := by
  induction leaves using halves_induction generalizing index with
  | short leaves short => rw [tree_of_short leaves short, walk, if_pos short, opening]
  | halves leaves large ihTake ihDrop =>
      obtain ⟨first, second⟩ := halves_nonempty leaves large
      rw [tree_of_split leaves large, walk, if_neg (by omega), opening, tree_of_size _ first,
        take_split_length leaves large, ihTake, ihDrop, tree_of_root h _ first, tree_of_root h _ second]

-- The byte strings hashed in computing a root and in climbing a proof.
def pairInput (pair : Bytes × Bytes) : Bytes := 1 :: (pair.1 ++ pair.2)

def rootInputs (leaves : List Bytes) : List Bytes := (joins (nodeHash h) (treeOf leaves)).map pairInput

def climbInputs (leaf : Bytes) (proof : List InclusionStep) : List Bytes :=
  (climbJoins (nodeHash h) leaf proof).map pairInput

theorem merkle_root_length (leaves : List Bytes) (widths : ∀ leaf ∈ leaves, leaf.length = 32) :
    (merkleRoot h leaves).length = 32 := by
  by_cases large : 2 ≤ leaves.length
  · rw [merkle_root_split h leaves large]
    exact h.digest_length _
  · rw [merkle_root_short h leaves (by omega)]
    cases leaves with
    | nil => exact h.digest_length _
    | cons leaf rest => exact widths leaf (by simp)

theorem joins_widths (leaves : List Bytes) (nonempty : leaves ≠ [])
    (widths : ∀ leaf ∈ leaves, leaf.length = 32) :
    ∀ pair ∈ joins (nodeHash h) (treeOf leaves), pair.1.length = 32 ∧ pair.2.length = 32 := by
  induction leaves using halves_induction with
  | short leaves short =>
      rw [tree_of_short leaves short]
      simp [joins]
  | halves leaves large ihTake ihDrop =>
      obtain ⟨first, second⟩ := halves_nonempty leaves large
      have lefts : ∀ leaf ∈ leaves.take (split leaves.length), leaf.length = 32 :=
        fun leaf member => widths leaf (List.mem_of_mem_take member)
      have rights : ∀ leaf ∈ leaves.drop (split leaves.length), leaf.length = 32 :=
        fun leaf member => widths leaf (List.mem_of_mem_drop member)
      intro pair member
      rw [tree_of_split leaves large, joins, tree_of_root h _ first, tree_of_root h _ second] at member
      rcases List.mem_cons.mp member with rfl | inside
      · exact ⟨merkle_root_length h _ lefts, merkle_root_length h _ rights⟩
      · rcases List.mem_append.mp inside with left | right
        · exact ihTake first lefts pair left
        · exact ihDrop second rights pair right

theorem pair_input_injective (a b : Bytes × Bytes) (left : a.1.length = 32) (right : a.2.length = 32)
    (half : b.1.length = 32 ∨ b.2.length = 32) (same : pairInput a = pairInput b) : a = b := by
  have bytes : a.1 ++ a.2 = b.1 ++ b.2 := (List.cons.inj same).2
  have total := congrArg List.length bytes
  rw [List.length_append, List.length_append] at total
  obtain ⟨firsts, seconds⟩ := List.append_inj bytes (by omega)
  exact Prod.ext firsts seconds

theorem node_no_collision (left right : List (Bytes × Bytes))
    (whole : ∀ pair ∈ left, pair.1.length = 32 ∧ pair.2.length = 32)
    (half : ∀ pair ∈ right, pair.1.length = 32 ∨ pair.2.length = 32)
    (free : CollisionFree h (left.map pairInput ++ right.map pairInput)) :
    NoCollision (nodeHash h) left right := by
  intro p first q second same
  obtain ⟨pLeft, pRight⟩ := whole p first
  refine pair_input_injective p q pLeft pRight (half q second) (free _ ?_ _ ?_ same)
  · exact List.mem_append_left _ (List.mem_map_of_mem first)
  · exact List.mem_append_right _ (List.mem_map_of_mem second)

theorem merkle_root_binds (a b : List Bytes) (same : a.length = b.length)
    (left : ∀ leaf ∈ a, leaf.length = 32) (right : ∀ leaf ∈ b, leaf.length = 32)
    (free : CollisionFree h (rootInputs h a ++ rootInputs h b))
    (roots : merkleRoot h a = merkleRoot h b) : a = b := by
  by_cases empty : a = []
  · rw [empty] at same ⊢
    exact (List.eq_nil_of_length_eq_zero same.symm).symm
  · have otherwise : b ≠ [] := fun none => empty (List.eq_nil_of_length_eq_zero (by rw [same, none]; rfl))
    have apart := node_no_collision h _ _ (joins_widths h a empty left)
      (fun pair member => .inl (joins_widths h b otherwise right pair member).1) free
    rw [← tree_of_root h a empty, ← tree_of_root h b otherwise] at roots
    have trees := root_binds (nodeHash h) (treeOf a) (treeOf b) (tree_of_same_shape a b same) apart roots
    rw [← tree_of_leaves a empty, ← tree_of_leaves b otherwise, trees]

theorem replay_iff (leaf found : Bytes) (proof : List InclusionStep) (sides : List Side) :
    replay h leaf proof sides = some found ↔
      proof.map Sibling.side = sides ∧ (∀ step ∈ proof, step.hash.length = 32) ∧
      climb (nodeHash h) leaf proof = found := by
  induction proof generalizing leaf sides with
  | nil => cases sides <;> simp [replay, climb]
  | cons first rest ih =>
      cases sides with
      | nil => simp [replay]
      | cons side others =>
          obtain ⟨stands, hash⟩ := first
          by_cases refused : hash.length ≠ 32 ∨ stands ≠ side
          · rw [replay, if_pos refused]
            simp only [List.map_cons, List.cons.injEq, List.forall_mem_cons]
            constructor
            · intro absent
              cases absent
            · rintro ⟨⟨agrees, _⟩, ⟨width, _⟩, _⟩
              exact absurd refused (by simp [agrees, width])
          · obtain ⟨width, agrees⟩ : hash.length = 32 ∧ stands = side := by simpa [not_or] using refused
            subst agrees
            rw [replay, if_neg refused]
            cases stands <;> simp [ih, climb, step, width]

theorem climb_joins_half (leaf : Bytes) (proof : List InclusionStep)
    (widths : ∀ step ∈ proof, step.hash.length = 32) :
    ∀ pair ∈ climbJoins (nodeHash h) leaf proof, pair.1.length = 32 ∨ pair.2.length = 32 := by
  induction proof generalizing leaf with
  | nil => simp [climbJoins]
  | cons first rest ih =>
      obtain ⟨side, hash⟩ := first
      have width : hash.length = 32 := widths ⟨side, hash⟩ (by simp)
      intro pair member
      rcases List.mem_cons.mp member with rfl | inside
      · cases side
        · exact .inl width
        · exact .inr width
      · exact ih _ (fun step later => widths step (by simp [later])) pair inside

theorem inclusion_pins (leaves : List Bytes) (widths : ∀ leaf ∈ leaves, leaf.length = 32) (leaf : Bytes)
    (index : Int) (proof : List InclusionStep)
    (free : CollisionFree h (rootInputs h leaves ++ climbInputs h leaf proof))
    (accepted : verifyInclusion h leaf index leaves.length proof (merkleRoot h leaves) = true) :
    0 ≤ index ∧ leaves[index.toNat]? = some leaf ∧ inclusionProof h leaves index.toNat = some proof := by
  unfold verifyInclusion at accepted
  split at accepted
  · rename_i range
    dsimp only at accepted
    split at accepted
    · cases accepted
    · have inside : index.toNat < leaves.length := by omega
      have nonempty : leaves ≠ [] := List.ne_nil_of_length_pos (by omega)
      have replayed : replay h leaf proof (collectSides index.toNat leaves.length) =
          some (merkleRoot h leaves) := by
        simpa using accepted
      obtain ⟨shape, steps, reached⟩ := (replay_iff h leaf _ proof _).mp replayed
      have apart := node_no_collision h _ _ (joins_widths h leaves nonempty widths)
        (climb_joins_half h leaf proof steps)
        free
      rw [← tree_of_sides] at shape
      rw [← tree_of_root h leaves nonempty] at reached
      obtain ⟨found, route⟩ := climb_pins (nodeHash h) (treeOf leaves) index.toNat leaf proof
        (by rw [tree_of_size leaves nonempty]; exact inside) shape apart reached
      rw [tree_of_leaves leaves nonempty] at found
      rw [tree_of_opening] at route
      rw [inclusionProof, if_pos inside, ← route]
      exact ⟨range.1, found, rfl⟩
  · cases accepted

theorem walk_widths (leaves : List Bytes) (index : Nat) (widths : ∀ leaf ∈ leaves, leaf.length = 32) :
    ∀ step ∈ walk h leaves index, step.hash.length = 32 := by
  induction leaves using halves_induction generalizing index with
  | short leaves short =>
      rw [walk, if_pos short]
      simp
  | halves leaves large ihTake ihDrop =>
      have lefts : ∀ leaf ∈ leaves.take (split leaves.length), leaf.length = 32 :=
        fun leaf member => widths leaf (List.mem_of_mem_take member)
      have rights : ∀ leaf ∈ leaves.drop (split leaves.length), leaf.length = 32 :=
        fun leaf member => widths leaf (List.mem_of_mem_drop member)
      rw [walk, if_neg (by omega)]
      dsimp only
      split
      · intro step member
        rcases List.mem_append.mp member with inside | last
        · exact ihTake _ lefts step inside
        · rw [List.mem_singleton.mp last]
          exact merkle_root_length h _ rights
      · intro step member
        rcases List.mem_append.mp member with inside | last
        · exact ihDrop _ rights step inside
        · rw [List.mem_singleton.mp last]
          exact merkle_root_length h _ lefts

theorem inclusion_accepts (leaves : List Bytes) (widths : ∀ leaf ∈ leaves, leaf.length = 32) (index : Nat)
    (leaf : Bytes) (found : leaves[index]? = some leaf) :
    verifyInclusion h leaf index leaves.length (walk h leaves index) (merkleRoot h leaves) = true := by
  obtain ⟨inside, _⟩ := List.getElem?_eq_some_iff.mp found
  have nonempty : leaves ≠ [] := List.ne_nil_of_length_pos (by omega)
  have shape : (walk h leaves index).map Sibling.side = collectSides index leaves.length := by
    rw [← tree_of_opening, opening_sides, tree_of_sides]
  have reached : climb (nodeHash h) leaf (walk h leaves index) = merkleRoot h leaves := by
    rw [← tree_of_opening, ← tree_of_root h leaves nonempty]
    apply climb_opening
    rw [tree_of_leaves leaves nonempty]
    exact found
  have replayed := (replay_iff h leaf _ _ _).mpr ⟨shape, walk_widths h leaves index widths, reached⟩
  have counts : (walk h leaves index).length = (collectSides index leaves.length).length := by
    rw [← shape, List.length_map]
  unfold verifyInclusion
  rw [if_pos ⟨by omega, by omega⟩]
  simp [counts, replayed]

end CalibrationLedger
