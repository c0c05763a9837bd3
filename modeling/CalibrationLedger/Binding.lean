import CalibrationLedger.Consistency
import CalibrationLedger.Library.Sha256

set_option autoImplicit false

-- What an accepted proof and a root say about the leaves under the root.
namespace CalibrationLedger

open Digest HashTree

def sampleLeaves : List Bytes := [List.replicate 32 1, List.replicate 32 2]

theorem sample_leaves_width : ∀ leaf ∈ sampleLeaves, leaf.length = 32 := by decide

theorem sample_root_inputs :
    rootInputs sha256 sampleLeaves = [pairInput (List.replicate 32 1, List.replicate 32 2)] := by
  rw [rootInputs, tree_of_split _ (by decide), show split sampleLeaves.length = 1 from by decide,
    tree_of_short _ (by decide), tree_of_short _ (by decide)]
  rfl

theorem twice_collision_free (input : Bytes) : CollisionFree sha256 [input, input] := by
  intro a left b right _
  simp only [List.mem_cons, List.not_mem_nil, or_false, or_self] at left right
  rw [left, right]

section

variable (h : HashFunction)

-- Two walks over the same sizes that end in one root took in the same hashes.
theorem lockstep (honest shown : List Bytes) (a b last final : Walk) (fn : a.fn = b.fn) (sn : a.sn = b.sn)
    (first : honest.foldlM (advance h) a = some last) (second : shown.foldlM (advance h) b = some final)
    (lastEnds : last.sn = 0) (finalEnds : final.sn = 0) (roots : last.newHash = final.newHash)
    (apart : NoCollision (nodeHash h) (walkJoins h a honest) (walkJoins h b shown)) :
    honest = shown ∧ a.newHash = b.newHash := by
  induction honest generalizing shown a b with
  | nil =>
      cases first
      cases shown with
      | nil =>
          cases second
          exact ⟨rfl, roots⟩
      | cons item rest =>
          rw [List.foldlM_cons] at second
          obtain ⟨next, moved, _⟩ := Option.bind_eq_some_iff.mp second
          exact absurd (sn.symm.trans lastEnds) (advance_new h b next item moved).1
  | cons item rest ih =>
      rw [List.foldlM_cons] at first
      obtain ⟨next, moved, later⟩ := Option.bind_eq_some_iff.mp first
      obtain ⟨running, joined⟩ := advance_new h a next item moved
      cases shown with
      | nil =>
          cases second
          exact absurd (sn.trans finalEnds) running
      | cons other others =>
          rw [List.foldlM_cons] at second
          obtain ⟨after, stepped, onward⟩ := Option.bind_eq_some_iff.mp second
          obtain ⟨_, otherJoined⟩ := advance_new h b after other stepped
          rw [walkJoins, walkJoins, moved, stepped] at apart
          obtain ⟨fns, sns⟩ := advance_sizes h a b next after item other fn sn moved stepped
          obtain ⟨same, hashes⟩ := ih others next after fns sns later onward
            (no_collision_subset (nodeHash h) _ _ _ _ (fun p => List.mem_cons_of_mem _)
              (fun q => List.mem_cons_of_mem _)
              apart)
          have pairs := apart _ List.mem_cons_self _ List.mem_cons_self
            (by rw [← joined, ← otherJoined, hashes])
          obtain ⟨items, starts⟩ := pair_pins a b item other fn sn pairs
          exact ⟨by rw [items, same], starts⟩

-- Where the verifier starts on a proof, and what it then hashes on the way to the
-- new root.
def startWith (oldSize newSize : Nat) (oldRoot : Bytes) (proof : List Bytes) : Option (Walk × List Bytes) :=
  let stripped := stripOnes (oldSize - 1) (newSize - 1)
  if stripped.1 = 0 then some (⟨stripped.1, stripped.2, oldRoot, oldRoot⟩, proof)
  else
    match proof with
    | [] => none
    | first :: rest => some (⟨stripped.1, stripped.2, first, first⟩, rest)

def consistencyInputs (oldSize newSize : Nat) (oldRoot : Bytes) (proof : List Bytes) : List Bytes :=
  if oldSize < newSize then
    match startWith oldSize newSize oldRoot proof with
    | none => []
    | some (walk, items) => (walkJoins h walk items).map pairInput
  else []

-- What the verifier has seen of a proof between two different sizes.
theorem verify_consistency_walks (oldSize newSize : Nat) (oldRoot newRoot : Bytes) (proof : List Bytes)
    (positive : 0 < oldSize) (part : oldSize < newSize)
    (accepted : verifyConsistency h oldSize newSize oldRoot newRoot proof = true) :
    (∀ item ∈ proof, item.length = 32) ∧
    ∃ walk items final, startWith oldSize newSize oldRoot proof = some (walk, items) ∧
      items.foldlM (advance h) walk = some final ∧ final.sn = 0 ∧ final.oldHash = oldRoot ∧
      final.newHash = newRoot := by
  have oldIndex : ((oldSize : Int).toNat - 1) = oldSize - 1 := by omega
  have newIndex : ((newSize : Int).toNat - 1) = newSize - 1 := by omega
  unfold verifyConsistency at accepted
  rw [if_neg (by omega), if_neg (by omega), oldIndex, newIndex] at accepted
  split at accepted
  · cases accepted
  · rename_i wide
    refine ⟨by simpa using wide, ?_⟩
    unfold startWith
    dsimp only at accepted ⊢
    by_cases leftmost : (stripOnes (oldSize - 1) (newSize - 1)).1 = 0
    · rw [if_pos leftmost] at accepted ⊢
      dsimp only at accepted
      split at accepted
      · cases accepted
      · rename_i final finished
        obtain ⟨⟨ended, old⟩, new⟩ : (final.sn = 0 ∧ final.oldHash = oldRoot) ∧ final.newHash = newRoot := by
          simpa [Bool.and_eq_true] using accepted
        exact ⟨_, _, final, rfl, finished, ended, old, new⟩
    · rw [if_neg leftmost] at accepted ⊢
      cases proof with
      | nil => cases accepted
      | cons first rest =>
          dsimp only at accepted ⊢
          split at accepted
          · cases accepted
          · rename_i final finished
            obtain ⟨⟨ended, old⟩, new⟩ : (final.sn = 0 ∧ final.oldHash = oldRoot) ∧
                final.newHash = newRoot := by
              simpa [Bool.and_eq_true] using accepted
            exact ⟨_, _, final, rfl, finished, ended, old, new⟩

theorem start_honest (m : Nat) (leaves : List Bytes) (positive : 0 < m) (part : m < leaves.length) :
    startWith m leaves.length (merkleRoot h (leaves.take m)) (subproof h m leaves true) =
      some (startOf h m leaves, siblings h m leaves) := by
  unfold startWith
  rw [subproof_complete h m leaves positive part]
  by_cases leftmost : (stripOnes (m - 1) (leaves.length - 1)).1 = 0
  · have base := anchor_complete h m leaves positive part leftmost
    simp only [if_pos leftmost]
    rw [startOf, base]
  · simp only [if_neg leftmost]
    rw [startOf]

theorem walk_joins_half (walk : Walk) (items : List Bytes) (widths : ∀ item ∈ items, item.length = 32) :
    ∀ pair ∈ walkJoins h walk items, pair.1.length = 32 ∨ pair.2.length = 32 := by
  induction items generalizing walk with
  | nil => simp [walkJoins]
  | cons item rest ih =>
      intro pair member
      rw [walkJoins] at member
      rcases List.mem_cons.mp member with rfl | later
      · rw [pairOf]
        split
        · exact .inl (widths item List.mem_cons_self)
        · exact .inr (widths item List.mem_cons_self)
      · split at later
        · exact ih _ (fun other inside => widths other (List.mem_cons_of_mem _ inside)) pair later
        · cases later

-- A start determines the old root it was made with, or the proof does.
theorem start_pins (m newSize : Nat) (oldRoot other : Bytes) (proof shown : List Bytes) (a b : Walk)
    (items : List Bytes) (first : startWith m newSize oldRoot proof = some (a, items))
    (second : startWith m newSize other shown = some (b, items)) (same : a.newHash = b.newHash) :
    a = b ∧ proof = shown := by
  unfold startWith at first second
  dsimp only at first second
  by_cases leftmost : (stripOnes (m - 1) (newSize - 1)).1 = 0
  · rw [if_pos leftmost] at first second
    cases first
    cases second
    exact ⟨by rw [show oldRoot = other from same], rfl⟩
  · rw [if_neg leftmost] at first second
    cases proof with
    | nil => cases first
    | cons one rest =>
        cases shown with
        | nil => cases second
        | cons two others =>
            cases first
            cases second
            have equal : one = two := same
            exact ⟨by rw [equal], by rw [equal]⟩

theorem start_sizes (m newSize : Nat) (oldRoot other : Bytes) (proof shown : List Bytes) (a b : Walk)
    (items others : List Bytes) (first : startWith m newSize oldRoot proof = some (a, items))
    (second : startWith m newSize other shown = some (b, others)) : a.fn = b.fn ∧ a.sn = b.sn := by
  unfold startWith at first second
  dsimp only at first second
  split at first
  · rename_i leftmost
    rw [if_pos leftmost] at second
    cases first
    cases second
    exact ⟨rfl, rfl⟩
  · rename_i inner
    rw [if_neg inner] at second
    cases proof with
    | nil => cases first
    | cons one rest =>
        cases shown with
        | nil => cases second
        | cons two others =>
            cases first
            cases second
            exact ⟨rfl, rfl⟩

theorem start_items (m newSize : Nat) (oldRoot : Bytes) (proof : List Bytes) (walk : Walk)
    (items : List Bytes) (starts : startWith m newSize oldRoot proof = some (walk, items)) :
    ∀ item ∈ items, item ∈ proof := by
  unfold startWith at starts
  dsimp only at starts
  split at starts
  · cases starts
    exact fun item member => member
  · cases proof with
    | nil => cases starts
    | cons first rest =>
        cases starts
        exact fun item member => List.mem_cons_of_mem _ member

-- A consistency proof accepted against the root of these leaves is the one the source
-- builds for them, and the old root is that of their first part.
theorem accepted_consistency_is_built (leaves : List Bytes) (widths : ∀ leaf ∈ leaves, leaf.length = 32)
    (oldSize : Int) (oldRoot : Bytes) (proof : List Bytes)
    (free : CollisionFree h
      (rootInputs h leaves ++ consistencyInputs h oldSize.toNat leaves.length oldRoot proof))
    (accepted : verifyConsistency h oldSize leaves.length oldRoot (merkleRoot h leaves) proof = true) :
    1 ≤ oldSize ∧ oldSize ≤ leaves.length ∧ oldRoot = merkleRoot h (leaves.take oldSize.toNat) ∧
      consistencyProof h leaves oldSize.toNat = some proof := by
  have range : 1 ≤ oldSize ∧ oldSize ≤ leaves.length := by
    by_contra outside
    unfold verifyConsistency at accepted
    rw [if_pos (by omega)] at accepted
    cases accepted
  obtain ⟨m, rfl⟩ := Int.eq_ofNat_of_zero_le (by omega : 0 ≤ oldSize)
  have positive : 0 < m := by omega
  rw [Int.toNat_natCast] at free ⊢
  refine ⟨range.1, range.2, ?_⟩
  by_cases whole : m = leaves.length
  · unfold verifyConsistency at accepted
    rw [if_neg (by omega), if_pos (by omega)] at accepted
    obtain ⟨empty, roots⟩ : proof = [] ∧
      oldRoot = merkleRoot h leaves := by simpa [Bool.and_eq_true] using accepted
    rw [consistencyProof, if_neg (by omega), if_pos whole, empty, whole, List.take_length]
    exact ⟨roots, rfl⟩
  · have part : m < leaves.length := by omega
    have nonempty : leaves ≠ [] := List.ne_nil_of_length_pos (by omega)
    obtain ⟨wide, walk, items, final, starts, finished, ended, old, new⟩ :=
      verify_consistency_walks h m leaves.length oldRoot _ proof positive part accepted
    have honest := start_honest h m leaves positive part
    obtain ⟨reached, inside⟩ := siblings_reach h m leaves positive part
    obtain ⟨fns, sns⟩ := start_sizes m leaves.length _ _ _ _ _ _ _ _ honest starts
    have inputs : consistencyInputs h m leaves.length oldRoot proof =
        (walkJoins h walk items).map pairInput := by
      rw [consistencyInputs, if_pos part, starts]
    rw [inputs] at free
    have apart : NoCollision (nodeHash h) (walkJoins h (startOf h m leaves) (siblings h m leaves))
        (walkJoins h walk items) := by
      refine no_collision_subset (nodeHash h) _ _ _ _ inside (fun q member => member) ?_
      exact node_no_collision h _ _ (joins_widths h leaves nonempty widths)
        (walk_joins_half h walk items fun item member =>
          wide item (start_items m _ _ _ _ _ starts item member)) free
    obtain ⟨same, hashes⟩ :=
      lockstep h (siblings h m leaves) items (startOf h m leaves) walk _ final fns sns reached
      finished rfl ended new.symm apart
    subst same
    obtain ⟨rfl, rfl⟩ := start_pins m leaves.length _ _ _ _ _ _ _ honest starts hashes
    rw [reached] at finished
    cases finished
    rw [consistencyProof, if_neg (by omega), if_neg whole]
    exact ⟨old.symm, rfl⟩

theorem sample_consistency_built :
    [List.replicate 32 1] = sampleLeaves.take 1 ∧
      consistencyProof sha256 sampleLeaves (1 : Int).toNat = some [List.replicate 32 2] := by
  have first : merkleRoot sha256 (sampleLeaves.take 1) = List.replicate 32 1 :=
    merkle_root_short _ _ (by decide)
  have second : merkleRoot sha256 (sampleLeaves.drop 1) = List.replicate 32 2 :=
    merkle_root_short _ _ (by decide)
  have walked : subproof sha256 1 sampleLeaves true = [List.replicate 32 2] := by
    rw [subproof, if_neg (by decide), if_neg (by decide)]
    dsimp only
    rw [show split sampleLeaves.length = 1 from by decide, if_pos (by decide), subproof,
      if_pos (by decide), if_pos rfl, second]
    rfl
  have built : consistencyProof sha256 sampleLeaves 1 = some [List.replicate 32 2] := by
    rw [consistencyProof, if_neg (by decide), if_neg (by decide), walked]
  have accepted := consistency_accepts sha256 sampleLeaves sample_leaves_width 1 _ built
  rw [first] at accepted
  have inputs : consistencyInputs sha256 1 2 (List.replicate 32 1) [List.replicate 32 2] =
      [pairInput (List.replicate 32 1, List.replicate 32 2)] := by
    have stripped : stripOnes 0 1 = (0, 1) := strip_ones_even 0 1 (by decide)
    simp [consistencyInputs, startWith, stripped, walkJoins, pairOf, advance]
  exact ⟨rfl, (accepted_consistency_is_built sha256 sampleLeaves sample_leaves_width 1 _ _
    (by
      rw [sample_root_inputs]
      show CollisionFree sha256 (_ ++ consistencyInputs sha256 1 2 _ _)
      rw [inputs]
      exact twice_collision_free _) accepted).2.2.2⟩

theorem built_consistency_is_accepted (leaves : List Bytes) (widths : ∀ leaf ∈ leaves, leaf.length = 32)
    (oldSize : Nat) (positive : 1 ≤ oldSize) (within : oldSize ≤ leaves.length) :
    ∃ proof, consistencyProof h leaves oldSize = some proof ∧
      verifyConsistency h oldSize leaves.length (merkleRoot h (leaves.take oldSize))
        (merkleRoot h leaves) proof = true := by
  obtain ⟨proof, built⟩ : ∃ proof, consistencyProof h leaves oldSize = some proof := by
    rw [consistencyProof, if_neg (by omega)]
    split
    · exact ⟨_, rfl⟩
    · exact ⟨_, rfl⟩
  exact ⟨proof, built, consistency_accepts h leaves widths oldSize proof built⟩

theorem sample_consistency_accepted : ∃ proof, consistencyProof sha256 sampleLeaves 1 = some proof ∧
    verifyConsistency sha256 (1 : Nat) sampleLeaves.length (merkleRoot sha256 (sampleLeaves.take 1))
      (merkleRoot sha256 sampleLeaves) proof = true :=
  built_consistency_is_accepted sha256 sampleLeaves sample_leaves_width 1 (by decide) (by decide)

-- An inclusion proof accepted against the root of these leaves is the one the source
-- builds for its leaf.
theorem accepted_inclusion_is_built (leaves : List Bytes) (widths : ∀ leaf ∈ leaves, leaf.length = 32)
    (leaf : Bytes) (index : Int) (proof : List InclusionStep)
    (free : CollisionFree h (rootInputs h leaves ++ climbInputs h leaf proof))
    (accepted : verifyInclusion h leaf index leaves.length proof (merkleRoot h leaves) = true) :
    0 ≤ index ∧ index < leaves.length ∧ leaves[index.toNat]? = some leaf ∧
      inclusionProof h leaves index.toNat = some proof := by
  obtain ⟨positive, found, built⟩ := inclusion_pins h leaves widths leaf index proof free accepted
  obtain ⟨inside, _⟩ := List.getElem?_eq_some_iff.mp found
  exact ⟨positive, by omega, found, built⟩

theorem sample_inclusion_built : sampleLeaves[(1 : Int).toNat]? = some (List.replicate 32 2) ∧
    inclusionProof sha256 sampleLeaves (1 : Int).toNat = some [⟨.left, List.replicate 32 1⟩] := by
  have walked : walk sha256 sampleLeaves 1 = [⟨.left, List.replicate 32 1⟩] := by
    rw [walk, if_neg (by decide)]
    dsimp only
    rw [show split sampleLeaves.length = 1 from by decide, if_neg (by decide), walk, if_pos (by decide),
      merkle_root_short _ _ (by decide)]
    rfl
  have accepted :=
    inclusion_accepts sha256 sampleLeaves sample_leaves_width 1 (List.replicate 32 2) (by decide)
  rw [walked] at accepted
  exact (accepted_inclusion_is_built sha256 sampleLeaves sample_leaves_width _ 1 _
    (by rw [sample_root_inputs]; exact twice_collision_free _) accepted).2.2

theorem built_inclusion_is_accepted (leaves : List Bytes) (widths : ∀ leaf ∈ leaves, leaf.length = 32)
    (index : Nat) (inside : index < leaves.length) :
    ∃ proof, inclusionProof h leaves index = some proof ∧
      verifyInclusion h leaves[index] index leaves.length proof (merkleRoot h leaves) = true :=
  ⟨_, by rw [inclusionProof, if_pos inside],
    inclusion_accepts h leaves widths index leaves[index] (List.getElem?_eq_getElem inside)⟩

theorem sample_inclusion_accepted : ∃ proof, inclusionProof sha256 sampleLeaves 1 = some proof ∧
    verifyInclusion sha256 sampleLeaves[1] (1 : Nat) sampleLeaves.length proof
      (merkleRoot sha256 sampleLeaves) = true :=
  built_inclusion_is_accepted sha256 sampleLeaves sample_leaves_width 1 (by decide)

theorem root_inputs_split (leaves : List Bytes) (large : 2 ≤ leaves.length) :
    rootInputs h leaves =
      pairInput (merkleRoot h (leaves.take (split leaves.length)),
        merkleRoot h (leaves.drop (split leaves.length))) ::
      (rootInputs h (leaves.take (split leaves.length)) ++
        rootInputs h (leaves.drop (split leaves.length))) := by
  obtain ⟨first, second⟩ := halves_nonempty leaves large
  rw [rootInputs, tree_of_split leaves large, joins, tree_of_root h _ first, tree_of_root h _ second,
    List.map_cons,
    List.map_append]
  rfl

-- The byte strings hashed in computing the root of a history from its entries.
def entryInputs (entries : List Bytes) : List Bytes :=
  entries.map (fun data => 0 :: data) ++ rootInputs h (entries.map (leafHash h))

def historyInputs (entries : List Bytes) : List Bytes := if entries = [] then [[]] else entryInputs h entries

def historyRoot (entries : List Bytes) : Bytes := merkleRoot h (entries.map (leafHash h))

theorem entry_leaves_width (entries : List Bytes) : ∀ leaf ∈ entries.map (leafHash h), leaf.length = 32 := by
  intro leaf member
  obtain ⟨data, _, rfl⟩ := List.mem_map.mp member
  exact h.digest_length _

theorem entry_inputs_halves (entries : List Bytes) (large : 2 ≤ entries.length) :
    (∀ data ∈ entryInputs h (entries.take (split entries.length)), data ∈ entryInputs h entries) ∧
      ∀ data ∈ entryInputs h (entries.drop (split entries.length)), data ∈ entryInputs h entries := by
  have roots := root_inputs_split h (entries.map (leafHash h)) (by rw [List.length_map]; exact large)
  rw [List.length_map, ← List.map_take, ← List.map_drop] at roots
  constructor <;> intro data member <;> rcases List.mem_append.mp member with leaf | inner
  · obtain ⟨entry, inside, rfl⟩ := List.mem_map.mp leaf
    exact List.mem_append_left _ (List.mem_map_of_mem (f := fun data => 0 :: data)
        (List.mem_of_mem_take inside))
  · refine List.mem_append_right _ ?_
    rw [roots]
    exact List.mem_cons_of_mem _ (List.mem_append_left _ inner)
  · obtain ⟨entry, inside, rfl⟩ := List.mem_map.mp leaf
    exact List.mem_append_left _ (List.mem_map_of_mem (f := fun data => 0 :: data)
        (List.mem_of_mem_drop inside))
  · refine List.mem_append_right _ ?_
    rw [roots]
    exact List.mem_cons_of_mem _ (List.mem_append_right _ inner)

-- The last string hashed for a root: a tagged entry, or a tagged pair of roots.
theorem history_root_single (data : Bytes) :
    historyRoot h [data] = h.digest (0 :: data) ∧ (0 :: data) ∈ entryInputs h [data] := by
  refine ⟨?_, List.mem_append_left _ List.mem_cons_self⟩
  rw [historyRoot, List.map_singleton, merkle_root_short h _ (by simp)]
  rfl

theorem history_root_split (entries : List Bytes) (large : 2 ≤ entries.length) :
    historyRoot h entries = h.digest (pairInput (historyRoot h (entries.take (split entries.length)),
        historyRoot h (entries.drop (split entries.length)))) ∧
      pairInput (historyRoot h (entries.take (split entries.length)),
          historyRoot h (entries.drop (split entries.length))) ∈
        entryInputs h entries := by
  have width : (entries.map (leafHash h)).length = entries.length := List.length_map _
  have roots := root_inputs_split h (entries.map (leafHash h)) (by rw [width]; exact large)
  have whole := merkle_root_split h (entries.map (leafHash h)) (by rw [width]; exact large)
  rw [width, ← List.map_take, ← List.map_drop] at roots whole
  refine ⟨whole, List.mem_append_right _ ?_⟩
  rw [roots]
  exact List.mem_cons_self

theorem history_root_length (entries : List Bytes) : (historyRoot h entries).length = 32 :=
  merkle_root_length h _ (entry_leaves_width h entries)

theorem single_of_short (entries : List Bytes) (nonempty : entries ≠ []) (short : entries.length < 2) :
    ∃ data, entries = [data] := by
  cases entries with
  | nil => exact absurd rfl nonempty
  | cons data rest =>
      have none : rest = [] := List.eq_nil_of_length_eq_zero (by rw [List.length_cons] at short; omega)
      exact ⟨data, by rw [none]⟩

-- The tags keep entries apart from pairs at every level, so the two trees are cut
-- alike whatever the lengths are.
theorem entries_bind (a b : List Bytes) (left : a ≠ []) (right : b ≠ [])
    (free : CollisionFree h (entryInputs h a ++ entryInputs h b))
    (same : historyRoot h a = historyRoot h b) : a = b := by
  induction a using halves_induction generalizing b with
  | short a short =>
      obtain ⟨data, rfl⟩ := single_of_short a left short
      obtain ⟨root, hashed⟩ := history_root_single h data
      by_cases large : 2 ≤ b.length
      · obtain ⟨otherRoot, otherHashed⟩ := history_root_split h b large
        rw [root, otherRoot] at same
        cases free _ (List.mem_append_left _ hashed) _ (List.mem_append_right _ otherHashed) same
      · obtain ⟨other, rfl⟩ := single_of_short b right (by omega)
        obtain ⟨otherRoot, otherHashed⟩ := history_root_single h other
        rw [root, otherRoot] at same
        cases free _ (List.mem_append_left _ hashed) _ (List.mem_append_right _ otherHashed) same
        rfl
  | halves a large ihTake ihDrop =>
      obtain ⟨root, hashed⟩ := history_root_split h a large
      by_cases also : 2 ≤ b.length
      · obtain ⟨otherRoot, otherHashed⟩ := history_root_split h b also
        rw [root, otherRoot] at same
        have pairs := pair_input_injective _ _ (history_root_length h _) (history_root_length h _)
          (.inl (history_root_length h _))
          (free _ (List.mem_append_left _ hashed) _ (List.mem_append_right _ otherHashed) same)
        obtain ⟨firsts, seconds⟩ := Prod.mk.inj pairs
        obtain ⟨first, second⟩ := halves_nonempty a large
        obtain ⟨third, fourth⟩ := halves_nonempty b also
        obtain ⟨inTake, inDrop⟩ := entry_inputs_halves h a large
        obtain ⟨otherTake, otherDrop⟩ := entry_inputs_halves h b also
        have takes := ihTake _ first third (collision_free_subset h _ _
          (fun data member => List.mem_append.mpr
            ((List.mem_append.mp member).imp (inTake data) (otherTake data))) free) firsts
        have drops := ihDrop _ second fourth (collision_free_subset h _ _
          (fun data member => List.mem_append.mpr
            ((List.mem_append.mp member).imp (inDrop data) (otherDrop data))) free) seconds
        rw [← List.take_append_drop (split a.length) a, takes, drops, List.take_append_drop]
      · obtain ⟨other, rfl⟩ := single_of_short b right (by omega)
        obtain ⟨otherRoot, otherHashed⟩ := history_root_single h other
        rw [root, otherRoot] at same
        cases free _ (List.mem_append_left _ hashed) _ (List.mem_append_right _ otherHashed) same

-- A root over something is never the empty root.
theorem history_root_tagged (entries : List Bytes) (nonempty : entries ≠ []) :
    ∃ tag rest, historyRoot h entries = h.digest (tag :: rest) ∧ (tag :: rest) ∈ entryInputs h entries := by
  by_cases large : 2 ≤ entries.length
  · exact ⟨_, _, history_root_split h entries large⟩
  · obtain ⟨data, rfl⟩ := single_of_short entries nonempty (by omega)
    exact ⟨_, _, history_root_single h data⟩

-- One root, one history, whatever the lengths.
theorem history_root_binds (a b : List Bytes)
    (free : CollisionFree h (historyInputs h a ++ historyInputs h b))
    (same : merkleRoot h (a.map (leafHash h)) = merkleRoot h (b.map (leafHash h))) : a = b := by
  have empty : historyRoot h [] = h.digest [] := by
    rw [historyRoot, List.map_nil, merkle_root_short h _ (by simp)]
    rfl
  by_cases left : a = [] <;> by_cases right : b = []
  · rw [left, right]
  · obtain ⟨tag, rest, root, hashed⟩ := history_root_tagged h b right
    rw [historyInputs, historyInputs, if_pos left, if_neg right] at free
    rw [left] at same
    cases free [] (List.mem_append_left _ List.mem_cons_self) _ (List.mem_append_right _ hashed)
      (empty.symm.trans (same.trans root))
  · obtain ⟨tag, rest, root, hashed⟩ := history_root_tagged h a left
    rw [historyInputs, historyInputs, if_neg left, if_pos right] at free
    rw [right] at same
    cases free _ (List.mem_append_left _ hashed) [] (List.mem_append_right _ List.mem_cons_self)
      (root.symm.trans (same.trans empty))
  · rw [historyInputs, historyInputs, if_neg left, if_neg right] at free
    exact entries_bind h a b left right free same

def sampleEntries : List Bytes := [[7], [8], [9]]

theorem sample_entry_inputs (rest : List Bytes) (cut : rest = [] ∨ rest = [[9]]) :
    historyInputs sha256 ([[7], [8]] ++ rest) ⊆ [[0, 7], [0, 8], [0, 9],
      pairInput (leafHash sha256 [7], leafHash sha256 [8]),
      pairInput (nodeHash sha256 (leafHash sha256 [7]) (leafHash sha256 [8]), leafHash sha256 [9])] := by
  rcases cut with rfl | rfl
  · rw [historyInputs, if_neg (by decide), entryInputs, root_inputs_split sha256 _ (by decide)]
    simp [show split 2 = 1 from by decide, rootInputs, tree_of_single, joins, merkle_root_short]
  · rw [historyInputs, if_neg (by decide), entryInputs, root_inputs_split sha256 _ (by decide)]
    simp only [List.cons_append, List.nil_append, List.map_cons, List.map_nil, List.length_cons,
      List.length_nil,
      show split (0 + 1 + 1 + 1) = 2 from by decide, List.take_succ_cons, List.take_zero,
        List.drop_succ_cons, List.drop_zero]
    rw [root_inputs_split sha256 [_, _] (by decide), merkle_root_split sha256 [_, _] (by decide)]
    simp [show split 2 = 1 from by decide, rootInputs, tree_of_single, joins, merkle_root_short]

-- Three entries, once in order and once from the back; the first two of them alone have
-- another root.
theorem sample_history_root_binds : sampleEntries = [[9], [8], [7]].reverse ∧
    merkleRoot sha256 (sampleEntries.map (leafHash sha256)) ≠
      merkleRoot sha256 ((sampleEntries.take 2).map (leafHash sha256)) := by
  have apart : CollisionFree sha256
    [[0, 7], [0, 8], [0, 9], pairInput (leafHash sha256 [7], leafHash sha256 [8]),
      pairInput (nodeHash sha256 (leafHash sha256 [7]) (leafHash sha256 [8]), leafHash sha256 [9])] :=
    fun a left b right => List.inj_on_of_nodup_map (f := sha256.digest) (by decide +kernel) left right
  have whole := sample_entry_inputs [[9]] (.inr rfl)
  have part := sample_entry_inputs [] (.inl rfl)
  refine ⟨history_root_binds
    sha256 _ _ (collision_free_subset sha256 _ _ (fun input hashed => ?_) apart) rfl, fun same => ?_⟩
  · exact whole ((List.mem_append.mp hashed).elim id id)
  · have equal := history_root_binds sha256 _ _ (collision_free_subset sha256 _ _
      (fun input hashed => (List.mem_append.mp hashed).elim (fun three => whole three) fun two =>
        part two) apart) same
    exact absurd equal (by decide)

end

end CalibrationLedger
