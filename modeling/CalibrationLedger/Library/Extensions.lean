import CalibrationLedger.Library.HashTree

set_option autoImplicit false

-- Trees of which only sizes and roots are known, cut in two at a place the size gives: that
-- a leaf stands at a place under a root, and that one root grew out of another, as far as
-- joins that were seen show it.
namespace HashTree

section

variable {δ : Type} (join : δ → δ → δ) (cut : Nat → Nat) (seen : δ × δ → Prop)

-- Index and size, leaf and root.
inductive LeafAt : Nat → Nat → δ → δ → Prop where
  | leaf (digest : δ) : LeafAt 0 1 digest digest
  | left (index size : Nat) (digest a b : δ) (large : 2 ≤ size) (below : index < cut size)
      (joined : seen (a, b)) (inner : LeafAt index (cut size) digest a) :
      LeafAt index size digest (join a b)
  | right (index size : Nat) (digest a b : δ) (large : 2 ≤ size) (above : cut size ≤ index)
      (joined : seen (a, b)) (inner : LeafAt (index - cut size) (size - cut size) digest b) :
      LeafAt index size digest (join a b)

-- Old size and new size, old root and new root.
inductive RootGrows : Nat → Nat → δ → δ → Prop where
  | whole (size : Nat) (root : δ) : RootGrows size size root root
  | left (old new : Nat) (root grown b : δ) (large : 2 ≤ new) (below : old ≤ cut new)
      (joined : seen (grown, b)) (inner : RootGrows old (cut new) root grown) :
      RootGrows old new root (join grown b)
  | right (old new : Nat) (a root grown : δ) (large : 2 ≤ new) (above : cut new < old)
      (before : seen (a, root)) (after : seen (a, grown))
      (inner : RootGrows (old - cut new) (new - cut new) root grown) :
      RootGrows old new (join a root) (join a grown)

-- A cut that leaves something on both sides, and stays where it is when only what lies
-- right of it grows.
structure StableCut : Prop where
  positive : ∀ size, 0 < cut size
  within : ∀ size, 2 ≤ size → cut size < size
  stable : ∀ small large, cut large < small → small ≤ large → cut small = cut large

def JoinsApart : Prop :=
  ∀ a b c d, seen (a, b) → seen (c, d) → join a b = join c d → a = c ∧ b = d

variable {join cut seen}

theorem leaf_at_lt (stable : StableCut cut) (index size : Nat) (digest root : δ)
    (placed : LeafAt join cut seen index size digest root) : index < size := by
  induction placed with
  | leaf _ => exact Nat.one_pos
  | left index size _ _ _ large below _ _ _ =>
      have bound := stable.within size large
      omega
  | right index size _ _ _ _ above _ _ ih => omega

theorem root_grows_le (stable : StableCut cut) (old new : Nat) (root grown : δ)
    (grows : RootGrows join cut seen old new root grown) : old ≤ new := by
  induction grows with
  | whole _ _ => exact Nat.le_refl _
  | left old new _ _ _ large below _ _ _ =>
      have bound := stable.within new large
      omega
  | right old new _ _ _ large above _ _ _ ih =>
      have bound := stable.within new large
      omega

theorem leaf_at_grows (stable : StableCut cut) (apart : JoinsApart join seen) (old new : Nat)
    (root grown : δ) (grows : RootGrows join cut seen old new root grown) (index : Nat)
    (digest : δ) (placed : LeafAt join cut seen index old digest root) :
    LeafAt join cut seen index new digest grown := by
  induction grows generalizing index with
  | whole _ _ => exact placed
  | left old new root grown b large below joined _ ih =>
      have bound := leaf_at_lt stable index old digest root placed
      exact .left index new digest grown b large (by omega) joined (ih index placed)
  | right old new a root grown large above before after inner ih =>
      have fits := root_grows_le stable _ _ _ _ inner
      have first := stable.positive new
      have same := stable.stable old new above (by omega)
      generalize shown : join a root = top at placed
      cases placed with
      | leaf _ => omega
      | left _ _ _ c d _ under joined inner =>
          obtain ⟨rfl, rfl⟩ := apart _ _ _ _ before joined shown
          rw [same] at under inner
          exact .left index new digest a grown large under after inner
      | right _ _ _ c d _ past joined inner =>
          obtain ⟨rfl, rfl⟩ := apart _ _ _ _ before joined shown
          rw [same] at past inner
          exact .right index new digest a grown large past after (ih _ inner)

theorem leaf_at_unique (apart : JoinsApart join seen) (index size : Nat) (digest other root : δ)
    (placed : LeafAt join cut seen index size digest root)
    (again : LeafAt join cut seen index size other root) : digest = other := by
  induction placed with
  | leaf digest =>
      generalize shown : digest = top at again
      cases again with
      | leaf _ => rfl
      | left _ _ _ _ _ large _ _ _ => omega
      | right _ _ _ _ _ large _ _ _ => omega
  | left index size digest a b large below joined _ ih =>
      generalize shown : join a b = top at again
      cases again with
      | leaf _ => omega
      | left _ _ _ c d _ _ met inner =>
          obtain ⟨rfl, _⟩ := apart _ _ _ _ joined met shown
          exact ih inner
      | right _ _ _ _ _ _ above _ _ => omega
  | right index size digest a b large above joined _ ih =>
      generalize shown : join a b = top at again
      cases again with
      | leaf _ => omega
      | left _ _ _ _ _ _ below _ _ => omega
      | right _ _ _ c d _ _ met inner =>
          obtain ⟨_, rfl⟩ := apart _ _ _ _ joined met shown
          exact ih inner

end

end HashTree
