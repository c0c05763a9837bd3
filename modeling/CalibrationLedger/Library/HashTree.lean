import Mathlib.Data.List.Basic

set_option autoImplicit false

-- Binary trees of digests under an arbitrary join of two digests: what a root
-- binds, and what a route from a leaf to the root proves.
namespace HashTree

inductive Tree (δ : Type) where
  | leaf (digest : δ)
  | node (left right : Tree δ)

-- Where the sibling of a step stands.
inductive Side where
  | left
  | right
deriving DecidableEq

structure Sibling (δ : Type) where
  side : Side
  hash : δ
deriving DecidableEq

abbrev Route (δ : Type) := List (Sibling δ)

section

variable {δ : Type} (join : δ → δ → δ)

def leaves : Tree δ → List δ
  | .leaf digest => [digest]
  | .node left right => leaves left ++ leaves right

def size (tree : Tree δ) : Nat := (leaves tree).length

def root : Tree δ → δ
  | .leaf digest => digest
  | .node left right => join (root left) (root right)

-- Every pair of digests joined on the way to the root.
def joins : Tree δ → List (δ × δ)
  | .leaf _ => []
  | .node left right => (root join left, root join right) :: (joins left ++ joins right)

def SameShape : Tree δ → Tree δ → Prop
  | .leaf _, .leaf _ => True
  | .node a b, .node c d => SameShape a c ∧ SameShape b d
  | _, _ => False

-- No pair of the first list joins to the digest of a different pair of the second.
def NoCollision (left right : List (δ × δ)) : Prop :=
  ∀ p ∈ left, ∀ q ∈ right, join p.1 p.2 = join q.1 q.2 → p = q

theorem no_collision_subset (left right smallLeft smallRight : List (δ × δ))
    (lefts : ∀ p ∈ smallLeft, p ∈ left) (rights : ∀ q ∈ smallRight, q ∈ right)
    (free : NoCollision join left right) :
    NoCollision join smallLeft smallRight :=
  fun p first q second same => free p (lefts p first) q (rights q second) same

theorem root_binds (a b : Tree δ) (shape : SameShape a b)
    (free : NoCollision join (joins join a) (joins join b)) (same : root join a = root join b) :
    a = b := by
  induction a generalizing b with
  | leaf digest =>
      cases b with
      | leaf other => exact congrArg Tree.leaf same
      | node _ _ => exact False.elim shape
  | node left right ihLeft ihRight =>
      cases b with
      | leaf _ => exact False.elim shape
      | node otherLeft otherRight =>
          have pairs := free (root join left, root join right) (by simp [joins])
            (root join otherLeft, root join otherRight) (by simp [joins]) same
          obtain ⟨leftRoots, rightRoots⟩ := Prod.mk.inj pairs
          have leftFree := no_collision_subset join _ _ (joins join left) (joins join otherLeft)
            (fun p member => by simp [joins, member]) (fun q member => by simp [joins, member]) free
          have rightFree := no_collision_subset join _ _ (joins join right) (joins join otherRight)
            (fun p member => by simp [joins, member]) (fun q member => by simp [joins, member]) free
          rw [ihLeft otherLeft shape.1 leftFree leftRoots, ihRight otherRight shape.2 rightFree rightRoots]

-- Climbing from a leaf to the root, one sibling at a time.
def step (current : δ) (sibling : Sibling δ) : δ :=
  match sibling.side with
  | .left => join sibling.hash current
  | .right => join current sibling.hash

def climb (digest : δ) (route : Route δ) : δ := route.foldl (step join) digest

def climbJoins (digest : δ) : Route δ → List (δ × δ)
  | [] => []
  | sibling :: rest =>
      (match sibling.side with
        | .left => (sibling.hash, digest)
        | .right => (digest, sibling.hash)) :: climbJoins (step join digest sibling) rest

theorem climb_append (digest : δ) (a b : Route δ) :
    climb join digest (a ++ b) = climb join (climb join digest a) b :=
  List.foldl_append

theorem climb_joins_append (digest : δ) (a b : Route δ) :
    climbJoins join digest (a ++ b) =
      climbJoins join digest a ++ climbJoins join (climb join digest a) b := by
  induction a generalizing digest with
  | nil => rfl
  | cons sibling rest ih => simp only [List.cons_append, climbJoins, ih, climb, List.foldl_cons]

def sides : Tree δ → Nat → List Side
  | .leaf _, _ => []
  | .node left right, index =>
      if index < size left then sides left index ++ [.right] else sides right (index - size left) ++ [.left]

def opening : Tree δ → Nat → Route δ
  | .leaf _, _ => []
  | .node left right, index =>
      if index < size left then opening left index ++ [⟨.right, root join right⟩]
      else opening right (index - size left) ++ [⟨.left, root join left⟩]

theorem opening_sides (tree : Tree δ) (index : Nat) :
    (opening join tree index).map Sibling.side = sides tree index := by
  induction tree generalizing index with
  | leaf _ => rfl
  | node left right ihLeft ihRight =>
      by_cases inLeft : index < size left
      · simp [opening, sides, inLeft, ihLeft]
      · simp [opening, sides, inLeft, ihRight]

theorem climb_opening (tree : Tree δ) (index : Nat) (digest : δ)
    (found : (leaves tree)[index]? = some digest) :
    climb join digest (opening join tree index) = root join tree := by
  induction tree generalizing index with
  | leaf only =>
      have same : digest = only := by
        cases index with
        | zero => exact (Option.some.inj found).symm
        | succ _ => simp [leaves] at found
      rw [same]
      rfl
  | node left right ihLeft ihRight =>
      by_cases inLeft : index < size left
      · have inner : (leaves left)[index]? = some digest := by
          rw [leaves, List.getElem?_append_left inLeft] at found
          exact found
        rw [opening, if_pos inLeft, climb_append, ihLeft index inner]
        rfl
      · have inner : (leaves right)[index - size left]? = some digest := by
          rw [leaves, List.getElem?_append_right (Nat.le_of_not_lt inLeft)] at found
          exact found
        rw [opening, if_neg inLeft, climb_append, ihRight _ inner]
        rfl

theorem climb_joins_opening (tree : Tree δ) (index : Nat) (digest : δ)
    (found : (leaves tree)[index]? = some digest) :
    ∀ pair ∈ climbJoins join digest (opening join tree index), pair ∈ joins join tree := by
  induction tree generalizing index with
  | leaf _ => simp [opening, climbJoins]
  | node left right ihLeft ihRight =>
      intro pair member
      rw [joins]
      by_cases inLeft : index < size left
      · have inner : (leaves left)[index]? = some digest := by
          rw [leaves, List.getElem?_append_left inLeft] at found
          exact found
        rw [opening, if_pos inLeft, climb_joins_append, climb_opening join left index digest inner] at member
        rcases List.mem_append.mp member with below | top
        · exact List.mem_cons_of_mem _ (List.mem_append_left _ (ihLeft index inner pair below))
        · rw [List.mem_singleton.mp top]
          exact List.mem_cons_self
      · have inner : (leaves right)[index - size left]? = some digest := by
          rw [leaves, List.getElem?_append_right (Nat.le_of_not_lt inLeft)] at found
          exact found
        rw [opening, if_neg inLeft, climb_joins_append, climb_opening join right _ digest inner] at member
        rcases List.mem_append.mp member with below | top
        · exact List.mem_cons_of_mem _ (List.mem_append_right _ (ihRight _ inner pair below))
        · rw [List.mem_singleton.mp top]
          exact List.mem_cons_self

-- A route of the right sides that reaches the root carries the tree's own
-- siblings and starts at its own leaf, unless a join collides.
theorem climb_pins (tree : Tree δ) (index : Nat) (digest : δ) (route : Route δ) (inside : index < size tree)
    (shape : route.map Sibling.side = sides tree index)
    (free : NoCollision join (joins join tree) (climbJoins join digest route))
    (reached : climb join digest route = root join tree) :
    (leaves tree)[index]? = some digest ∧ route = opening join tree index := by
  induction tree generalizing index route with
  | leaf only =>
      have empty : route = [] := List.map_eq_nil_iff.mp shape
      subst empty
      have zero : index = 0 := by
        have bound : index < 1 := inside
        omega
      subst zero
      exact ⟨congrArg some (Eq.symm reached), rfl⟩
  | node left right ihLeft ihRight =>
      by_cases inLeft : index < size left
      · rw [sides, if_pos inLeft] at shape
        obtain ⟨init, last, rfl, initShape, lastShape⟩ := List.map_eq_append_iff.mp shape
        obtain ⟨sibling, rfl, side⟩ := List.map_eq_singleton_iff.mp lastShape
        obtain ⟨_, held⟩ := sibling
        cases side
        rw [climb_append] at reached
        rw [climb_joins_append] at free
        have pairs := free (root join left, root join right) (by simp [joins]) (climb join digest init, held)
          (by simp [climbJoins]) reached.symm
        obtain ⟨leftRoot, rightRoot⟩ := Prod.mk.inj pairs
        have inner := ihLeft index init inLeft initShape (no_collision_subset join _ _ _ _
          (fun p member => by simp [joins, member]) (fun q member => by simp [member]) free) leftRoot.symm
        refine ⟨?_, ?_⟩
        · rw [leaves, List.getElem?_append_left inLeft]
          exact inner.1
        · rw [opening, if_pos inLeft, ← inner.2, rightRoot]
      · rw [sides, if_neg inLeft] at shape
        obtain ⟨init, last, rfl, initShape, lastShape⟩ := List.map_eq_append_iff.mp shape
        obtain ⟨sibling, rfl, side⟩ := List.map_eq_singleton_iff.mp lastShape
        obtain ⟨_, held⟩ := sibling
        cases side
        rw [climb_append] at reached
        rw [climb_joins_append] at free
        have pairs := free (root join left, root join right) (by simp [joins]) (held, climb join digest init)
          (by simp [climbJoins]) reached.symm
        obtain ⟨leftRoot, rightRoot⟩ := Prod.mk.inj pairs
        have bound : index - size left < size right := by
          have whole : index < size left + size right := by simpa [size, leaves] using inside
          omega
        have inner := ihRight (index - size left) init bound initShape (no_collision_subset join _ _ _ _
          (fun p member => by simp [joins, member]) (fun q member => by simp [member]) free) rightRoot.symm
        refine ⟨?_, ?_⟩
        · rw [leaves, List.getElem?_append_right (Nat.le_of_not_lt inLeft)]
          exact inner.1
        · rw [opening, if_neg inLeft, ← inner.2, leftRoot]

end

end HashTree
