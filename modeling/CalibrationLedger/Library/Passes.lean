import Mathlib.Order.Bounds.Basic
import Mathlib.Order.Nat

set_option autoImplicit false

-- Faults looked for a kind at a time: the first place of the first kind there is one of.
namespace Passes

section

variable {α : Type}

-- The places of all kinds.
def faults (kinds : List (Set α)) : Set α := {place | ∃ kind ∈ kinds, place ∈ kind}

theorem faults_cons (kind : Set α) (rest : List (Set α)) (place : α) :
    place ∈ faults (kind :: rest) ↔ place ∈ kind ∨ place ∈ faults rest := by
  simp [faults]

variable [LinearOrder α]

def Reports : List (Set α) → α → Prop
  | [], _ => False
  | kind :: rest, place => IsLeast kind place ∨ kind = ∅ ∧ Reports rest place

-- No kind has a place before the first one of the kind that is reported.
def InOrder : List (Set α) → Prop
  | [] => True
  | kind :: rest => (∀ place, IsLeast kind place → ∀ other ∈ faults rest, place ≤ other) ∧
      (kind = ∅ → InOrder rest)

theorem reports_fault (kinds : List (Set α)) (place : α) (reported : Reports kinds place) :
    place ∈ faults kinds := by
  induction kinds with
  | nil => cases reported
  | cons kind rest ih =>
      rw [faults_cons]
      rcases reported with least | ⟨_, later⟩
      · exact .inl least.1
      · exact .inr (ih later)

theorem reports_least (kinds : List (Set α)) (place : α) (reported : Reports kinds place) :
    IsLeast (faults kinds) place ↔ InOrder kinds := by
  induction kinds with
  | nil => cases reported
  | cons kind rest ih =>
      rcases reported with least | ⟨empty, later⟩
      · constructor
        · intro first
          refine ⟨fun other again later inside => ?_, fun empty => ?_⟩
          · rw [again.unique least]
            exact first.2 ((faults_cons kind rest later).mpr (.inr inside))
          · exact absurd least.1 (empty ▸ Set.notMem_empty place)
        · intro ordered
          refine ⟨(faults_cons kind rest place).mpr (.inl least.1), fun other inside => ?_⟩
          rcases (faults_cons kind rest other).mp inside with own | others
          · exact least.2 own
          · exact ordered.1 place least other others
      · have same : faults (kind :: rest) = faults rest := by
          ext other
          rw [faults_cons, empty]
          exact or_iff_right (Set.notMem_empty other)
        rw [same, ih later]
        constructor
        · intro ordered
          refine ⟨fun other least => absurd least.1 (empty ▸ Set.notMem_empty other), fun _ => ordered⟩
        · intro ordered
          exact ordered.2 empty

end

end Passes
