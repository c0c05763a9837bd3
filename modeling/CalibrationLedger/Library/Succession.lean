import Mathlib.Data.List.Chain
import Mathlib.Data.List.Induction

set_option autoImplicit false

-- Elements in some order, each but the first one succeeding an earlier one.
namespace Succession

section

variable {α β : Type} (Next : α → α → Prop)

theorem chain_next (items : List α) (chain : items.IsChain Next) (a : α) (member : a ∈ items) :
    items.getLast? = some a ∨ ∃ b ∈ items, Next a b := by
  induction items with
  | nil => cases member
  | cons first rest ih =>
      cases rest with
      | nil =>
          rw [List.mem_singleton.mp member]
          exact .inl rfl
      | cons second others =>
          obtain ⟨step, onward⟩ := List.isChain_cons_cons.mp chain
          rcases List.mem_cons.mp member with rfl | later
          · exact .inr ⟨second, by simp, step⟩
          · rcases ih onward later with last | ⟨b, inside, next⟩
            · exact .inl (by rw [List.getLast?_cons_cons]; exact last)
            · exact .inr ⟨b, List.mem_cons_of_mem first inside, next⟩

theorem chain_constant (items : List α) (chain : items.IsChain Next) (label : α → β)
    (kept : ∀ a b, Next a b → label b = label a) (first : α) (head : items.head? = some first) (a : α)
    (member : a ∈ items) : label a = label first := by
  induction items generalizing first with
  | nil => cases member
  | cons item rest ih =>
      cases head
      rcases List.mem_cons.mp member with rfl | later
      · rfl
      · cases rest with
        | nil => cases later
        | cons second others =>
            obtain ⟨step, onward⟩ := List.isChain_cons_cons.mp chain
            exact (ih onward second rfl later).trans (kept item second step)

-- Without a fork the order is the succession. The induction adds the latest
-- element: all but the last of the earlier ones have their successor already.
theorem chain_of_no_fork (Before : α → α → Prop) (asymm : ∀ a b, Before a b → ¬ Before b a) (items : List α)
    (sorted : items.Pairwise Before)
    (succeeds : ∀ b ∈ items, items.head? = some b ∨ ∃ a ∈ items, Next a b ∧ Before a b)
    (noFork : ∀ a ∈ items, ∀ b ∈ items, ∀ c ∈ items, Next a b → Next a c → b = c) : items.IsChain Next := by
  induction items using List.reverseRecOn with
  | nil => exact .nil
  | append_singleton earlier latest ih =>
      obtain ⟨ordered, _, above⟩ := List.pairwise_append.mp sorted
      have last : ∀ a ∈ earlier, Before a latest := fun a inside =>
        above a inside latest (List.mem_singleton_self latest)
      have irrefl : ∀ a, ¬ Before a a := fun a self => asymm a a self self
      have within : ∀ a b, a ∈ earlier ++ [latest] → Before a b → b ∈ earlier ++ [latest] → a ∈ earlier := by
        intro a b member less other
        rcases List.mem_append.mp member with inside | final
        · exact inside
        · rw [List.mem_singleton.mp final] at less
          rcases List.mem_append.mp other with inside | same
          · exact absurd less (asymm _ _ (last b inside))
          · rw [List.mem_singleton.mp same] at less
            exact absurd less (irrefl latest)
      have chain : earlier.IsChain Next := by
        refine ih ordered (fun b inside => ?_) fun a inA b inB c inC =>
          noFork a (List.mem_append_left _ inA) b
          (List.mem_append_left _ inB) c (List.mem_append_left _ inC)
        rcases succeeds b (List.mem_append_left _ inside) with head | ⟨a, member, next, less⟩
        · cases earlier with
          | nil => cases inside
          | cons first rest => exact .inl head
        · exact .inr ⟨a, within a b member less (List.mem_append_left _ inside), next, less⟩
      refine List.isChain_append.mpr ⟨chain, .singleton latest, fun a ends b starts => ?_⟩
      cases starts
      have nonempty : earlier ≠ [] := by
        rintro rfl
        cases ends
      rcases succeeds latest (List.mem_append_right _ (List.mem_singleton_self _)) with head | ⟨parent,
        member, next, less⟩
      · obtain ⟨first, rest, rfl⟩ := List.exists_cons_of_ne_nil nonempty
        cases head
        exact absurd (last latest List.mem_cons_self) (irrefl latest)
      · have inside := within parent latest member less (List.mem_append_right _ (List.mem_singleton_self _))
        rcases chain_next Next earlier chain parent inside with same | ⟨other, later, taken⟩
        · cases same.symm.trans ends
          exact next
        · have fork := noFork parent member other (List.mem_append_left _ later) latest
            (List.mem_append_right _ (List.mem_singleton_self _)) taken next
          rw [fork] at later
          exact absurd (last latest later) (irrefl latest)

end

end Succession
