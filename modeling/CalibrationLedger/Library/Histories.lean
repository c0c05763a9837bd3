import Mathlib.Data.List.Basic

set_option autoImplicit false

-- Facts about every entry of a history that is only ever extended at its end.
namespace Histories

variable {α : Type}

-- Each entry is related to those before it.
def Throughout (relation : List α → α → Prop) (history : List α) : Prop :=
  ∀ earlier entry later, history = earlier ++ entry :: later → relation earlier entry

theorem throughout_nil (relation : List α → α → Prop) : Throughout relation [] := by
  intro earlier entry later split
  simp at split

theorem throughout_snoc (relation : List α → α → Prop) (history : List α) (newest : α) :
    Throughout relation (history ++ [newest]) ↔ Throughout relation history ∧ relation history newest := by
  constructor
  · intro holds
    refine ⟨fun earlier entry later split => holds earlier entry (later ++ [newest]) ?_,
      holds history newest [] rfl⟩
    rw [split, List.append_assoc]
    rfl
  · rintro ⟨before, last⟩ earlier entry later split
    rcases List.eq_nil_or_concat later with rfl | ⟨others, final, rfl⟩
    · obtain ⟨rfl, same⟩ := List.append_inj' split rfl
      cases same
      exact last
    · have longer : history ++ [newest] = (earlier ++ entry :: others) ++ [final] := by
        rw [split, List.concat_eq_append, List.append_assoc, List.cons_append]
      obtain ⟨same, _⟩ := List.append_inj' longer rfl
      exact before earlier entry others same

theorem throughout_member (relation : List α → α → Prop) (history : List α)
    (holds : Throughout relation history) (entry : α) (member : entry ∈ history) :
    ∃ earlier later, history = earlier ++ entry :: later ∧ relation earlier entry := by
  obtain ⟨earlier, later, split⟩ := List.append_of_mem member
  exact ⟨earlier, later, split, holds earlier entry later split⟩

-- The newest entry with a property.
def newest (choose : α → Bool) (history : List α) : Option α := history.reverse.find? choose

theorem newest_snoc (choose : α → Bool) (history : List α) (entry : α) :
    newest choose (history ++ [entry]) = if choose entry then some entry else newest choose history := by
  rw [newest, List.reverse_append, List.reverse_singleton, List.singleton_append, List.find?_cons]
  cases chosen : choose entry <;> rfl

end Histories
