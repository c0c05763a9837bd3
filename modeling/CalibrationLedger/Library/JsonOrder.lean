import CalibrationLedger.Library.JsonText
import Mathlib.Data.List.Perm.Basic

set_option autoImplicit false

-- Values that differ only in the order of the members of their objects, and the
-- order that tells them from all others.
namespace JsonText

section

variable {φ : Type}

-- The members of every object may stand in another order; items keep their places.
mutual
def Reordered : Value φ → Value φ → Prop
  | .null, .null => True
  | .bool a, .bool b => a = b
  | .int a, .int b => a = b
  | .float a, .float b => a = b
  | .str a, .str b => a = b
  | .arr items, .arr others => ItemsReordered items others
  | .obj members, .obj others => ∃ ordered, ordered.Perm others ∧ MembersReordered members ordered
  | _, _ => False
def ItemsReordered : List (Value φ) → List (Value φ) → Prop
  | [], [] => True
  | item :: rest, other :: others => Reordered item other ∧ ItemsReordered rest others
  | _, _ => False
def MembersReordered : List (Text × Value φ) → List (Text × Value φ) → Prop
  | [], [] => True
  | (key, value) :: rest, (name, other) :: others => key = name ∧ Reordered value other ∧
      MembersReordered rest others
  | _, _ => False
end

theorem sort_members_map (members : List (Text × Value φ)) :
    sortMembers members = members.map fun entry => (entry.1, sortKeys entry.2) := by
  induction members with
  | nil => rfl
  | cons entry rest ih => rw [sortMembers, ih, List.map_cons]

theorem sort_members_keys (members : List (Text × Value φ)) :
    (sortMembers members).map Prod.fst = members.map Prod.fst := by
  rw [sort_members_map, List.map_map]
  rfl

theorem sort_members_perm (a b : List (Text × Value φ)) (perm : a.Perm b) :
    (sortMembers a).Perm (sortMembers b) := by
  rw [sort_members_map, sort_members_map]
  exact perm.map _

theorem sorted_perm (members : List (Text × Value φ)) : (members.insertionSort before).Perm members :=
  List.perm_insertionSort before members

theorem char_not_surrogate (char : Char) (unit : Fin 2048) :
    (CodePoint.scalar char).value ≠ (CodePoint.surrogate unit).value := by
  intro same
  have range : char.val.toNat = 0xD800 + unit.val := same
  have small := unit.isLt
  rcases char.valid with low | ⟨high, _⟩
  · omega
  · omega

theorem value_injective (a b : CodePoint) (same : a.value = b.value) : a = b := by
  cases a with
  | scalar char =>
      cases b with
      | scalar other => exact congrArg CodePoint.scalar (Char.toNat_inj.mp same)
      | surrogate unit => exact absurd same (char_not_surrogate char unit)
  | surrogate unit =>
      cases b with
      | scalar char => exact absurd same.symm (char_not_surrogate char unit)
      | surrogate other => exact congrArg CodePoint.surrogate (Fin.ext (Nat.add_left_cancel same))

theorem before_same_key (a b : Text × Value φ) (left : before a b) (right : before b a) : a.1 = b.1 :=
  List.map_injective_iff.mpr value_injective (le_antisymm left right)

theorem sorted_pairwise (members : List (Text × Value φ)) :
    (members.insertionSort before).Pairwise before := by
  have _ : Std.Total (before (φ := φ)) :=
    ⟨fun a b => le_total (a.1.map CodePoint.value) (b.1.map CodePoint.value)⟩
  have _ : IsTrans (Text × Value φ) before := ⟨fun _ _ _ => le_trans⟩
  exact List.pairwise_insertionSort before members

theorem sorted_unique (a b : List (Text × Value φ)) (perm : a.Perm b) (distinct : (a.map Prod.fst).Nodup) :
    a.insertionSort before = b.insertionSort before := by
  refine List.Perm.eq_of_pairwise (fun x y left right below above => ?_) (sorted_pairwise a)
    (sorted_pairwise b)
    ((sorted_perm a).trans (perm.trans (sorted_perm b).symm))
  have first := (sorted_perm a).mem_iff.mp left
  have second := perm.mem_iff.mpr ((sorted_perm b).mem_iff.mp right)
  exact List.inj_on_of_nodup_map distinct first second (before_same_key x y below above)

theorem sorted_reorder (a b : List (Text × Value φ))
    (same : (sortMembers a).insertionSort before = (sortMembers b).insertionSort before) :
    ∃ ordered, ordered.Perm b ∧ sortMembers a = sortMembers ordered := by
  have perm : (sortMembers a).Perm (sortMembers b) :=
    (sorted_perm _).symm.trans ((List.Perm.of_eq same).trans (sorted_perm _))
  rw [sort_members_map b] at perm
  have mapping := congrFun
    (congrFun (List.eq_map_comp_perm fun entry : Text × Value φ => (entry.1, sortKeys entry.2))
      (sortMembers a)) b
  obtain ⟨ordered, mapped, reordered⟩ := mapping.mpr perm
  exact ⟨ordered, reordered, by rw [mapped, sort_members_map]⟩

mutual
theorem reordered_of_sorted (a b : Value φ) (same : sortKeys a = sortKeys b) : Reordered a b := by
  cases a with
  | arr items =>
      cases b with
      | arr others => exact items_reordered_of_sorted items others (Value.arr.inj same)
      | _ => cases same
  | obj members =>
      cases b with
      | obj others =>
          obtain ⟨ordered, perm, sorted⟩ := sorted_reorder members others (Value.obj.inj same)
          exact ⟨ordered, perm, members_reordered_of_sorted members ordered sorted⟩
      | _ => cases same
  | null =>
      cases b with
      | null => trivial
      | _ => cases same
  | bool flag =>
      cases b with
      | bool other => exact Value.bool.inj same
      | _ => cases same
  | int number =>
      cases b with
      | int other => exact Value.int.inj same
      | _ => cases same
  | float number =>
      cases b with
      | float other => exact Value.float.inj same
      | _ => cases same
  | str content =>
      cases b with
      | str other => exact Value.str.inj same
      | _ => cases same
theorem items_reordered_of_sorted (a b : List (Value φ)) (same : sortItems a = sortItems b) :
    ItemsReordered a b := by
  cases a with
  | nil =>
      cases b with
      | nil => trivial
      | cons other others => cases same
  | cons item rest =>
      cases b with
      | nil => cases same
      | cons other others =>
          obtain ⟨head, tail⟩ := List.cons.inj same
          exact ⟨reordered_of_sorted item other head, items_reordered_of_sorted rest others tail⟩
theorem members_reordered_of_sorted (a b : List (Text × Value φ)) (same : sortMembers a = sortMembers b) :
    MembersReordered a b := by
  cases a with
  | nil =>
      cases b with
      | nil => trivial
      | cons other others => cases same
  | cons entry rest =>
      obtain ⟨key, value⟩ := entry
      cases b with
      | nil => cases same
      | cons second others =>
          obtain ⟨name, other⟩ := second
          obtain ⟨head, tail⟩ := List.cons.inj same
          obtain ⟨keys, values⟩ := Prod.mk.inj head
          exact ⟨keys, reordered_of_sorted value other values, members_reordered_of_sorted rest others tail⟩
end

mutual
theorem sorted_of_reordered (a b : Value φ) (distinct : Distinct a) (same : Reordered a b) :
    sortKeys a = sortKeys b := by
  cases a with
  | arr items =>
      cases b with
      | arr others => exact congrArg Value.arr (sorted_of_items_reordered items others distinct same)
      | _ => exact same.elim
  | obj members =>
      cases b with
      | obj others =>
          obtain ⟨ordered, perm, same⟩ := same
          have sorted := sorted_of_members_reordered members ordered distinct.2 same
          refine congrArg Value.obj (sorted_unique _ _ ?_ ?_)
          · rw [sorted]
            exact sort_members_perm ordered others perm
          · rw [sort_members_keys]
            exact distinct.1
      | _ => exact same.elim
  | null =>
      cases b with
      | null => rfl
      | _ => exact same.elim
  | bool flag =>
      cases b with
      | bool other => exact congrArg Value.bool same
      | _ => exact same.elim
  | int number =>
      cases b with
      | int other => exact congrArg Value.int same
      | _ => exact same.elim
  | float number =>
      cases b with
      | float other => exact congrArg Value.float same
      | _ => exact same.elim
  | str content =>
      cases b with
      | str other => exact congrArg Value.str same
      | _ => exact same.elim
theorem sorted_of_items_reordered (a b : List (Value φ)) (distinct : ItemsDistinct a)
    (same : ItemsReordered a b) :
    sortItems a = sortItems b := by
  cases a with
  | nil =>
      cases b with
      | nil => rfl
      | cons other others => exact same.elim
  | cons item rest =>
      cases b with
      | nil => exact same.elim
      | cons other others =>
          rw [sortItems, sortItems, sorted_of_reordered item other distinct.1 same.1,
            sorted_of_items_reordered rest others distinct.2 same.2]
theorem sorted_of_members_reordered (a b : List (Text × Value φ)) (distinct : MembersDistinct a)
    (same : MembersReordered a b) :
    sortMembers a = sortMembers b := by
  cases a with
  | nil =>
      cases b with
      | nil => rfl
      | cons other others => exact same.elim
  | cons entry rest =>
      obtain ⟨key, value⟩ := entry
      cases b with
      | nil => exact same.elim
      | cons second others =>
          obtain ⟨name, other⟩ := second
          obtain ⟨keys, values, onward⟩ := same
          rw [sortMembers, sortMembers, keys, sorted_of_reordered value other distinct.1 values,
            sorted_of_members_reordered rest others distinct.2 onward]
end

-- Sorting the keys tells values apart just by more than the order of members.
theorem sort_keys_reordered (a b : Value φ) (distinct : Distinct a) :
    sortKeys a = sortKeys b ↔ Reordered a b :=
  ⟨reordered_of_sorted a b, sorted_of_reordered a b distinct⟩

theorem member_iff (members : List (Text × Value φ)) (distinct : (members.map Prod.fst).Nodup)
    (key : Text) (value : Value φ) :
    member key members = some value ↔ (key, value) ∈ members := by
  induction members with
  | nil => simp [member]
  | cons entry rest ih =>
      obtain ⟨name, held⟩ := entry
      obtain ⟨absent, others⟩ := List.nodup_cons.mp distinct
      by_cases same : name = key
      · subst name
        have nowhere : (key, value) ∉ rest := fun inside => absent (List.mem_map.mpr ⟨_, inside, rfl⟩)
        simp [member, nowhere, eq_comm]
      · have further : member key ((name, held) :: rest) = member key rest := by simp [member, same]
        rw [further, ih others, List.mem_cons]
        simp [Ne.symm same]

theorem member_perm (a b : List (Text × Value φ)) (perm : a.Perm b) (distinct : (a.map Prod.fst).Nodup)
    (key : Text) :
    member key a = member key b := by
  have also : (b.map Prod.fst).Nodup := (perm.map Prod.fst).nodup_iff.mp distinct
  refine Option.ext fun value => ?_
  rw [member_iff a distinct, member_iff b also, perm.mem_iff]

theorem members_reordered_keys (members ordered : List (Text × Value φ))
    (same : MembersReordered members ordered) :
    ordered.map Prod.fst = members.map Prod.fst := by
  induction members generalizing ordered with
  | nil =>
      cases ordered with
      | nil => rfl
      | cons other others => exact same.elim
  | cons entry rest ih =>
      cases ordered with
      | nil => exact same.elim
      | cons other others =>
          obtain ⟨keys, _, onward⟩ := same
          rw [List.map_cons, List.map_cons, ih others onward, ← keys]

theorem members_reordered_member (members ordered : List (Text × Value φ))
    (same : MembersReordered members ordered) (key : Text) :
    Option.Rel Reordered (member key members) (member key ordered) := by
  induction members generalizing ordered with
  | nil =>
      cases ordered with
      | nil => exact .none
      | cons other others => exact same.elim
  | cons entry rest ih =>
      cases ordered with
      | nil => exact same.elim
      | cons other others =>
          obtain ⟨name, value⟩ := entry
          obtain ⟨label, held⟩ := other
          obtain ⟨rfl, values, onward⟩ := same
          by_cases here : name = key
          · simpa [member, here] using Option.Rel.some values
          · simpa [member, here] using ih others onward

theorem reordered_member (members others : List (Text × Value φ))
    (same : Reordered (.obj members) (.obj others)) (distinct : (members.map Prod.fst).Nodup)
    (key : Text) : Option.Rel Reordered (member key members) (member key others) := by
  obtain ⟨ordered, perm, onward⟩ := same
  have keys := members_reordered_keys members ordered onward
  rw [← member_perm ordered others perm (by rw [keys]; exact distinct)]
  exact members_reordered_member members ordered onward key

theorem items_reordered_iff (items others : List (Value φ)) :
    ItemsReordered items others ↔ List.Forall₂ Reordered items others := by
  induction items generalizing others with
  | nil =>
      cases others with
      | nil => simp [ItemsReordered]
      | cons other rest => simp [ItemsReordered]
  | cons item rest ih =>
      cases others with
      | nil => simp [ItemsReordered]
      | cons other later => simp [ItemsReordered, ih]

mutual
theorem reordered_sort (value : Value φ) : Reordered value (sortKeys value) := by
  cases value with
  | arr items => exact items_reordered_sort items
  | obj members => exact ⟨sortMembers members, (sorted_perm _).symm, members_reordered_sort members⟩
  | null => trivial
  | bool flag => rfl
  | int number => rfl
  | float number => rfl
  | str content => rfl
theorem items_reordered_sort (items : List (Value φ)) : ItemsReordered items (sortItems items) := by
  cases items with
  | nil => trivial
  | cons item rest => exact ⟨reordered_sort item, items_reordered_sort rest⟩
theorem members_reordered_sort (members : List (Text × Value φ)) :
    MembersReordered members (sortMembers members) := by
  cases members with
  | nil => trivial
  | cons entry rest => exact ⟨rfl, reordered_sort entry.2, members_reordered_sort rest⟩
end

mutual
theorem sort_keys_distinct (value : Value φ) (distinct : Distinct value) : Distinct (sortKeys value) := by
  cases value with
  | arr items => exact sort_items_distinct items distinct
  | obj members =>
      refine ⟨?_, (members_distinct_iff _).mpr fun entry inside => ?_⟩
      · rw [((sorted_perm (sortMembers members)).map Prod.fst).nodup_iff, sort_members_keys]
        exact distinct.1
      · have sorted := (members_distinct_iff _).mp (sort_members_distinct members distinct.2)
        exact sorted entry ((sorted_perm _).mem_iff.mp inside)
  | _ => trivial
theorem sort_items_distinct (items : List (Value φ)) (distinct : ItemsDistinct items) :
    ItemsDistinct (sortItems items) := by
  cases items with
  | nil => trivial
  | cons item rest => exact ⟨sort_keys_distinct item distinct.1, sort_items_distinct rest distinct.2⟩
theorem sort_members_distinct (members : List (Text × Value φ)) (distinct : MembersDistinct members) :
    MembersDistinct (sortMembers members) := by
  cases members with
  | nil => trivial
  | cons entry rest => exact ⟨sort_keys_distinct entry.2 distinct.1, sort_members_distinct rest distinct.2⟩
end

end

end JsonText
