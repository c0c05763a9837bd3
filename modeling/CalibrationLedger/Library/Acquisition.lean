import Mathlib.Data.List.TakeWhile
import Mathlib.Data.Set.Finite.Lemmas
import Mathlib.Logic.Relation
import Mathlib.Order.WellFounded

set_option autoImplicit false

-- Parties that take keys one at a time, in the order of their lists, and keep what
-- they took until they are done with all of it.
namespace Acquisition

section

variable {Party : Type} (waits : Party → Party → Prop)

theorem cycle_closed (party : Party) (cycle : Relation.TransGen waits party party) :
    ∃ waiting : Set Party, party ∈ waiting ∧ ∀ i ∈ waiting, ∃ j ∈ waiting, waits i j := by
  refine ⟨fun i => Relation.TransGen waits party i ∧ Relation.TransGen waits i party, ⟨cycle, cycle⟩,
    fun i around => ?_⟩
  obtain ⟨out, back⟩ := around
  obtain ⟨j, first, rest⟩ := Relation.TransGen.head'_iff.mp back
  refine ⟨j, ⟨out.tail first, ?_⟩, first⟩
  rcases Relation.reflTransGen_iff_eq_or_transGen.mp rest with rfl | onward
  · exact cycle
  · exact onward

theorem acyclic_free [Finite Party] (acyclic : ∀ i, ¬ Relation.TransGen waits i i) (active : Set Party)
    (some_active : active.Nonempty) :
    ∃ i ∈ active, ∀ j ∈ active, ¬ waits i j := by
  have founded : WellFounded (Relation.TransGen fun a b => waits b a) := by
    have _ : IsTrans Party (Relation.TransGen fun a b => waits b a) := ⟨fun _ _ _ => Relation.TransGen.trans⟩
    have _ : Std.Irrefl (Relation.TransGen fun a b => waits b a) :=
      ⟨fun i cycle => acyclic i (Relation.transGen_swap.mp cycle)⟩
    exact Finite.wellFounded_of_trans_of_irrefl _
  obtain ⟨i, inside, least⟩ := founded.has_min active some_active
  exact ⟨i, inside, fun j member waiting => least j member (.single waiting)⟩

end

section

variable {Party Key : Type}

-- The keys nobody has to take any more once these parties are done.
def known (taken : Set Key) (keys : Party → List Key) (done : Set Party) : Set Key :=
  fun key => key ∈ taken ∨ ∃ i ∈ done, key ∈ keys i

theorem known_insert (taken : Set Key) (keys : Party → List Key) (done : Set Party) (party : Party)
    (key : Key) :
    key ∈ known taken keys done ∨ key ∈ keys party ↔ key ∈ known taken keys (insert party done) := by
  constructor
  · rintro ((free | ⟨i, finished, listed⟩) | listed)
    · exact .inl free
    · exact .inr ⟨i, .inr finished, listed⟩
    · exact .inr ⟨party, .inl rfl, listed⟩
  · rintro (free | ⟨i, rfl | finished, listed⟩)
    · exact .inl (.inl free)
    · exact .inr listed
    · exact .inl (.inr ⟨i, finished, listed⟩)

variable [DecidableEq Key]

-- What a party that has come to a key of its list keeps.
def held (free : Set Key) (keys : List Key) (stop : Key) : Set Key :=
  fun key => key ∈ keys.takeWhile (fun other => decide (other ≠ stop)) ∧ key ∉ free

theorem held_before (free : Set Key) (earlier later : List Key) (stop : Key) (first : stop ∉ earlier)
    (key : Key) :
    key ∈ held free (earlier ++ stop :: later) stop ↔ key ∈ earlier ∧ key ∉ free := by
  have before : (earlier ++ stop :: later).takeWhile (fun other => decide (other ≠ stop)) = earlier := by
    induction earlier with
    | nil => simp
    | cons head rest ih =>
        obtain ⟨apart, absent⟩ : stop ≠ head ∧ stop ∉ rest := by simpa using first
        rw [List.cons_append, List.takeWhile_cons, if_pos (by simpa using Ne.symm apart), ih absent]
  show key ∈ (earlier ++ stop :: later).takeWhile _ ∧ key ∉ free ↔ _
  rw [before]

-- Once some of the group are done, others can come to keys that each is kept by
-- another of them, and keep no key twice.
def Entangled (group : Set Party) (taken : Set Key) (keys : Party → List Key) : Prop :=
  ∃ (done waiting : Set Party) (stop : Party → Key), done ⊆ group ∧ waiting ⊆ group ∧ waiting.Nonempty ∧
    (∀ i ∈ waiting, stop i ∈ keys i ∧
      ∃ j ∈ waiting, stop i ∈ held (known taken keys done) (keys j) (stop j)) ∧
    ∀ i ∈ waiting, ∀ j ∈ waiting, i ≠ j → ∀ key ∈ held (known taken keys done) (keys i) (stop i),
      key ∉ held (known taken keys done) (keys j) (stop j)

theorem held_rank {α : Type} [Preorder α] (rank : Key → α) (free : Set Key) (keys : List Key) (stop key : Key)
    (ordered : ∀ other ∈ keys.takeWhile (fun other => decide (other ≠ stop)), rank other < rank stop)
    (keeps : key ∈ held free keys stop) : rank key < rank stop := ordered key keeps.1

-- One order that every list of the group follows is enough.
theorem ranked_not_entangled [Finite Party] {α : Type} [LinearOrder α] (rank : Key → α)
    (group : Set Party) (taken : Set Key) (keys : Party → List Key) (ordered : ∀ i ∈ group, ∀ stop ∈ keys i,
      ∀ other ∈ (keys i).takeWhile (fun other => decide (other ≠ stop)), rank other < rank stop) :
    ¬ Entangled group taken keys := by
  rintro ⟨done, waiting, stop, _, inside, nonempty, waits, _⟩
  obtain ⟨i, member, greatest⟩ :=
    Set.exists_max_image waiting (fun i => rank (stop i)) (Set.toFinite waiting) nonempty
  obtain ⟨_, j, other, keeps⟩ := waits i member
  have above := held_rank rank _ (keys j) (stop j) (stop i)
    (ordered j (inside other) (stop j) (waits j other).1) keeps
  exact absurd above (not_lt.mpr (greatest j other))

theorem sorted_not_entangled [Finite Party] [LinearOrder Key] (group : Set Party) (taken : Set Key)
    (keys : Party → List Key) (sorted : ∀ i ∈ group, (keys i).Pairwise fun a b => a ≤ b) :
    ¬ Entangled group taken keys := by
  refine ranked_not_entangled id group taken keys fun i member stop listed other before => ?_
  have whole := List.takeWhile_append_dropWhile (p := fun other => decide (other ≠ stop)) (l := keys i)
  have apart : ∀ key ∈ (keys i).takeWhile (fun other => decide (other ≠ stop)), key ≠ stop :=
    fun key first => by
    simpa using List.mem_takeWhile_imp first
  have rest : stop ∈ (keys i).dropWhile fun other => decide (other ≠ stop) := by
    rw [← whole] at listed
    exact (List.mem_append.mp listed).resolve_left fun first => apart stop first rfl
  have ordered := sorted i member
  rw [← whole] at ordered
  exact lt_of_le_of_ne ((List.pairwise_append.mp ordered).2.2 other before stop rest) (apart other before)

end

end Acquisition
