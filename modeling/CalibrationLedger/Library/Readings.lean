import Mathlib.Control.Lawful

set_option autoImplicit false

-- Programs that read a store at one moment after the other.
namespace Readings

section

variable {m : Type → Type} [Monad m] [LawfulMonad m] {σ α β : Type}

-- The n-th reading is of the n-th moment.
def reading (moments : Nat → σ) : StateT Nat m σ := do
  let turn ← get
  set (turn + 1)
  return moments turn

-- From whichever moment on it reads, the program's result is that of the pure one.
def MomentFree (program : StateT Nat m α) (result : m α) : Prop :=
  ∀ turn, Prod.fst <$> program.run turn = result

theorem moment_free_pure (value : α) : MomentFree (pure value : StateT Nat m α) (pure value) := by
  intro turn
  simp

theorem moment_free_lift (result : m α) : MomentFree (StateT.lift result) result := by
  intro turn
  have ran : (StateT.lift result).run turn = (fun value => (value, turn)) <$> result := by
    rw [map_eq_pure_bind]
    rfl
  rw [ran, Functor.map_map]
  exact id_map result

theorem moment_free_bind (program : StateT Nat m α) (result : m α) (next : α → StateT Nat m β)
    (further : α → m β) (first : MomentFree program result)
    (second : ∀ value, MomentFree (next value) (further value)) :
    MomentFree (program >>= next) (result >>= further) := by
  intro turn
  have later : ∀ ended : α × Nat, Prod.fst <$> (next ended.1).run ended.2 = further ended.1 :=
    fun ended => second ended.1 ended.2
  calc Prod.fst <$> (program >>= next).run turn
      = program.run turn >>= fun ended =>
        Prod.fst <$> (next ended.1).run ended.2 := by rw [StateT.run_bind, map_bind]
    _ = program.run turn >>= fun ended => further ended.1 := by simp only [later]
    _ = (Prod.fst <$> program.run turn) >>= further := by rw [bind_map_left]
    _ = result >>= further := by rw [first turn]

theorem moment_free_reading (moments : Nat → σ) (next : σ → StateT Nat m β) (result : m β)
    (alike : ∀ turn, MomentFree (next (moments turn)) result) :
    MomentFree (reading moments >>= next) result := by
  intro turn
  have ran : (reading moments >>= next).run turn = (next (moments turn)).run (turn + 1) := by
    simp [reading]
  rw [ran]
  exact alike turn (turn + 1)

theorem moment_free_map (entries : List α) (each : α → StateT Nat m β) (result : α → m β)
    (alike : ∀ entry ∈ entries, MomentFree (each entry) (result entry)) :
    MomentFree (entries.mapM each) (entries.mapM result) := by
  induction entries with
  | nil =>
      rw [List.mapM_nil, List.mapM_nil]
      exact moment_free_pure []
  | cons entry rest ih =>
      rw [List.mapM_cons, List.mapM_cons]
      refine moment_free_bind _ _ _ _ (alike entry List.mem_cons_self) fun first => ?_
      refine moment_free_bind _ _ _ _ (ih fun other inside =>
          alike other (List.mem_cons_of_mem entry inside)) fun others => ?_
      exact moment_free_pure (first :: others)

end

end Readings
