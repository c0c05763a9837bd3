import CalibrationLedger.Library.Interleaving

set_option autoImplicit false

-- A session that runs alone while its surroundings keep to a kind: what it comes to.
namespace Interleaving

section

variable {S : Signature} {ι ρ τ : Type} (M : Machine S ι) (i : ι) (kind : M.Supply → Prop)

-- Under every supply of the kind it never waits, ends well and leaves a supply of the kind.
def Attains (post : ρ → M.Store → Prop) (program : Program S ρ) (store : M.Store) : Prop :=
  ∀ supply, kind supply → ∃ value final rest,
    runAlone M i program store supply = some (value, final, rest) ∧ kind rest ∧ post value final

theorem attains_done (post : ρ → M.Store → Prop) (value : ρ) (store : M.Store) (good : post value store) :
    Attains M i kind post (.done value) store := fun supply kept => ⟨value, store, supply, rfl, kept, good⟩

theorem attains_call (post : ρ → M.Store → Prop) (query : S.Statement)
    (resume : S.Response query → Program S ρ) (store : M.Store)
    (answers : ∀ supply, kind supply →
      ∃ response next rest, M.respond i query store supply = some (response, next, rest) ∧
      kind rest ∧ Attains M i kind post (resume response) next) :
    Attains M i kind post (.call query resume) store := by
  intro supply kept
  obtain ⟨response, next, rest, answer, still, onward⟩ := answers supply kept
  rw [run_alone_call M i query resume store next supply rest response answer]
  exact onward rest still

theorem attains_bind (mid : ρ → M.Store → Prop) (post : τ → M.Store → Prop) (program : Program S ρ)
    (next : ρ → Program S τ) (store : M.Store) (first : Attains M i kind mid program store)
    (second : ∀ value now, mid value now → Attains M i kind post (next value) now) :
    Attains M i kind post (program >>= next) store := by
  intro supply kept
  obtain ⟨value, now, rest, ran, still, found⟩ := first supply kept
  rw [run_alone_bind M i program next store now supply rest value ran]
  exact second value now found rest still

theorem attains_mono (strong weak : ρ → M.Store → Prop) (program : Program S ρ) (store : M.Store)
    (implies : ∀ value now, strong value now → weak value now)
    (attains : Attains M i kind strong program store) :
    Attains M i kind weak program store := by
  intro supply kept
  obtain ⟨value, final, rest, ran, still, found⟩ := attains supply kept
  exact ⟨value, final, rest, ran, still, implies value final found⟩

end

-- The same for programs that may raise, of which this one does not.
section

variable {S : Signature} {ι ε α β : Type} (M : Machine S ι) (i : ι) (kind : M.Supply → Prop)

def AttainsValue (good : α → M.Store → Prop) (body : ExceptT ε (Program S) α) (store : M.Store) : Prop :=
  Attains M i kind (fun outcome now => ∃ value, outcome = .ok value ∧ good value now) body.run store

theorem attains_value_pure (good : α → M.Store → Prop) (value : α) (store : M.Store)
    (found : good value store) :
    AttainsValue M i kind good (pure value : ExceptT ε (Program S) α) store :=
      attains_done M i kind _ _ store ⟨value, rfl, found⟩

theorem attains_value_bind (mid : α → M.Store → Prop) (good : β → M.Store → Prop)
    (body : ExceptT ε (Program S) α) (next : α → ExceptT ε (Program S) β) (store : M.Store)
    (first : AttainsValue M i kind mid body store)
    (second : ∀ value now, mid value now → AttainsValue M i kind good (next value) now) :
    AttainsValue M i kind good (body >>= next) store := by
  refine attains_bind M i kind _ _ body.run _ store first fun outcome now found => ?_
  obtain ⟨value, rfl, good⟩ := found
  exact second value now good

theorem attains_value_mono (strong weak : α → M.Store → Prop) (body : ExceptT ε (Program S) α)
    (store : M.Store) (implies : ∀ value now, strong value now → weak value now)
    (secures : AttainsValue M i kind strong body store) :
    AttainsValue M i kind weak body store :=
  attains_mono M i kind _ _ body.run store
    (fun _ now ⟨value, is, found⟩ => ⟨value, is, implies value now found⟩) secures

end

end Interleaving
