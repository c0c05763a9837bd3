import CalibrationLedger.Library.Interleaving

set_option autoImplicit false

namespace Interleaving

-- What a statement may assume and what it owes. Inv holds between statements;
-- Rely i is what session i may see the others do; Pre is what a statement asks
-- of the program that issues it.
structure Discipline {S : Signature} {ι : Type} (M : Machine S ι) where
  Inv : M.Store → Prop
  Rely : ι → M.Store → M.Store → Prop
  Pre : ι → S.Statement → M.Store → Prop
  rely_refl : ∀ i store, Rely i store store
  rely_trans : ∀ i a b c, Rely i a b → Rely i b c → Rely i a c
  respond_keeps : ∀ i query store before response next after, Inv store → Pre i query store →
    M.respond i query store before = some (response, next, after) → Inv next ∧ ∀ j, j ≠ i → Rely j store next
  abandon_keeps : ∀ i store, Inv store →
    Inv (M.abandon i store) ∧ ∀ j, j ≠ i → Rely j store (M.abandon i store)

section

variable {S : Signature} {ι ρ τ : Type} {M : Machine S ι} (D : Discipline M)

-- The weakest condition on the store under which every statement the program
-- can still issue meets its precondition, whatever the others do in between.
def Verified (i : ι) (post : ρ → M.Store → Prop) : Program S ρ → M.Store → Prop
  | .done value, store => ∀ now, D.Inv now → D.Rely i store now → post value now
  | .call query resume, store => ∀ now, D.Inv now → D.Rely i store now →
      D.Pre i query now ∧ ∀ response next before after,
        M.respond i query now before = some (response, next, after) → Verified i post (resume response) next

theorem verified_stable (i : ι) (post : ρ → M.Store → Prop) (program : Program S ρ) (store later : M.Store)
    (rely : D.Rely i store later) (verified : Verified D i post program store) :
    Verified D i post program later := by
  cases program with
  | done value => exact fun now inv onward => verified now inv (D.rely_trans i store later now rely onward)
  | call query resume =>
      exact fun now inv onward => verified now inv (D.rely_trans i store later now rely onward)

theorem verified_of_later (i : ι) (post : ρ → M.Store → Prop) (program : Program S ρ) (store : M.Store)
    (later : ∀ now, D.Inv now → D.Rely i store now → Verified D i post program now) :
    Verified D i post program store := by
  cases program with
  | done value => exact fun now inv rely => later now inv rely now inv (D.rely_refl i now)
  | call query resume => exact fun now inv rely => later now inv rely now inv (D.rely_refl i now)

theorem verified_bind (i : ι) (mid : ρ → M.Store → Prop) (post : τ → M.Store → Prop) (program : Program S ρ)
    (next : ρ → Program S τ) (store : M.Store) (first : Verified D i mid program store)
    (second : ∀ value now, D.Inv now → mid value now → Verified D i post (next value) now) :
    Verified D i post (program >>= next) store := by
  induction program generalizing store with
  | done value =>
      exact verified_of_later D i post _ store fun now inv rely => second value now inv (first now inv rely)
  | call query resume ih =>
      intro now inv rely
      obtain ⟨pre, onward⟩ := first now inv rely
      exact ⟨pre, fun response after before left answer => ih response after
        (onward response after before left answer)⟩

theorem verified_mono (i : ι) (weak strong : ρ → M.Store → Prop) (program : Program S ρ)
    (store : M.Store) (implies : ∀ value now, strong value now → weak value now)
    (verified : Verified D i strong program store) :
    Verified D i weak program store := by
  induction program generalizing store with
  | done value => exact fun now inv rely => implies value now (verified now inv rely)
  | call query resume ih =>
      intro now inv rely
      obtain ⟨pre, onward⟩ := verified now inv rely
      exact ⟨pre, fun response after before left answer => ih response after
        (onward response after before left answer)⟩

-- What a program ends with that keeps to its discipline: Pre is given here, not owed.
def Ensures (i : ι) (post : ρ → M.Store → Prop) : Program S ρ → M.Store → Prop
  | .done value, store => ∀ now, D.Inv now → D.Rely i store now → post value now
  | .call query resume, store => ∀ now, D.Inv now → D.Rely i store now → D.Pre i query now →
      ∀ response next before after, M.respond i query now before = some (response, next, after) →
      Ensures i post (resume response) next

theorem ensures_of_later (i : ι) (post : ρ → M.Store → Prop) (program : Program S ρ) (store : M.Store)
    (later : ∀ now, D.Inv now → D.Rely i store now → Ensures D i post program now) :
    Ensures D i post program store := by
  cases program with
  | done value => exact fun now inv rely => later now inv rely now inv (D.rely_refl i now)
  | call query resume => exact fun now inv rely => later now inv rely now inv (D.rely_refl i now)

theorem ensures_bind (i : ι) (mid : ρ → M.Store → Prop) (post : τ → M.Store → Prop) (program : Program S ρ)
    (next : ρ → Program S τ) (store : M.Store) (first : Ensures D i mid program store)
    (second : ∀ value now, D.Inv now → mid value now → Ensures D i post (next value) now) :
    Ensures D i post (program >>= next) store := by
  induction program generalizing store with
  | done value =>
      exact ensures_of_later D i post _ store fun now inv rely => second value now inv (first now inv rely)
  | call query resume ih =>
      intro now inv rely pre response after before left answer
      exact ih response after (first now inv rely pre response after before left answer)

theorem ensures_mono (i : ι) (weak strong : ρ → M.Store → Prop) (program : Program S ρ) (store : M.Store)
    (implies : ∀ value now, strong value now → weak value now) (ensures : Ensures D i strong program store) :
    Ensures D i weak program store := by
  induction program generalizing store with
  | done value => exact fun now inv rely => implies value now (ensures now inv rely)
  | call query resume ih =>
      intro now inv rely pre response after before left answer
      exact ih response after (ensures now inv rely pre response after before left answer)

theorem ensures_of_verified (i : ι) (post : ρ → M.Store → Prop) (program : Program S ρ) (store : M.Store)
    (verified : Verified D i post program store) : Ensures D i post program store := by
  induction program generalizing store with
  | done value => exact verified
  | call query resume ih =>
      intro now inv rely _ response after before left answer
      exact ih response after ((verified now inv rely).2 response after before left answer)

theorem verified_ensures (i : ι) (good post : ρ → M.Store → Prop) (program : Program S ρ) (store : M.Store)
    (verified : Verified D i good program store) (ensures : Ensures D i post program store) :
    Verified D i (fun value now => good value now ∧ post value now) program store := by
  induction program generalizing store with
  | done value => exact fun now inv rely => ⟨verified now inv rely, ensures now inv rely⟩
  | call query resume ih =>
      intro now inv rely
      obtain ⟨pre, onward⟩ := verified now inv rely
      exact ⟨pre, fun response after before left answer =>
        ih response after (onward response after before left answer)
          (ensures now inv rely pre response after before left answer)⟩

theorem ensures_stable (i : ι) (post : ρ → M.Store → Prop) (program : Program S ρ)
    (store later : M.Store) (rely : D.Rely i store later) (ensures : Ensures D i post program store) :
    Ensures D i post program later := by
  cases program with
  | done value => exact fun now inv onward => ensures now inv (D.rely_trans i store later now rely onward)
  | call query resume =>
      exact fun now inv onward => ensures now inv (D.rely_trans i store later now rely onward)

-- What is claimed of every statement the program comes to, and of the store it finds there.
def Along (i : ι) (claim : (query : S.Statement) → (S.Response query → Program S ρ) → M.Store → Prop) :
    Program S ρ → M.Store → Prop
  | .done _, _ => True
  | .call query resume, store => ∀ now, D.Inv now → D.Rely i store now → D.Pre i query now →
      claim query resume now ∧
      ∀ response next before after, M.respond i query now before = some (response, next, after) →
      Along i claim (resume response) next

theorem along_stable (i : ι)
    (claim : (query : S.Statement) → (S.Response query → Program S ρ) → M.Store → Prop)
    (program : Program S ρ) (store later : M.Store) (rely : D.Rely i store later)
    (holds : Along D i claim program store) :
    Along D i claim program later := by
  cases program with
  | done value => trivial
  | call query resume =>
      exact fun now inv onward => holds now inv (D.rely_trans i store later now rely onward)

theorem along_of_later (i : ι)
    (claim : (query : S.Statement) → (S.Response query → Program S ρ) → M.Store → Prop)
    (program : Program S ρ) (store : M.Store)
    (later : ∀ now, D.Inv now → D.Rely i store now → Along D i claim program now) :
    Along D i claim program store := by
  cases program with
  | done value => trivial
  | call query resume => exact fun now inv rely => later now inv rely now inv (D.rely_refl i now)

theorem along_bind (i : ι)
    (claim : (query : S.Statement) → (S.Response query → Program S τ) → M.Store → Prop)
    (allowed : S.Statement → Prop) (idle : ∀ query resume now, allowed query → claim query resume now)
    (mid : ρ → M.Store → Prop) (program : Program S ρ) (next : ρ → Program S τ) (store : M.Store)
    (confined : Confined allowed program) (first : Ensures D i mid program store)
    (second : ∀ value now, D.Inv now → mid value now → Along D i claim (next value) now) :
    Along D i claim (program >>= next) store := by
  induction program generalizing store with
  | done value =>
      exact along_of_later D i claim _ store fun now inv rely => second value now inv (first now inv rely)
  | call query resume ih =>
      intro now inv rely pre
      refine ⟨idle query _ now confined.1, fun response after before left answer => ?_⟩
      exact ih response after (confined.2 response) (first now inv rely pre response after before left answer)

theorem along_confined (i : ι)
    (claim : (query : S.Statement) → (S.Response query → Program S ρ) → M.Store → Prop)
    (allowed : S.Statement → Prop) (idle : ∀ query resume now, allowed query → claim query resume now)
    (program : Program S ρ) (store : M.Store) (confined : Confined allowed program) :
    Along D i claim program store := by
  induction program generalizing store with
  | done value => trivial
  | call query resume ih =>
      exact fun now _ _ _ =>
        ⟨idle query resume now confined.1, fun response after _ _ _ => ih response after
          (confined.2 response)⟩

theorem along_before (i : ι)
    (claim : (query : S.Statement) → (S.Response query → Program S ρ) → M.Store → Prop)
    (wider : (query : S.Statement) → (S.Response query → Program S τ) → M.Store → Prop)
    (program : Program S ρ) (next : ρ → Program S τ) (store : M.Store)
    (widens : ∀ query resume now, claim query resume now →
      wider query (fun response => resume response >>= next) now)
    (ends : ∀ value now, Along D i wider (next value) now) (holds : Along D i claim program store) :
    Along D i wider (program >>= next) store := by
  induction program generalizing store with
  | done value => exact ends value store
  | call query resume ih =>
      intro now inv rely pre
      obtain ⟨claimed, onward⟩ := holds now inv rely pre
      exact ⟨widens query resume now claimed, fun response after before left answer =>
        ih response after (onward response after before left answer)⟩

section

variable (Guarantee : M.Store → M.Store → Prop) (same : ∀ store, Guarantee store store)
variable (along : ∀ a b c, Guarantee a b → Guarantee b c → Guarantee a c)
variable (respond : ∀ i query store before response next after, D.Inv store → D.Pre i query store →
  M.respond i query store before = some (response, next, after) → Guarantee store next)
variable (abandon : ∀ i store, D.Inv store → Guarantee store (M.abandon i store))

-- The same statements, beside sessions that guarantee more.
def Discipline.also : Discipline M where
  Inv := D.Inv
  Rely i before after := D.Rely i before after ∧ Guarantee before after
  Pre := D.Pre
  rely_refl i store := ⟨D.rely_refl i store, same store⟩
  rely_trans i a b c first second := ⟨D.rely_trans i a b c first.1 second.1, along a b c first.2 second.2⟩
  respond_keeps i query store before response next after inv pre answer := by
    obtain ⟨kept, rely⟩ := D.respond_keeps i query store before response next after inv pre answer
    exact ⟨kept, fun j other =>
      ⟨rely j other, respond i query store before response next after inv pre answer⟩⟩
  abandon_keeps i store inv := by
    obtain ⟨kept, rely⟩ := D.abandon_keeps i store inv
    exact ⟨kept, fun j other => ⟨rely j other, abandon i store inv⟩⟩

theorem verified_also (i : ι) (post : ρ → M.Store → Prop) (program : Program S ρ) (store : M.Store)
    (verified : Verified D i post program store) :
    Verified (D.also Guarantee same along respond abandon) i post program store := by
  induction program generalizing store with
  | done value => exact fun now inv rely => verified now inv rely.1
  | call query resume ih =>
      intro now inv rely
      obtain ⟨pre, onward⟩ := verified now inv rely.1
      exact ⟨pre, fun response after before left answer => ih response after
        (onward response after before left answer)⟩

end

-- The invariant of a run: the store is in order and every live session is still
-- verified from some store it has since only relied on.
structure Disciplined [DecidableEq ι] (post : ι → ρ → M.Store → Prop) (config : Config M ρ) : Prop where
  inv : D.Inv config.store
  verified : ∀ i program, config.sessions i = some program → Verified D i (post i) program config.store

variable [DecidableEq ι]

theorem disciplined_step (post : ι → ρ → M.Store → Prop) (before after : Config M ρ)
    (disciplined : Disciplined D post before) (step : Step M before after) : Disciplined D post after := by
  obtain ⟨i, exec | crash⟩ := step
  · cases exec with
    | step query resume response store supply rest active answer =>
        obtain ⟨pre, onward⟩ := disciplined.verified i _ active before.store disciplined.inv (D.rely_refl i _)
        obtain ⟨inv, rely⟩ :=
          D.respond_keeps i query before.store supply response store rest disciplined.inv pre answer
        refine ⟨inv, fun j program session => ?_⟩
        by_cases same : j = i
        · subst j
          have resumed : resume response = program := by simpa using session
          rw [← resumed]
          exact onward response store supply rest answer
        · have untouched : before.sessions j = some program := by simpa [same] using session
          exact verified_stable D j (post j) program before.store store (rely j same)
            (disciplined.verified j program untouched)
  · cases crash with
    | step query resume active =>
        obtain ⟨inv, rely⟩ := D.abandon_keeps i before.store disciplined.inv
        refine ⟨inv, fun j program session => ?_⟩
        by_cases same : j = i
        · simp [same] at session
        · have untouched : before.sessions j = some program := by simpa [same] using session
          exact verified_stable D j (post j) program before.store _ (rely j same)
            (disciplined.verified j program untouched)

theorem disciplined_run (post : ι → ρ → M.Store → Prop) (before after : Config M ρ)
    (disciplined : Disciplined D post before) (run : Reaches M before after) : Disciplined D post after := by
  induction run with
  | refl => exact disciplined
  | tail _ step ih => exact disciplined_step D post _ _ ih step

theorem session_step (post : ι → ρ → M.Store → Prop) (i : ι) (holds : Program S ρ → M.Store → Prop)
    (stable : ∀ program store later, D.Inv later → D.Rely i store later → holds program store →
      holds program later)
    (advance : ∀ query resume store before response next after, D.Inv store → D.Pre i query store →
      M.respond i query store before = some (response, next, after) → holds (.call query resume) store →
      holds (resume response) next)
    (before after : Config M ρ) (disciplined : Disciplined D post before) (step : Step M before after)
    (start : ∀ program, before.sessions i = some program → holds program before.store)
    (program : Program S ρ) (session : after.sessions i = some program) :
    holds program after.store := by
  obtain ⟨j, exec | crash⟩ := step
  · cases exec with
    | step query resume response store supply rest active answer =>
        obtain ⟨pre, _⟩ := disciplined.verified j _ active before.store disciplined.inv (D.rely_refl j _)
        obtain ⟨inv, rely⟩ :=
          D.respond_keeps j query before.store supply response store rest disciplined.inv pre answer
        by_cases same : i = j
        · subst i
          have resumed : resume response = program := by simpa using session
          rw [← resumed]
          exact advance query resume _ supply response store rest disciplined.inv pre answer (start _ active)
        · exact stable program _ store inv (rely i same) (start program (by simpa [same] using session))
  · cases crash with
    | step query resume active =>
        obtain ⟨inv, rely⟩ := D.abandon_keeps j before.store disciplined.inv
        by_cases same : i = j
        · simp [same] at session
        · exact stable program _ _ inv (rely i same) (start program (by simpa [same] using session))

-- What every statement of a disciplined program guarantees, a whole run does.
theorem guarantee_run (post : ι → ρ → M.Store → Prop) (Guarantee : M.Store → M.Store → Prop)
    (same : ∀ store, Guarantee store store)
    (along : ∀ a b c, Guarantee a b → Guarantee b c → Guarantee a c)
    (respond : ∀ i query store before response next after, D.Inv store → D.Pre i query store →
      M.respond i query store before = some (response, next, after) → Guarantee store next)
    (abandon : ∀ i store, D.Inv store → Guarantee store (M.abandon i store)) (before after : Config M ρ)
    (disciplined : Disciplined D post before) (run : Reaches M before after) :
    Guarantee before.store after.store := by
  induction run with
  | refl => exact same _
  | tail reached step ih =>
      have onward := disciplined_run D post _ _ disciplined reached
      refine along _ _ _ ih ?_
      obtain ⟨i, exec | crash⟩ := step
      · cases exec with
        | step query resume response store supply rest active answer =>
            obtain ⟨pre, _⟩ := onward.verified i _ active _ onward.inv (D.rely_refl i _)
            exact respond i query _ supply response store rest onward.inv pre answer
      · cases crash with
        | step query resume active => exact abandon i _ onward.inv

end

end Interleaving
