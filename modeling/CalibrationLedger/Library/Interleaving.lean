import Mathlib.Logic.Function.Basic
import Mathlib.Logic.Relation

set_option autoImplicit false

-- Programs that issue one statement at a time against a shared store, and every
-- interleaving of any number of them. Nothing here names a particular store.
namespace Interleaving

structure Signature where
  Statement : Type
  Response : Statement → Type

-- The tree of everything a caller may still do: finished, or one statement and
-- a continuation for each response. A local variable lives in the continuation.
inductive Program (S : Signature) (ρ : Type) where
  | done (result : ρ)
  | call (statement : S.Statement) (resume : S.Response statement → Program S ρ)

namespace Program

variable {S : Signature} {ρ τ : Type}

def bind : Program S ρ → (ρ → Program S τ) → Program S τ
  | .done result, next => next result
  | .call statement resume, next => .call statement fun response => bind (resume response) next

instance : Monad (Program S) where
  pure := .done
  bind := bind

def statement (query : S.Statement) : Program S (S.Response query) := .call query .done

def result : Program S ρ → Option ρ
  | .done value => some value
  | .call _ _ => none

theorem pure_bind (value : ρ) (next : ρ → Program S τ) :
    ((pure value : Program S ρ) >>= next) = next value := rfl

theorem call_bind (query : S.Statement) (resume : S.Response query → Program S ρ) (next : ρ → Program S τ) :
    (Program.call query resume >>= next) = .call query fun response => resume response >>= next := rfl

end Program

-- The supply holds every choice the program does not make itself: fresh
-- identifiers, clock values, rows another transaction happens to hold. A
-- statement that must wait has no response.
structure Machine (S : Signature) (ι : Type) where
  Store : Type
  Supply : Type
  respond : ι → (query : S.Statement) → Store → Supply → Option (S.Response query × Store × Supply)
  abandon : ι → Store → Store

structure Config {S : Signature} {ι : Type} (M : Machine S ι) (ρ : Type) where
  store : M.Store
  sessions : ι → Option (Program S ρ)

section Runs

variable {S : Signature} {ι ρ : Type} [DecidableEq ι] (M : Machine S ι)

inductive Exec (i : ι) : Config M ρ → Config M ρ → Prop where
  | step (config : Config M ρ) (query : S.Statement) (resume : S.Response query → Program S ρ)
      (response : S.Response query) (store : M.Store) (before after : M.Supply)
      (active : config.sessions i = some (.call query resume))
      (answer : M.respond i query config.store before = some (response, store, after)) :
      Exec i config ⟨store, Function.update config.sessions i (some (resume response))⟩

-- A lost connection: the store forgets what the session held and nobody resumes it.
inductive Crash (i : ι) : Config M ρ → Config M ρ → Prop where
  | step (config : Config M ρ) (query : S.Statement) (resume : S.Response query → Program S ρ)
      (active : config.sessions i = some (.call query resume)) :
      Crash i config ⟨M.abandon i config.store, Function.update config.sessions i none⟩

def Step (before after : Config M ρ) : Prop := ∃ i, Exec M i before after ∨ Crash M i before after

def Reaches (before after : Config M ρ) : Prop := Relation.ReflTransGen (Step M) before after

def finished (config : Config M ρ) (i : ι) : Option ρ := (config.sessions i).bind Program.result

-- One session running while every other one stands still.
def runAlone (i : ι) : Program S ρ → M.Store → M.Supply → Option (ρ × M.Store × M.Supply)
  | .done value, store, supply => some (value, store, supply)
  | .call query resume, store, supply =>
      match M.respond i query store supply with
      | none => none
      | some (response, next, rest) => runAlone i (resume response) next rest

omit [DecidableEq ι] in
theorem finished_done (config : Config M ρ) (i : ι) (value : ρ) :
    finished M config i = some value ↔ config.sessions i = some (.done value) := by
  cases session : config.sessions i with
  | none => simp [finished, session]
  | some program => cases program <;> simp [finished, session, Program.result]

theorem finished_step (before after : Config M ρ) (step : Step M before after) (i : ι) (value : ρ)
    (ended : finished M before i = some value) : finished M after i = some value := by
  rw [finished_done] at ended ⊢
  obtain ⟨j, exec | crash⟩ := step
  · cases exec with
    | step query resume response store supply rest active answer =>
        have other : i ≠ j := by
          rintro rfl
          rw [ended] at active
          cases active
        simpa [other] using ended
  · cases crash with
    | step query resume active =>
        have other : i ≠ j := by
          rintro rfl
          rw [ended] at active
          cases active
        simpa [other] using ended

-- A scheduler: each entry lets that session issue its next statement.
def runSchedule : List ι → Config M ρ → M.Supply → Option (Config M ρ × M.Supply)
  | [], config, supply => some (config, supply)
  | i :: rest, config, supply =>
      match config.sessions i with
      | some (.call query resume) =>
          match M.respond i query config.store supply with
          | none => none
          | some (response, store, left) =>
              runSchedule rest ⟨store, Function.update config.sessions i (some (resume response))⟩ left
      | _ => none

theorem reaches_refl (config : Config M ρ) : Reaches M config config := Relation.ReflTransGen.refl

theorem reaches_trans (a b c : Config M ρ) (first : Reaches M a b) (second : Reaches M b c) : Reaches M a c :=
  Relation.ReflTransGen.trans first second

theorem run_alone_reaches (i : ι) (program : Program S ρ) (config : Config M ρ) (supply rest : M.Supply)
    (value : ρ) (store : M.Store) (active : config.sessions i = some program)
    (ran : runAlone M i program config.store supply = some (value, store, rest)) :
    Reaches M config ⟨store, Function.update config.sessions i (some (.done value))⟩ := by
  induction program generalizing config supply with
  | done found =>
      have same : (found, config.store, supply) = (value, store, rest) := Option.some.inj ran
      cases same
      rw [← active, Function.update_eq_self]
      exact reaches_refl M config
  | call query resume ih =>
      rw [runAlone] at ran
      cases answer : M.respond i query config.store supply with
      | none => simp [answer] at ran
      | some reply =>
          obtain ⟨response, next, left⟩ := reply
          rw [answer] at ran
          have onward := ih response ⟨next, Function.update config.sessions i (some (resume response))⟩ left
            (by simp) ran
          rw [Function.update_idem] at onward
          exact Relation.ReflTransGen.head
            ⟨i, .inl (Exec.step config query resume response next supply left active answer)⟩ onward

theorem run_schedule_reaches (schedule : List ι) (config final : Config M ρ) (supply rest : M.Supply)
    (ran : runSchedule M schedule config supply = some (final, rest)) : Reaches M config final := by
  induction schedule generalizing config supply with
  | nil =>
      have same : (config, supply) = (final, rest) := Option.some.inj ran
      cases same
      exact reaches_refl M _
  | cons i tail ih =>
      rw [runSchedule] at ran
      split at ran
      · rename_i query resume active
        split at ran
        · cases ran
        · rename_i response store left answer
          exact Relation.ReflTransGen.head
            ⟨i, .inl (Exec.step config query resume response store supply left active answer)⟩ (ih _ _ ran)
      · cases ran

-- Alone and whatever it is supplied with, the session answers and ends well.
def Completes (i : ι) (post : ρ → M.Store → Prop) : Program S ρ → M.Store → Prop
  | .done value, store => post value store
  | .call query resume, store => ∀ supply, ∃ response next rest,
      M.respond i query store supply = some (response, next, rest) ∧ Completes i post (resume response) next

end Runs

section

variable {S : Signature} {ι ρ τ : Type} (M : Machine S ι)

theorem run_call (i : ι) (query : S.Statement) (resume : S.Response query → Program S ρ) (store : M.Store)
    (supply : M.Supply) (result : ρ × M.Store × M.Supply)
    (ran : runAlone M i (.call query resume) store supply = some result) :
    ∃ response after rest, M.respond i query store supply = some (response, after, rest) ∧
      runAlone M i (resume response) after rest = some result := by
  rw [runAlone] at ran
  split at ran
  · cases ran
  · rename_i response after rest answer
    exact ⟨response, after, rest, answer, ran⟩

theorem run_bind (i : ι) (program : Program S ρ) (next : ρ → Program S τ) (store : M.Store)
    (supply : M.Supply) (result : τ × M.Store × M.Supply)
    (ran : runAlone M i (program >>= next) store supply = some result) :
    ∃ value after rest, runAlone M i program store supply = some (value, after, rest) ∧
      runAlone M i (next value) after rest = some result := by
  induction program generalizing store supply with
  | done value => exact ⟨value, store, supply, rfl, ran⟩
  | call query resume ih =>
      obtain ⟨response, after, left, answer, onward⟩ := run_call M i query _ store supply result ran
      rw [runAlone, answer]
      exact ih response after left onward

theorem run_alone_call (i : ι) (query : S.Statement) (resume : S.Response query → Program S ρ)
    (store after : M.Store) (supply left : M.Supply) (response : S.Response query)
    (answer : M.respond i query store supply = some (response, after, left)) :
    runAlone M i (.call query resume) store supply = runAlone M i (resume response) after left := by
  rw [runAlone, answer]

theorem run_alone_bind (i : ι) (program : Program S ρ) (next : ρ → Program S τ) (store after : M.Store)
    (supply left : M.Supply) (value : ρ)
    (ran : runAlone M i program store supply = some (value, after, left)) :
    runAlone M i (program >>= next) store supply = runAlone M i (next value) after left := by
  induction program generalizing store supply with
  | done found =>
      cases ran
      rfl
  | call query resume ih =>
      obtain ⟨response, middle, rest, answer, onward⟩ := run_call M i query resume store supply _ ran
      refine (run_alone_call M i query
          (fun response => resume response >>= next) store middle supply rest response answer).trans ?_
      exact ih response middle rest onward

theorem completes_run (i : ι) (post : ρ → M.Store → Prop) (program : Program S ρ) (store : M.Store)
    (completes : Completes M i post program store) (supply : M.Supply) :
    ∃ value final rest, runAlone M i program store supply = some (value, final, rest) ∧ post value final := by
  induction program generalizing store supply with
  | done value => exact ⟨value, store, supply, rfl, completes⟩
  | call query resume ih =>
      obtain ⟨response, next, rest, answer, onward⟩ := completes supply
      obtain ⟨value, final, left, ran, good⟩ := ih response next onward rest
      exact ⟨value, final, left, by rw [runAlone, answer]; exact ran, good⟩

theorem completes_bind (i : ι) (mid : ρ → M.Store → Prop) (post : τ → M.Store → Prop) (program : Program S ρ)
    (next : ρ → Program S τ) (store : M.Store) (first : Completes M i mid program store)
    (second : ∀ value now, mid value now → Completes M i post (next value) now) :
    Completes M i post (program >>= next) store := by
  induction program generalizing store with
  | done value => exact second value store first
  | call query resume ih =>
      intro supply
      obtain ⟨response, after, rest, answer, onward⟩ := first supply
      exact ⟨response, after, rest, answer, ih response after onward⟩

theorem completes_mono (i : ι) (strong weak : ρ → M.Store → Prop) (program : Program S ρ)
    (store : M.Store) (implies : ∀ value now, strong value now → weak value now)
    (completes : Completes M i strong program store) :
    Completes M i weak program store := by
  induction program generalizing store with
  | done value => exact implies value store completes
  | call query resume ih =>
      intro supply
      obtain ⟨response, after, rest, answer, onward⟩ := completes supply
      exact ⟨response, after, rest, answer, ih response after onward⟩

end

section

variable {S : Signature} {ι ρ τ : Type}

-- A program that issues statements of one kind only.
def Confined (allowed : S.Statement → Prop) : Program S ρ → Prop
  | .done _ => True
  | .call query resume => allowed query ∧ ∀ response, Confined allowed (resume response)

theorem confined_bind (allowed : S.Statement → Prop) (program : Program S ρ) (next : ρ → Program S τ)
    (first : Confined allowed program) (second : ∀ value, Confined allowed (next value)) :
    Confined allowed (program >>= next) := by
  induction program with
  | done value => exact second value
  | call query resume ih => exact ⟨first.1, fun response => ih response (first.2 response)⟩

-- The claim holds of every statement the program can come to, with what it does on the answer.
def Everywhere (claim : (query : S.Statement) → (S.Response query → Program S ρ) → Prop) : Program S ρ → Prop
  | .done _ => True
  | .call query resume => claim query resume ∧ ∀ response, Everywhere claim (resume response)

theorem confined_everywhere (allowed : S.Statement → Prop) (program : Program S ρ) :
    Confined allowed program ↔ Everywhere (fun query _ => allowed query) program := by
  induction program with
  | done value => exact Iff.rfl
  | call query resume ih => exact and_congr_right fun _ => forall_congr' ih

theorem everywhere_mono (strong weak : (query : S.Statement) → (S.Response query → Program S ρ) → Prop)
    (program : Program S ρ) (implies : ∀ query resume, strong query resume → weak query resume)
    (everywhere : Everywhere strong program) :
    Everywhere weak program := by
  induction program with
  | done value => trivial
  | call query resume ih =>
      exact ⟨implies query resume everywhere.1, fun response => ih response (everywhere.2 response)⟩

theorem confined_mono (strong weak : S.Statement → Prop) (program : Program S ρ)
    (implies : ∀ query, strong query → weak query) (confined : Confined strong program) :
    Confined weak program :=
  (confined_everywhere weak program).mpr (everywhere_mono _ _ program (fun query _ => implies query)
    ((confined_everywhere strong program).mp confined))

theorem everywhere_step [DecidableEq ι] (M : Machine S ι)
    (claim : (query : S.Statement) → (S.Response query → Program S ρ) → Prop)
    (before after : Config M ρ) (step : Step M before after) (j : ι)
    (everywhere : ∀ program, before.sessions j = some program → Everywhere claim program)
    (program : Program S ρ) (session : after.sessions j = some program) : Everywhere claim program := by
  obtain ⟨i, exec | crash⟩ := step
  · cases exec with
    | step query resume response store supply rest active answer =>
        by_cases same : j = i
        · subst j
          have resumed : resume response = program := by simpa using session
          rw [← resumed]
          exact (everywhere _ active).2 response
        · exact everywhere program (by simpa [same] using session)
  · cases crash with
    | step query resume active =>
        by_cases same : j = i
        · simp [same] at session
        · exact everywhere program (by simpa [same] using session)

theorem confined_step [DecidableEq ι] (M : Machine S ι) (allowed : S.Statement → Prop)
    (before after : Config M ρ) (step : Step M before after) (j : ι)
    (confined : ∀ program, before.sessions j = some program → Confined allowed program)
    (program : Program S ρ) (session : after.sessions j = some program) : Confined allowed program :=
  (confined_everywhere allowed program).mpr (everywhere_step M _ before after step j
    (fun found was => (confined_everywhere allowed found).mp (confined found was)) program session)

end

end Interleaving
