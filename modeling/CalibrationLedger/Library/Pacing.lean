import CalibrationLedger.Library.Interleaving
import Mathlib.Data.DFinsupp.WellFounded

set_option autoImplicit false

-- Runs whose every statement and answer a policy allows.
namespace Interleaving

section

variable {S : Signature} {ι ρ : Type} [DecidableEq ι] (M : Machine S ι)

abbrev Policy (ρ : Type) := ι → Config M ρ → (query : S.Statement) → S.Response query → Bool

variable (allowed : Policy M ρ)

inductive Paced : Config M ρ → Config M ρ → Prop where
  | step (i : ι) (config : Config M ρ) (query : S.Statement) (resume : S.Response query → Program S ρ)
      (response : S.Response query) (store : M.Store) (before after : M.Supply)
      (active : config.sessions i = some (.call query resume))
      (answer : M.respond i query config.store before = some (response, store, after))
      (fine : allowed i config query response = true) :
      Paced config ⟨store, Function.update config.sessions i (some (resume response))⟩

def PacedRun (before after : Config M ρ) : Prop := Relation.ReflTransGen (Paced M allowed) before after

-- A scheduler that stops where the policy does not allow the answer.
def runPaced : List ι → Config M ρ → M.Supply → Option (Config M ρ × M.Supply)
  | [], config, supply => some (config, supply)
  | i :: rest, config, supply =>
      match config.sessions i with
      | some (.call query resume) =>
          match M.respond i query config.store supply with
          | none => none
          | some (response, store, left) =>
              if allowed i config query response then
                runPaced rest ⟨store, Function.update config.sessions i (some (resume response))⟩ left
              else none
      | _ => none

theorem run_paced (schedule : List ι) (config final : Config M ρ) (supply rest : M.Supply)
    (ran : runPaced M allowed schedule config supply = some (final, rest)) :
    PacedRun M allowed config final := by
  induction schedule generalizing config supply with
  | nil =>
      have same : (config, supply) = (final, rest) := Option.some.inj ran
      cases same
      exact .refl
  | cons i tail ih =>
      rw [runPaced] at ran
      split at ran
      · rename_i query resume active
        split at ran
        · cases ran
        · rename_i response store left answer
          split at ran
          · rename_i fine
            exact .head (.step i config query resume response store supply left active answer fine)
              (ih _ _ ran)
          · cases ran
      · cases ran

theorem run_schedule_once (i : ι) (config next : Config M ρ) (supply rest : M.Supply) (query : S.Statement)
    (resume : S.Response query → Program S ρ) (active : config.sessions i = some (.call query resume))
    (ran : runSchedule M [i] config supply = some (next, rest)) :
    ∃ response left, M.respond i query config.store supply = some (response, next.store, left) ∧
      next.sessions = Function.update config.sessions i (some (resume response)) := by
  rw [runSchedule, active] at ran
  dsimp only at ran
  split at ran
  · cases ran
  · rename_i response store left answer
    cases ran
    exact ⟨response, _, answer, rfl⟩

theorem run_schedule_untouched (schedule : List ι) (config final : Config M ρ) (supply rest : M.Supply)
    (ran : runSchedule M schedule config supply = some (final, rest)) (j : ι) (absent : j ∉ schedule) :
    final.sessions j = config.sessions j := by
  induction schedule generalizing config supply with
  | nil =>
      have same : (config, supply) = (final, rest) := Option.some.inj ran
      cases same
      rfl
  | cons i tail ih =>
      rw [runSchedule] at ran
      split at ran
      · split at ran
        · cases ran
        · obtain ⟨other, later⟩ : j ≠ i ∧ j ∉ tail := by simpa using absent
          rw [ih _ _ ran later]
          simp [other]
      · cases ran

-- What a session has left to do once it has had an answer.
inductive LeftAfterAnswer : Option (Program S ρ) → Option (Program S ρ) → Prop where
  | on (query : S.Statement) (resume : S.Response query → Program S ρ) (response : S.Response query) :
      LeftAfterAnswer (some (resume response)) (some (.call query resume))

theorem left_after_answer_well_founded : WellFounded (LeftAfterAnswer (S := S) (ρ := ρ)) := by
  have program : ∀ program : Program S ρ, Acc LeftAfterAnswer (some program) := by
    intro program
    induction program with
    | done value => exact ⟨_, fun next goes => nomatch goes⟩
    | call query resume ih =>
        refine ⟨_, fun next goes => ?_⟩
        cases goes with
        | on query resume response => exact ih response
  refine ⟨fun session => ?_⟩
  cases session with
  | none => exact ⟨_, fun next goes => nomatch goes⟩
  | some left => exact program left

-- Every statement brings its session nearer its end, so no paced run goes on for ever.
theorem paced_well_founded [Finite ι] :
    WellFounded fun after before : Config M ρ => Paced M allowed before after := by
  have lexed := Pi.Lex.wellFounded (WellOrderingRel (α := ι)) fun _ : ι =>
    left_after_answer_well_founded (S := S) (ρ := ρ)
  refine Subrelation.wf (fun {after before} paced => ?_)
    (InvImage.wf (fun config : Config M ρ => config.sessions) lexed)
  cases paced with
  | step i _ query resume response store supply rest active answer fine =>
      refine ⟨i, fun j earlier => Function.update_of_ne ?_ _ _, ?_⟩
      · rintro rfl
        exact irrefl _ earlier
      · show LeftAfterAnswer (Function.update before.sessions i (some (resume response)) i)
          (before.sessions i)
        rw [Function.update_self, active]
        exact .on query resume response

end

section

variable {S : Signature} {ι ρ τ : Type} (M : Machine S ι)

-- A session going on alone: it never waits, during holds at every statement, and
-- post at the end if every answer is one it can count on.
def Proceeds (i : ι) (during : S.Statement → M.Store → Prop)
    (counted : (query : S.Statement) → S.Response query → M.Store → Prop) (post : ρ → M.Store → Prop) :
    Program S ρ → M.Store → Prop
  | .done value, store => post value store
  | .call query resume, store => during query store ∧ ∀ supply, ∃ response next rest,
      M.respond i query store supply = some (response, next, rest) ∧
        (counted query response store → Proceeds i during counted post (resume response) next)

variable (i : ι) (during : S.Statement → M.Store → Prop)
  (counted : (query : S.Statement) → S.Response query → M.Store → Prop)

theorem proceeds_bind (mid : ρ → M.Store → Prop) (post : τ → M.Store → Prop) (program : Program S ρ)
    (next : ρ → Program S τ) (store : M.Store) (first : Proceeds M i during counted mid program store)
    (second : ∀ value now, mid value now → Proceeds M i during counted post (next value) now) :
    Proceeds M i during counted post (program >>= next) store := by
  induction program generalizing store with
  | done value => exact second value store first
  | call query resume ih =>
      refine ⟨first.1, fun supply => ?_⟩
      obtain ⟨response, after, rest, answer, onward⟩ := first.2 supply
      exact ⟨response, after, rest, answer, fun fine => ih response after (onward fine)⟩

end

end Interleaving
