import CalibrationLedger.Library.Interleaving

set_option autoImplicit false

-- Programs that only read, each statement at a later moment of a state that moves on.
namespace Moments

open Interleaving

section

variable {S : Signature} {σ ρ τ : Type} (answer : (query : S.Statement) → σ → S.Response query)

-- What the program returns, and the moments it leaves for whoever comes next.
def readAlong : Program S ρ → (Nat → σ) → ρ × (Nat → σ)
  | .done value, moments => (value, moments)
  | .call query resume, moments => readAlong (resume (answer query (moments 0))) fun turn =>
      moments (turn + 1)

theorem read_along_bind (program : Program S ρ) (next : ρ → Program S τ) (moments : Nat → σ) :
    readAlong answer (program >>= next) moments =
      readAlong answer (next (readAlong answer program moments).1) (readAlong answer program moments).2 := by
  induction program generalizing moments with
  | done value => rfl
  | call query resume ih => exact ih (answer query (moments 0)) fun turn => moments (turn + 1)

theorem left_seen (seen : σ → Prop) (program : Program S ρ) (moments : Nat → σ)
    (all : ∀ turn, seen (moments turn)) :
    ∀ turn, seen ((readAlong answer program moments).2 turn) := by
  induction program generalizing moments with
  | done value => exact all
  | call query resume ih =>
      exact ih (answer query (moments 0)) (fun turn => moments (turn + 1)) fun turn => all (turn + 1)

variable (seen : σ → Prop)

-- Along any moments that are seen, the program returns this.
def AlwaysReturns (program : Program S ρ) (result : ρ) : Prop :=
  ∀ moments, (∀ turn, seen (moments turn)) → (readAlong answer program moments).1 = result

theorem always_returns_done (value : ρ) : AlwaysReturns answer seen (.done value) value := fun _ _ => rfl

theorem always_returns_call (query : S.Statement) (resume : S.Response query → Program S ρ)
    (response : S.Response query) (result : ρ) (alike : ∀ now, seen now → answer query now = response)
    (onward : AlwaysReturns answer seen (resume response) result) :
    AlwaysReturns answer seen (.call query resume) result := by
  intro moments all
  rw [readAlong, alike (moments 0) (all 0)]
  exact onward _ fun turn => all (turn + 1)

theorem always_returns_bind (program : Program S ρ) (next : ρ → Program S τ) (value : ρ) (result : τ)
    (first : AlwaysReturns answer seen program value)
    (second : AlwaysReturns answer seen (next value) result) :
    AlwaysReturns answer seen (program >>= next) result := by
  intro moments all
  rw [read_along_bind, first moments all]
  exact second _ (left_seen answer seen program moments all)

end

-- The same for programs that may raise.
section

variable {S : Signature} {σ ε α β : Type} (answer : (query : S.Statement) → σ → S.Response query)
  (seen : σ → Prop)

def Serves (program : ExceptT ε (Program S) α) (outcome : Except ε α) : Prop :=
  AlwaysReturns answer seen program.run outcome

theorem serves_lift (outcome : Except ε α) :
    Serves answer seen (liftM outcome : ExceptT ε (Program S) α) outcome := by
  cases outcome <;> exact always_returns_done answer seen _

theorem serves_ask (query : S.Statement) (response : S.Response query)
    (next : S.Response query → ExceptT ε (Program S) α) (outcome : Except ε α)
    (alike : ∀ now, seen now → answer query now = response)
    (onward : Serves answer seen (next response) outcome) :
    Serves answer seen (ExceptT.lift (Program.statement query) >>= next) outcome :=
  always_returns_call answer seen query _ response outcome alike onward

theorem serves_bind (program : ExceptT ε (Program S) α) (next : α → ExceptT ε (Program S) β)
    (outcome : Except ε α) (further : α → Except ε β) (first : Serves answer seen program outcome)
    (second : ∀ value, outcome = .ok value → Serves answer seen (next value) (further value)) :
    Serves answer seen (program >>= next) (outcome >>= further) := by
  refine always_returns_bind answer seen program.run _ outcome _ first ?_
  cases outcome with
  | error error => exact always_returns_done answer seen _
  | ok value => exact second value rfl

end

end Moments
