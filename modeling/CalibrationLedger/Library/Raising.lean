import Mathlib.Control.Lawful
import CalibrationLedger.Library.RelyGuarantee

set_option autoImplicit false

-- Rules for disciplined programs that may end with an exception.
namespace Interleaving

section

variable {S : Signature} {ρ τ υ : Type}

theorem bind_done (program : Program S ρ) : (program >>= Program.done) = program := by
  induction program with
  | done value => rfl
  | call query resume ih =>
      rw [Program.call_bind]
      exact congrArg (Program.call query) (funext ih)

theorem bind_assoc (program : Program S ρ) (first : ρ → Program S τ) (second : τ → Program S υ) :
    ((program >>= first) >>= second) = (program >>= fun value => first value >>= second) := by
  induction program with
  | done value => rfl
  | call query resume ih =>
      rw [Program.call_bind, Program.call_bind, Program.call_bind]
      exact congrArg (Program.call query) (funext ih)

instance : LawfulMonad (Program S) := LawfulMonad.mk' (Program S) bind_done (fun _ _ => rfl) bind_assoc

end

section

variable {S : Signature} {ι ε α β : Type} {M : Machine S ι} (D : Discipline M)

def Lasts (i : ι) (assertion : M.Store → Prop) : Prop :=
  ∀ store now, D.Inv now → D.Rely i store now → assertion store → assertion now

def Post (good : α → M.Store → Prop) (bad : ε → M.Store → Prop) : Except ε α → M.Store → Prop
  | .ok value => good value
  | .error error => bad error

-- The program keeps to its discipline; what it returns is good, what it raises bad.
def Upholds (i : ι) (good : α → M.Store → Prop) (bad : ε → M.Store → Prop) (body : ExceptT ε (Program S) α)
    (store : M.Store) : Prop := Verified D i (Post good bad) body.run store

variable (i : ι) (bad : ε → M.Store → Prop) (store : M.Store)

theorem upholds_pure (good : α → M.Store → Prop) (value : α) (lasts : Lasts D i (good value))
    (holds : good value store) : Upholds D i good bad (pure value) store :=
  fun now inv rely => lasts store now inv rely holds

theorem upholds_throw (good : α → M.Store → Prop) (error : ε) (lasts : Lasts D i (bad error))
    (holds : bad error store) :
    Upholds D i good bad (throw error : ExceptT ε (Program S) α) store := fun now inv rely =>
      lasts store now inv rely holds

theorem upholds_bind (mid : α → M.Store → Prop) (good : β → M.Store → Prop)
    (lasts : ∀ error, Lasts D i (bad error)) (body : ExceptT ε (Program S) α)
    (next : α → ExceptT ε (Program S) β) (first : Upholds D i mid bad body store)
    (second : ∀ value now, D.Inv now → mid value now → Upholds D i good bad (next value) now) :
    Upholds D i good bad (body >>= next) store := by
  refine verified_bind D i (Post mid bad)
    (Post good bad) body.run _ store first fun outcome now inv found => ?_
  cases outcome with
  | ok value => exact second value now inv found
  | error error => exact fun later invLater rely => lasts error now later invLater rely found

theorem upholds_mono (weak good : α → M.Store → Prop) (worse : ε → M.Store → Prop)
    (body : ExceptT ε (Program S) α) (returns : ∀ value now, good value now → weak value now)
    (raises : ∀ error now, bad error now → worse error now) (upholds : Upholds D i good bad body store) :
    Upholds D i weak worse body store :=
  verified_mono D i (Post weak worse) (Post good bad) body.run store
      (fun outcome now found => match outcome, found with
    | .ok value, found => returns value now found
    | .error error, found => raises error now found) upholds

theorem upholds_statement (query : S.Statement) (good : S.Response query → M.Store → Prop)
    (lasts : ∀ response, Lasts D i (good response))
    (issues : ∀ now, D.Inv now → D.Rely i store now → D.Pre i query now ∧ ∀ response next before after,
      M.respond i query now before = some (response, next, after) → good response next) :
    Upholds D i good bad (ExceptT.lift (Program.statement query)) store := by
  intro now inv rely
  obtain ⟨pre, answers⟩ := issues now inv rely
  refine ⟨pre, fun response next before after answer later invLater relyLater => ?_⟩
  exact lasts response next later invLater relyLater (answers response next before after answer)

theorem lasts_and (first second : M.Store → Prop) (left : Lasts D i first) (right : Lasts D i second) :
    Lasts D i (fun store => first store ∧ second store) :=
  fun store now inv rely both => ⟨left store now inv rely both.1, right store now inv rely both.2⟩

-- The same of a program that is known to keep to its discipline.
def Learns (i : ι) (good : α → M.Store → Prop) (bad : ε → M.Store → Prop) (body : ExceptT ε (Program S) α)
    (store : M.Store) : Prop := Ensures D i (Post good bad) body.run store

theorem learns_of_upholds (good : α → M.Store → Prop) (body : ExceptT ε (Program S) α)
    (upholds : Upholds D i good bad body store) : Learns D i good bad body store :=
  ensures_of_verified D i (Post good bad) body.run store upholds

theorem learns_pure (good : α → M.Store → Prop) (value : α) (lasts : Lasts D i (good value))
    (holds : good value store) : Learns D i good bad (pure value) store :=
  fun now inv rely => lasts store now inv rely holds

theorem learns_throw (good : α → M.Store → Prop) (error : ε) (lasts : Lasts D i (bad error))
    (holds : bad error store) :
    Learns D i good bad (throw error : ExceptT ε (Program S) α) store := fun now inv rely =>
      lasts store now inv rely holds

theorem learns_bind (mid : α → M.Store → Prop) (good : β → M.Store → Prop)
    (lasts : ∀ error, Lasts D i (bad error)) (body : ExceptT ε (Program S) α)
    (next : α → ExceptT ε (Program S) β) (first : Learns D i mid bad body store)
    (second : ∀ value now, D.Inv now → mid value now → Learns D i good bad (next value) now) :
    Learns D i good bad (body >>= next) store := by
  refine ensures_bind D i (Post mid bad)
    (Post good bad) body.run _ store first fun outcome now inv found => ?_
  cases outcome with
  | ok value => exact second value now inv found
  | error error => exact fun later invLater rely => lasts error now later invLater rely found

theorem learns_statement (query : S.Statement) (good : S.Response query → M.Store → Prop)
    (lasts : ∀ response, Lasts D i (good response))
    (answers : ∀ now, D.Inv now → D.Rely i store now → D.Pre i query now → ∀ response next before after,
      M.respond i query now before = some (response, next, after) → good response next) :
    Learns D i good bad (ExceptT.lift (Program.statement query)) store := by
  intro now inv rely pre response next before after answer later invLater relyLater
  exact lasts response next later invLater relyLater
    (answers now inv rely pre response next before after answer)

-- What holds before the program holds after it, however it ends.
def Keeps (kept : M.Store → Prop) (body : ExceptT ε (Program S) α) : Prop :=
  ∀ store, kept store → Upholds D i (fun _ => kept) (fun _ => kept) body store

variable (kept : M.Store → Prop) (lastsKept : Lasts D i kept)

include lastsKept

theorem keeps_pure (value : α) : Keeps D i kept (pure value : ExceptT ε (Program S) α) :=
  fun store holds => upholds_pure D i _ store _ value lastsKept holds

theorem keeps_throw (error : ε) : Keeps D i kept (throw error : ExceptT ε (Program S) α) :=
  fun store holds => upholds_throw D i _ store _ error lastsKept holds

theorem keeps_bind (body : ExceptT ε (Program S) α) (next : α → ExceptT ε (Program S) β)
    (first : Keeps D i kept body) (second : ∀ value, Keeps D i kept (next value)) :
    Keeps D i kept (body >>= next) :=
  fun store holds =>
    upholds_bind D i _ store (fun _ => kept) _ (fun _ => lastsKept) body next (first store holds)
    fun value now _ still => second value now still

theorem keeps_map (body : α → ExceptT ε (Program S) β) (items : List α)
    (each : ∀ item, Keeps D i kept (body item)) :
    Keeps D i kept (items.mapM body) := by
  induction items with
  | nil =>
      rw [List.mapM_nil]
      exact keeps_pure D i kept lastsKept _
  | cons item rest ih =>
      rw [List.mapM_cons]
      refine keeps_bind D i kept lastsKept _ _ (each item) fun first => ?_
      exact keeps_bind D i kept lastsKept _ _ ih fun others => keeps_pure D i kept lastsKept _

omit lastsKept in
-- First a part that keeps what the rest starts from.
theorem upholds_keeping (good : β → M.Store → Prop) (lasts : ∀ error, Lasts D i (bad error))
    (body : ExceptT ε (Program S) α) (next : α → ExceptT ε (Program S) β) (keeps : Keeps D i kept body)
    (holds : kept store) (raises : ∀ error now, kept now → bad error now)
    (second : ∀ value now, D.Inv now → kept now → Upholds D i good bad (next value) now) :
    Upholds D i good bad (body >>= next) store := by
  refine upholds_bind D i bad store (fun _ => kept) good lasts body next ?_ second
  exact upholds_mono D i (fun _ => kept) store _ _ bad body (fun _ _ => id) raises (keeps store holds)

omit lastsKept

variable [DecidableEq ι]

theorem disciplined_environment {ρ : Type} (post : ι → ρ → M.Store → Prop) (config : Config M ρ)
    (changed : M.Store) (inv : D.Inv changed) (rely : ∀ j, D.Rely j config.store changed)
    (disciplined : Disciplined D post config) :
    Disciplined D post ⟨changed, config.sessions⟩ :=
  ⟨inv, fun j program session =>
    verified_stable D j (post j) program config.store changed (rely j)
      (disciplined.verified j program session)⟩

end

section

variable {S : Signature} {ε α β : Type} (allowed : S.Statement → Prop)

def IssuesOnly (body : ExceptT ε (Program S) α) : Prop := Confined allowed body.run

theorem issues_only_pure (value : α) : IssuesOnly allowed (pure value : ExceptT ε (Program S) α) := trivial

theorem issues_only_bind (body : ExceptT ε (Program S) α) (next : α → ExceptT ε (Program S) β)
    (first : IssuesOnly allowed body) (second : ∀ value, IssuesOnly allowed (next value)) :
    IssuesOnly allowed (body >>= next) := by
  refine confined_bind allowed body.run _ first fun outcome => ?_
  cases outcome with
  | ok value => exact second value
  | error error => trivial

theorem issues_only_map (body : α → ExceptT ε (Program S) β) (items : List α)
    (each : ∀ item, IssuesOnly allowed (body item)) :
    IssuesOnly allowed (items.mapM body) := by
  induction items with
  | nil =>
      rw [List.mapM_nil]
      exact issues_only_pure allowed _
  | cons item rest ih =>
      rw [List.mapM_cons]
      exact issues_only_bind allowed _ _ (each item) fun first =>
        issues_only_bind allowed _ _ ih fun others => issues_only_pure allowed _

theorem issues_only_statement (query : S.Statement) (kind : allowed query) :
    IssuesOnly allowed (ExceptT.lift (Program.statement query) : ExceptT ε (Program S) (S.Response query)) :=
  ⟨kind, fun _ => trivial⟩

theorem along_after {ι : Type} {M : Machine S ι} (D : Discipline M) (i : ι)
    (claim : (query : S.Statement) → (S.Response query → Program S (Except ε β)) → M.Store → Prop)
    (idle : ∀ query resume now, allowed query → claim query resume now) (good : α → M.Store → Prop)
    (body : ExceptT ε (Program S) α) (next : α → ExceptT ε (Program S) β) (store : M.Store)
    (stays : IssuesOnly allowed body) (learns : Learns D i good (fun _ _ => True) body store)
    (second : ∀ value now, D.Inv now → good value now → Along D i claim (next value).run now) :
    Along D i claim (body >>= next).run store := by
  refine along_bind D i claim allowed idle
    (Post good fun _ _ => True) body.run _ store stays learns fun outcome now inv found => ?_
  cases outcome with
  | ok value => exact second value now inv found
  | error error => trivial

end

end Interleaving
