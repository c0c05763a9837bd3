import CalibrationLedger.Library.Pacing
import CalibrationLedger.Library.Raising

set_option autoImplicit false

-- Runs with a record of who did what, and what a program does on its way.
namespace Interleaving

section

variable {S : Signature} {ι ρ τ : Type} {M : Machine S ι} (D : Discipline M)

-- The same statements where more is known of the store.
def Discipline.within (more : M.Store → Prop)
    (respond : ∀ i query store before response next after, D.Inv store → more store → D.Pre i query store →
      M.respond i query store before = some (response, next, after) → more next)
    (abandon : ∀ i store, D.Inv store → more store → more (M.abandon i store)) : Discipline M where
  Inv store := D.Inv store ∧ more store
  Rely := D.Rely
  Pre := D.Pre
  rely_refl := D.rely_refl
  rely_trans := D.rely_trans
  respond_keeps i query store before response next after inv pre answer := by
    obtain ⟨kept, rely⟩ := D.respond_keeps i query store before response next after inv.1 pre answer
    exact ⟨⟨kept, respond i query store before response next after inv.1 inv.2 pre answer⟩, rely⟩
  abandon_keeps i store inv := by
    obtain ⟨kept, rely⟩ := D.abandon_keeps i store inv.1
    exact ⟨⟨kept, abandon i store inv.1 inv.2⟩, rely⟩

-- The same statements where more is given of the answers' surroundings.
def Discipline.given (more : ι → S.Statement → M.Store → Prop) : Discipline M where
  Inv := D.Inv
  Rely := D.Rely
  Pre i query store := D.Pre i query store ∧ more i query store
  rely_refl := D.rely_refl
  rely_trans := D.rely_trans
  respond_keeps i query store before response next after inv pre :=
    D.respond_keeps i query store before response next after inv pre.1
  abandon_keeps := D.abandon_keeps

theorem verified_within (more : M.Store → Prop)
    (respond : ∀ i query store before response next after, D.Inv store → more store → D.Pre i query store →
      M.respond i query store before = some (response, next, after) → more next)
    (abandon : ∀ i store, D.Inv store → more store → more (M.abandon i store)) (i : ι)
    (post : ρ → M.Store → Prop) (program : Program S ρ) (store : M.Store)
    (verified : Verified D i post program store) :
    Verified (D.within more respond abandon) i post program store := by
  induction program generalizing store with
  | done value => exact fun now inv rely => verified now inv.1 rely
  | call query resume ih =>
      intro now inv rely
      obtain ⟨pre, onward⟩ := verified now inv.1 rely
      exact ⟨pre, fun response after before left answer => ih response after
        (onward response after before left answer)⟩

-- What is claimed of every statement on the way, and what the program ends with.
def Through (i : ι) (claim : (query : S.Statement) → (S.Response query → Program S ρ) → M.Store → Prop)
    (post : ρ → M.Store → Prop) : Program S ρ → M.Store → Prop
  | .done value, store => ∀ now, D.Inv now → D.Rely i store now → post value now
  | .call query resume, store => ∀ now, D.Inv now → D.Rely i store now → D.Pre i query now →
      claim query resume now ∧
      ∀ response next before after, M.respond i query now before = some (response, next, after) →
        Through i claim post (resume response) next

variable (i : ι) (claim : (query : S.Statement) → (S.Response query → Program S ρ) → M.Store → Prop)
  (post : ρ → M.Store → Prop)

theorem through_stable (program : Program S ρ) (store later : M.Store) (rely : D.Rely i store later)
    (through : Through D i claim post program store) : Through D i claim post program later := by
  cases program with
  | done value => exact fun now inv onward => through now inv (D.rely_trans i store later now rely onward)
  | call query resume =>
      exact fun now inv onward => through now inv (D.rely_trans i store later now rely onward)

theorem through_of_later (program : Program S ρ) (store : M.Store)
    (later : ∀ now, D.Inv now → D.Rely i store now → Through D i claim post program now) :
    Through D i claim post program store := by
  cases program with
  | done value => exact fun now inv rely => later now inv rely now inv (D.rely_refl i now)
  | call query resume => exact fun now inv rely => later now inv rely now inv (D.rely_refl i now)

theorem through_mono (wider : (query : S.Statement) → (S.Response query → Program S ρ) → M.Store → Prop)
    (weaker : ρ → M.Store → Prop) (program : Program S ρ) (store : M.Store)
    (widens : ∀ query resume now, D.Inv now → claim query resume now → wider query resume now)
    (weakens : ∀ value now, D.Inv now → post value now → weaker value now)
    (through : Through D i claim post program store) :
    Through D i wider weaker program store := by
  induction program generalizing store with
  | done value => exact fun now inv rely => weakens value now inv (through now inv rely)
  | call query resume ih =>
      intro now inv rely pre
      obtain ⟨claimed, onward⟩ := through now inv rely pre
      exact ⟨widens query resume now inv claimed, fun response after before left answer =>
        ih response after (onward response after before left answer)⟩

theorem through_bind (wider : (query : S.Statement) → (S.Response query → Program S τ) → M.Store → Prop)
    (last : τ → M.Store → Prop) (program : Program S ρ) (next : ρ → Program S τ) (store : M.Store)
    (widens : ∀ query resume now, D.Inv now → claim query resume now →
      wider query (fun response => resume response >>= next) now)
    (first : Through D i claim post program store)
    (second : ∀ value now, D.Inv now → post value now → Through D i wider last (next value) now) :
    Through D i wider last (program >>= next) store := by
  induction program generalizing store with
  | done value =>
      exact through_of_later D i wider last _ store fun now inv rely =>
        second value now inv (first now inv rely)
  | call query resume ih =>
      intro now inv rely pre
      obtain ⟨claimed, onward⟩ := first now inv rely pre
      exact ⟨widens query resume now inv claimed, fun response after before left answer =>
        ih response after (onward response after before left answer)⟩

theorem through_also (other : ρ → M.Store → Prop) (program : Program S ρ) (store : M.Store)
    (through : Through D i claim post program store) (ensures : Ensures D i other program store) :
    Through D i claim (fun value now => post value now ∧ other value now) program store := by
  induction program generalizing store with
  | done value => exact fun now inv rely => ⟨through now inv rely, ensures now inv rely⟩
  | call query resume ih =>
      intro now inv rely pre
      obtain ⟨claimed, onward⟩ := through now inv rely pre
      exact ⟨claimed, fun response after before left answer =>
        ih response after (onward response after before left answer)
          (ensures now inv rely pre response after before left answer)⟩

theorem through_ensures (program : Program S ρ) (store : M.Store)
    (through : Through D i claim post program store) :
    Ensures D i post program store := by
  induction program generalizing store with
  | done value => exact through
  | call query resume ih =>
      intro now inv rely pre response after before left answer
      exact ih response after ((through now inv rely pre).2 response after before left answer)

theorem through_along (program : Program S ρ) (store : M.Store) (along : Along D i claim program store) :
    Through D i claim (fun _ _ => True) program store := by
  induction program generalizing store with
  | done value => exact fun _ _ _ => trivial
  | call query resume ih =>
      intro now inv rely pre
      obtain ⟨claimed, onward⟩ := along now inv rely pre
      exact ⟨claimed, fun response after before left answer => ih response after
        (onward response after before left answer)⟩

theorem ensures_nothing (program : Program S ρ) (store : M.Store) :
    Ensures D i (fun _ _ => True) program store := by
  induction program generalizing store with
  | done value => exact fun _ _ _ => trivial
  | call query resume ih => exact fun _ _ _ _ response after _ _ _ => ih response after

end

section

variable {S : Signature} {ι ε α β : Type} {M : Machine S ι} (D : Discipline M)

-- The same of a program that may raise, where only its statements matter.
def Passes (i : ι) (claim : S.Statement → M.Store → Prop) (good : α → M.Store → Prop)
    (bad : ε → M.Store → Prop) (body : ExceptT ε (Program S) α) (store : M.Store) : Prop :=
  Through D i (fun query _ now => claim query now) (Post good bad) body.run store

variable (i : ι) (claim : S.Statement → M.Store → Prop) (bad : ε → M.Store → Prop) (store : M.Store)

theorem passes_pure (good : α → M.Store → Prop) (value : α) (lasts : Lasts D i (good value))
    (holds : good value store) : Passes D i claim good bad (pure value) store :=
  fun now inv rely => lasts store now inv rely holds

theorem passes_throw (good : α → M.Store → Prop) (error : ε) (lasts : Lasts D i (bad error))
    (holds : bad error store) :
    Passes D i claim good bad (throw error : ExceptT ε (Program S) α) store := fun now inv rely =>
      lasts store now inv rely holds

theorem passes_ask (good : α → M.Store → Prop) (query : S.Statement)
    (next : S.Response query → ExceptT ε (Program S) α)
    (step : ∀ now, D.Inv now → D.Rely i store now → D.Pre i query now → claim query now ∧
      ∀ response after before left, M.respond i query now before = some (response, after, left) →
        Passes D i claim good bad (next response) after) :
    Passes D i claim good bad (ExceptT.lift (Program.statement query) >>= next) store := step

theorem passes_bind (mid : α → M.Store → Prop) (good : β → M.Store → Prop)
    (lasts : ∀ error, Lasts D i (bad error)) (body : ExceptT ε (Program S) α)
    (next : α → ExceptT ε (Program S) β) (first : Passes D i claim mid bad body store)
    (second : ∀ value now, D.Inv now → mid value now → Passes D i claim good bad (next value) now) :
    Passes D i claim good bad (body >>= next) store := by
  refine through_bind D i _ (Post mid bad) _ _ body.run _ store
    (fun _ _ _ _ => id) first fun outcome now inv found => ?_
  cases outcome with
  | ok value => exact second value now inv found
  | error error => exact fun later invLater rely => lasts error now later invLater rely found

theorem passes_mono (weak good : α → M.Store → Prop) (worse : ε → M.Store → Prop)
    (body : ExceptT ε (Program S) α)
    (returns : ∀ value now, D.Inv now → good value now → weak value now)
    (raises : ∀ error now, D.Inv now → bad error now → worse error now)
    (passes : Passes D i claim good bad body store) :
    Passes D i claim weak worse body store :=
  through_mono D i _ (Post good bad) _ (Post weak worse) body.run store (fun _ _ _ _ => id)
      (fun outcome now inv found =>
    match outcome, found with
    | .ok value, found => returns value now inv found
    | .error error, found => raises error now inv found) passes

end

section

variable {S : Signature} {ι : Type}

-- One statement answered, or a connection lost.
structure Deed (M : Machine S ι) where
  session : ι
  before : M.Store
  after : M.Store
  answered : Option ((query : S.Statement) × S.Response query)

variable {ρ : Type} [DecidableEq ι] (M : Machine S ι)

-- A run and everything done in it.
inductive Logged (start : Config M ρ) : List (Deed M) → Config M ρ → Prop where
  | nothing : Logged start [] start
  | answer (deeds : List (Deed M)) (config : Config M ρ) (i : ι) (query : S.Statement)
      (resume : S.Response query → Program S ρ)
      (response : S.Response query) (store : M.Store) (before after : M.Supply)
      (logged : Logged start deeds config)
      (active : config.sessions i = some (.call query resume))
      (answer : M.respond i query config.store before = some (response, store, after)) :
      Logged start (deeds ++ [⟨i, config.store, store, some ⟨query, response⟩⟩])
        ⟨store, Function.update config.sessions i (some (resume response))⟩
  | lose (deeds : List (Deed M)) (config : Config M ρ) (i : ι) (query : S.Statement)
      (resume : S.Response query → Program S ρ)
      (logged : Logged start deeds config) (active : config.sessions i = some (.call query resume)) :
      Logged start (deeds ++ [⟨i, config.store, M.abandon i config.store, none⟩])
        ⟨M.abandon i config.store, Function.update config.sessions i none⟩

theorem logged_reaches (start later : Config M ρ) (deeds : List (Deed M))
    (logged : Logged M start deeds later) :
    Reaches M start later := by
  induction logged with
  | nothing => exact reaches_refl M start
  | answer deeds config i query resume response store before after _ active answer ih =>
      exact .tail ih ⟨i, .inl (.step config query resume response store before after active answer)⟩
  | lose deeds config i query resume _ active ih =>
      exact .tail ih ⟨i, .inr (.step config query resume active)⟩

theorem reaches_logged (start later : Config M ρ) (reached : Reaches M start later) :
    ∃ deeds, Logged M start deeds later := by
  induction reached with
  | refl => exact ⟨[], .nothing⟩
  | tail _ step ih =>
      obtain ⟨deeds, logged⟩ := ih
      obtain ⟨i, exec | crash⟩ := step
      · cases exec with
        | step query resume response store before after active answer =>
            exact ⟨_, .answer deeds _ i query resume response store before after logged active answer⟩
      · cases crash with
        | step query resume active => exact ⟨_, .lose deeds _ i query resume logged active⟩

omit [DecidableEq ι] in
-- First a part of which nothing is claimed.
theorem everywhere_bind {τ : Type}
    (claim : (query : S.Statement) → (S.Response query → Program S τ) → Prop)
    (allowed : S.Statement → Prop) (idle : ∀ query resume, allowed query → claim query resume)
    (program : Program S ρ) (next : ρ → Program S τ) (first : Confined allowed program)
    (second : ∀ value, Everywhere claim (next value)) : Everywhere claim (program >>= next) := by
  induction program with
  | done value => exact second value
  | call query resume ih => exact ⟨idle query _ first.1, fun response => ih response (first.2 response)⟩

theorem everywhere_run (claim : (query : S.Statement) → (S.Response query → Program S ρ) → Prop)
    (before after : Config M ρ) (run : Reaches M before after) (i : ι)
    (everywhere : ∀ program, before.sessions i = some program → Everywhere claim program)
    (program : Program S ρ) (session : after.sessions i = some program) : Everywhere claim program := by
  induction run generalizing program with
  | refl => exact everywhere program session
  | tail _ step ih => exact everywhere_step M claim _ _ step i ih program session

-- A session that writes with its last statement, and ends well then, has written
-- nothing unless it ended well.
theorem logged_last (writes : S.Statement → Prop) (ends : ρ → Prop) (kept : M.Store → M.Store → Prop)
    (i : ι)
    (reads : ∀ query store before response next after, ¬ writes query →
      M.respond i query store before = some (response, next, after) → kept store next)
    (abandons : ∀ store, kept store (M.abandon i store)) (start later : Config M ρ)
    (deeds : List (Deed M)) (logged : Logged M start deeds later) (program : Program S ρ)
    (began : start.sessions i = some program)
    (everywhere : Everywhere
        (fun query resume => writes query → ∀ response, ∃ value, resume response = .done value ∧
          ends value) program) :
    (∃ value, later.sessions i = some (.done value) ∧ ends value) ∨
      ∀ deed ∈ deeds, deed.session = i → kept deed.before deed.after := by
  have along := fun config reached => everywhere_run M _ start config reached i fun found was => by
    rw [began] at was
    cases was
    exact everywhere
  induction logged with
  | nothing => exact .inr fun deed none => nomatch none
  | answer deeds config j query resume response store before after logged active answer ih =>
      by_cases same : i = j
      · subst j
        have claimed := (along config (logged_reaches M _ _ _ logged) _ active).1
        by_cases last : writes query
        · obtain ⟨value, done, well⟩ := claimed last response
          exact .inl ⟨value, by simp [done], well⟩
        · refine .inr fun deed member own => ?_
          rcases List.mem_append.mp member with old | new
          · rcases ih with ⟨value, ended, _⟩ | nothing
            · rw [active] at ended
              cases ended
            · exact nothing deed old own
          · rw [List.mem_singleton.mp new]
            exact reads query _ before response store after last answer
      · refine ih.imp (fun ⟨value, ended, well⟩ => ⟨value, by simpa [same] using ended, well⟩)
          fun nothing deed member own => ?_
        rcases List.mem_append.mp member with old | new
        · exact nothing deed old own
        · rw [List.mem_singleton.mp new] at own
          exact absurd own.symm same
  | lose deeds config j query resume logged active ih =>
      by_cases same : i = j
      · subst j
        refine .inr fun deed member own => ?_
        rcases List.mem_append.mp member with old | new
        · rcases ih with ⟨value, ended, _⟩ | nothing
          · rw [active] at ended
            cases ended
          · exact nothing deed old own
        · rw [List.mem_singleton.mp new]
          exact abandons _
      · refine ih.imp (fun ⟨value, ended, well⟩ => ⟨value, by simpa [same] using ended, well⟩)
          fun nothing deed member own => ?_
        rcases List.mem_append.mp member with old | new
        · exact nothing deed old own
        · rw [List.mem_singleton.mp new] at own
          exact absurd own.symm same

theorem logged_untouched (start later : Config M ρ) (deeds : List (Deed M))
    (logged : Logged M start deeds later) (i : ι) (program : Program S ρ)
    (began : start.sessions i = some program) (ends : later.sessions i = some program) :
    ∀ deed ∈ deeds, deed.session ≠ i := by
  have goes : (∀ deed ∈ deeds, deed.session ≠ i) ∧ later.sessions i = start.sessions i ∨
      later.sessions i = none ∨ Relation.TransGen LeftAfterAnswer (later.sessions i) (start.sessions i) := by
    clear ends
    induction logged with
    | nothing => exact .inl ⟨fun deed none => (nomatch none), rfl⟩
    | answer deeds config j query resume response store before after _ active _ ih =>
        by_cases same : i = j
        · subst j
          have step : LeftAfterAnswer (some (resume response)) (config.sessions i) := by
            rw [active]
            exact .on query resume response
          refine .inr (.inr ?_)
          dsimp only
          rw [Function.update_self]
          rcases ih with ⟨_, still⟩ | none | moved
          · exact .single (still ▸ step)
          · rw [none] at active
            cases active
          · exact .head step moved
        · dsimp only
          rw [Function.update_of_ne same]
          refine ih.imp_left fun ⟨others, still⟩ => ⟨fun deed member => ?_, still⟩
          rcases List.mem_append.mp member with old | new
          · exact others deed old
          · rw [List.mem_singleton.mp new]
            exact Ne.symm same
    | lose deeds config j query resume _ active ih =>
        by_cases same : i = j
        · exact .inr (.inl (by simp [same]))
        · dsimp only
          rw [Function.update_of_ne same]
          refine ih.imp_left fun ⟨others, still⟩ => ⟨fun deed member => ?_, still⟩
          rcases List.mem_append.mp member with old | new
          · exact others deed old
          · rw [List.mem_singleton.mp new]
            exact Ne.symm same
  rcases goes with ⟨others, _⟩ | none | moved
  · exact others
  · rw [none] at ends
    cases ends
  · rw [began, ends] at moved
    exact absurd moved (left_after_answer_well_founded.transGen.irrefl.irrefl _)

theorem logged_becomes (start later : Config M ρ) (deeds : List (Deed M))
    (logged : Logged M start deeds later) (holds : M.Store → Prop) (first : ¬ holds start.store)
    (last : holds later.store) :
    ∃ deed ∈ deeds, holds deed.after ∧ ¬ holds deed.before := by
  induction logged with
  | nothing => exact absurd last first
  | answer deeds config i query resume response store before after _ _ _ ih =>
      by_cases already : holds config.store
      · obtain ⟨deed, member, became⟩ := ih already
        exact ⟨deed, List.mem_append_left _ member, became⟩
      · exact ⟨_, List.mem_append_right _ (List.mem_singleton_self _), last, already⟩
  | lose deeds config i query resume _ _ ih =>
      by_cases already : holds config.store
      · obtain ⟨deed, member, became⟩ := ih already
        exact ⟨deed, List.mem_append_left _ member, became⟩
      · exact ⟨_, List.mem_append_right _ (List.mem_singleton_self _), last, already⟩

theorem paced_logged (allowed : Policy M ρ) (start later : Config M ρ)
    (run : PacedRun M allowed start later) :
    ∃ deeds, Logged M start deeds later ∧ ∀ deed ∈ deeds, ∀ query response,
    deed.answered = some ⟨query, response⟩ →
      ∃ config : Config M ρ, config.store = deed.before ∧
      allowed deed.session config query response = true := by
  induction run with
  | refl => exact ⟨[], .nothing, fun deed none => nomatch none⟩
  | tail _ paced ih =>
      obtain ⟨deeds, logged, fine⟩ := ih
      cases paced with
      | step i config query resume response store before after active answer allows =>
          refine ⟨_, .answer deeds _ i query resume response store before after logged active answer,
            fun deed member => ?_⟩
          rcases List.mem_append.mp member with old | new
          · exact fine deed old
          · rw [List.mem_singleton.mp new]
            rintro _ _ ⟨⟩
            exact ⟨_, rfl, allows⟩

-- What is given of everything a session did.
def GivenOfDeeds (i : ι) (more : ι → S.Statement → M.Store → Prop) (deeds : List (Deed M)) : Prop :=
  ∀ deed ∈ deeds, deed.session = i → ∀ query response, deed.answered = some ⟨query, response⟩ →
    more i query deed.before

end

section

variable {S : Signature} {ι ρ : Type} [DecidableEq ι] {M : Machine S ι} (D : Discipline M)

theorem rely_step (post : ι → ρ → M.Store → Prop) (before after : Config M ρ)
    (disciplined : Disciplined D post before) (i j : ι) (other : i ≠ j)
    (moves : Exec M j before after ∨ Crash M j before after) :
    D.Rely i before.store after.store ∧ after.sessions i = before.sessions i := by
  rcases moves with exec | crash
  · cases exec with
    | step query resume response store supply rest active answer =>
        obtain ⟨pre, _⟩ := disciplined.verified j _ active _ disciplined.inv (D.rely_refl j _)
        obtain ⟨_, rely⟩ := D.respond_keeps j query _ supply response store rest disciplined.inv pre answer
        exact ⟨rely i other, Function.update_of_ne other _ _⟩
  · cases crash with
    | step query resume active =>
        exact ⟨(D.abandon_keeps j _ disciplined.inv).2 i other, Function.update_of_ne other _ _⟩

theorem logged_rely (post : ι → ρ → M.Store → Prop) (start later : Config M ρ) (deeds : List (Deed M))
    (disciplined : Disciplined D post start) (logged : Logged M start deeds later) (i : ι)
    (others : ∀ deed ∈ deeds, deed.session ≠ i) : D.Rely i start.store later.store := by
  induction logged with
  | nothing => exact D.rely_refl i _
  | answer deeds config j query resume response store before after logged active answer ih =>
      have now := disciplined_run D post _ _ disciplined (logged_reaches M _ _ _ logged)
      have other : i ≠ j := Ne.symm (others _ (List.mem_append_right _ (List.mem_singleton_self _)))
      obtain ⟨rely, _⟩ :=
        rely_step D post config _ now i j other
          (.inl (.step _ query resume response store before after active answer))
      exact D.rely_trans i _ _ _ (ih fun deed member => others deed (List.mem_append_left _ member)) rely
  | lose deeds config j query resume logged active ih =>
      have now := disciplined_run D post _ _ disciplined (logged_reaches M _ _ _ logged)
      have other : i ≠ j := Ne.symm (others _ (List.mem_append_right _ (List.mem_singleton_self _)))
      obtain ⟨rely, _⟩ := rely_step D post config _ now i j other (.inr (.step _ query resume active))
      exact D.rely_trans i _ _ _ (ih fun deed member => others deed (List.mem_append_left _ member)) rely

theorem through_step (post : ι → ρ → M.Store → Prop) (i : ι) (more : ι → S.Statement → M.Store → Prop)
    (claim : (query : S.Statement) → (S.Response query → Program S ρ) → M.Store → Prop)
    (last : ρ → M.Store → Prop) (before after : Config M ρ) (disciplined : Disciplined D post before)
    (step : Step M before after)
    (given : ∀ query resume, before.sessions i = some (.call query resume) → more i query before.store)
    (first : ∀ program, before.sessions i = some program →
      Through (D.given more) i claim last program before.store)
    (program : Program S ρ) (session : after.sessions i = some program) :
    Through (D.given more) i claim last program after.store := by
  obtain ⟨j, moves⟩ := step
  by_cases same : i = j
  · subst j
    rcases moves with exec | crash
    · cases exec with
      | step query resume response store supply rest active answer =>
          obtain ⟨pre, _⟩ := disciplined.verified i _ active _ disciplined.inv (D.rely_refl i _)
          have resumed : resume response = program := by simpa using session
          rw [← resumed]
          exact (first _ active _ disciplined.inv (D.rely_refl i _) ⟨pre, given query resume active⟩).2
            response store supply rest answer
    · cases crash with
      | step query resume active => simp at session
  · obtain ⟨rely, still⟩ := rely_step D post before after disciplined i j same moves
    exact through_stable (D.given more) i claim last program _ _ rely (first program (still ▸ session))

theorem logged_through (post : ι → ρ → M.Store → Prop) (i : ι) (more : ι → S.Statement → M.Store → Prop)
    (claim : (query : S.Statement) → (S.Response query → Program S ρ) → M.Store → Prop)
    (last : ρ → M.Store → Prop) (start later : Config M ρ) (deeds : List (Deed M))
    (disciplined : Disciplined D post start) (logged : Logged M start deeds later)
    (given : GivenOfDeeds M i more deeds)
    (first : ∀ program, start.sessions i = some program →
      Through (D.given more) i claim last program start.store)
    (program : Program S ρ) (session : later.sessions i = some program) :
    Through (D.given more) i claim last program later.store := by
  induction logged generalizing program with
  | nothing => exact first program session
  | answer deeds config j query resume response store before after logged active answer ih =>
      have now := disciplined_run D post _ _ disciplined (logged_reaches M _ _ _ logged)
      have earlier := ih fun deed inside => given deed (List.mem_append_left _ inside)
      by_cases same : i = j
      · subst j
        refine through_step D post i more claim last config _ now
          ⟨i, .inl (.step _ query resume response store before after active answer)⟩
          (fun other next own => ?_) earlier program session
        rw [active] at own
        cases own
        exact given _ (List.mem_append_right _ (List.mem_singleton_self _)) rfl query response rfl
      · obtain ⟨rely, still⟩ :=
          rely_step D post config _ now i j same
            (.inl (.step _ query resume response store before after active answer))
        exact through_stable (D.given more) i claim last program _ _ rely (earlier program (still ▸ session))
  | lose deeds config j query resume logged active ih =>
      have now := disciplined_run D post _ _ disciplined (logged_reaches M _ _ _ logged)
      have earlier := ih fun deed inside => given deed (List.mem_append_left _ inside)
      by_cases same : i = j
      · simp [same] at session
      · obtain ⟨rely, still⟩ := rely_step D post config _ now i j same (.inr (.step _ query resume active))
        exact through_stable (D.given more) i claim last program _ _ rely (earlier program (still ▸ session))

end

end Interleaving
