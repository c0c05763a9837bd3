import CalibrationLedger.Batches

set_option autoImplicit false

-- One batch among any number of other calls: what it adds, and why it gives up.
namespace CalibrationLedger

open JsonText Digest Interleaving

section

variable {ι : Type} [DecidableEq ι] [Fintype ι]

-- The rows the session committed.
def addedBy (i : ι) (deeds : List (Deed (postgres ι))) : Set Event := fun row =>
  ∃ deed ∈ deeds, deed.session = i ∧ row ∈ (deed.after : Store ι).events.rows ∧
    row ∉ (deed.before : Store ι).events.rows

theorem added_last (i : ι) (deeds : List (Deed (postgres ι))) (deed : Deed (postgres ι)) (row : Event) :
    row ∈ addedBy i (deeds ++ [deed]) ↔ row ∈ addedBy i deeds ∨
      deed.session = i ∧ row ∈ (deed.after : Store ι).events.rows ∧
      row ∉ (deed.before : Store ι).events.rows := by
  constructor
  · rintro ⟨other, member, made⟩
    rcases List.mem_append.mp member with old | new
    · exact .inl ⟨other, old, made⟩
    · rw [List.mem_singleton.mp new] at made
      exact .inr made
  · rintro (⟨other, member, made⟩ | made)
    · exact ⟨other, List.mem_append_left _ member, made⟩
    · exact ⟨deed, List.mem_append_right _ (List.mem_singleton_self _), made⟩

theorem added_unchanged (i : ι) (deeds : List (Deed (postgres ι))) (deed : Deed (postgres ι))
    (still : deed.session = i → (deed.after : Store ι).events = (deed.before : Store ι).events)
    (row : Event) :
    row ∈ addedBy i (deeds ++ [deed]) ↔ row ∈ addedBy i deeds := by
  rw [added_last]
  refine or_iff_left ?_
  rintro ⟨own, entered, absent⟩
  rw [still own] at entered
  exact absent entered

variable (rt : Runtime)

theorem orderly_start (calls : ι → Call) :
    Disciplined (orderly ι rt (SigningKey calls)) (answered rt calls) (start rt calls) where
  inv := ⟨sound_empty rt _, sequenced_empty⟩
  verified i program session :=
    verified_within _ _ _ _ i _ program _ ((start_disciplined rt calls).verified i program session)

theorem history_orderly (calls : ι → Call) (config : Config (postgres ι) (Py Outcome))
    (reached : Reaches (postgres ι) (start rt calls) config) :
    Disciplined (orderly ι rt (SigningKey calls)) (answered rt calls) config :=
  disciplined_run _ _ _ _ (orderly_start rt calls) reached

theorem unstarted_idle (calls : ι → Call) (now : Config (postgres ι) (Py Outcome))
    (reached : Reaches (postgres ι) (start rt calls) now) (i : ι)
    (unstarted : now.sessions i = some ((calls i).program rt).run) : Idle i now.store := by
  obtain ⟨deeds, logged⟩ := reaches_logged (postgres ι) _ _ reached
  have others := logged_untouched (postgres ι) _ _ deeds logged i _ rfl unstarted
  exact (logged_rely (orderly ι rt (SigningKey calls)) (answered rt calls) _ _ deeds
      (orderly_start rt calls) logged i others).own

omit [Fintype ι] in
theorem commit_enters (signing : Text → Bytes → Prop) (i : ι) (store : Store ι)
    (sound : Sound rt signing store) (sequenced : Sequenced store) (row : Event) :
    row ∈ (store.commit i).events.rows ∧ row ∉ store.events.rows ↔ row ∈ (store.transactions i).events := by
  constructor
  · rintro ⟨entered, absent⟩
    exact (mem_insert_all store.events _ row entered).resolve_right absent
  · exact fun own => ⟨visible_own rt signing store i row sound own, sequenced.pending i row own⟩

theorem batch_unanswered (requests : List SubmitReport) (pairs : List (Event × Bool)) :
    ((Call.batch requests).program rt).run ≠ .done (batchAnswer pairs) := by
  rw [batch_run]
  refine bind_unanswered Except.ok batchAnswer answerBatch
    (fun outcome pairs ended => ?_) _ (fun pairs => ?_) pairs
  · cases outcome with
    | ok others => exact ⟨others, rfl⟩
    | error error => cases ended
  · cases made : prepareBatch rt 0 requests with
    | error error =>
        rw [appendReportBatch, made]
        intro ended
        cases ended
    | ok prepared =>
        rw [batch_prepared rt requests prepared made]
        cases batchCollision 0 [] prepared with
        | some conflict =>
            intro ended
            cases ended
        | none => exact attempt_unanswered rt prepared _ pairs

omit [Fintype ι] in
theorem commit_unwritten (i : ι) (store : Store ι) (empty : (store.transactions i).events = []) :
    (store.commit i).events = store.events := by
  show store.visible i = store.events
  rw [Store.visible, empty]
  rfl

omit [DecidableEq ι] [Fintype ι] in
theorem batch_step_unanswered (i : ι) (prepared : List PreparedReport) (query : Statement)
    (resume : Response query → Program Sql (Py Outcome)) (store : Store ι) (other : query ≠ .commit)
    (going : BatchStep batchAnswer i prepared query resume store) (response : Response query)
    (pairs : List (Event × Bool)) : resume response ≠ .done (batchAnswer pairs) := by
  cases query with
  | commit => exact absurd rfl other
  | rollback => exact going pairs
  | _ => exact going.2 response pairs

theorem batch_through (calls : ι → Call) (now later : Config (postgres ι) (Py Outcome))
    (deeds : List (Deed (postgres ι))) (reached : Reaches (postgres ι) (start rt calls) now) (i : ι)
    (requests : List SubmitReport) (call : calls i = .batch requests)
    (unstarted : now.sessions i = some ((calls i).program rt).run)
    (logged : Logged (postgres ι) now deeds later) (more : ι → Statement → Store ι → Prop)
    (given : GivenOfDeeds (postgres ι) i more deeds) (program : Program Sql (Py Outcome))
    (session : later.sessions i = some program) :
    Through ((orderly ι rt (SigningKey calls)).given more) i
      (fun query resume now => ∃ prepared, prepareBatch rt 0 requests = .ok prepared ∧
      BatchStep batchAnswer i prepared query resume now)
        (fun outcome end_ => Idle i end_ ∧ ∀ error, outcome = .error error →
        Raises rt (Unused more i) requests now.store error end_) program later.store := by
  have idle := unstarted_idle rt calls now reached i unstarted
  rw [call] at unstarted
  refine logged_through (orderly ι rt (SigningKey calls)) (answered rt calls) i more _ _ now later deeds
    (history_orderly rt calls now reached) logged given (fun first began => ?_) program session
  rw [unstarted] at began
  rw [← Option.some.inj began]
  exact batch_step_call rt (SigningKey calls) more i requests now.store idle

theorem batch_call_step (calls : ι → Call) (now later : Config (postgres ι) (Py Outcome))
    (deeds : List (Deed (postgres ι))) (reached : Reaches (postgres ι) (start rt calls) now) (i : ι)
    (requests : List SubmitReport) (call : calls i = .batch requests)
    (unstarted : now.sessions i = some ((calls i).program rt).run)
    (logged : Logged (postgres ι) now deeds later) (query : Statement)
    (resume : Response query → Program Sql (Py Outcome))
    (active : later.sessions i = some (.call query resume)) :
    Allowed rt (SigningKey calls) i query later.store ∧
      ∃ prepared, prepareBatch rt 0 requests = .ok prepared ∧
      BatchStep batchAnswer i prepared query resume later.store := by
  have disciplined :=
    history_orderly rt calls later
      (reaches_trans (postgres ι) _ _ _ reached (logged_reaches (postgres ι) _ _ _ logged))
  obtain ⟨allowed, _⟩ := disciplined.verified i _ active _ disciplined.inv (ledger_rely_refl i _)
  have through := batch_through rt calls now later deeds reached i requests call unstarted logged
    (fun _ _ _ => True)
    (fun _ _ _ _ _ _ => trivial) _ active
  exact ⟨allowed, (through later.store disciplined.inv (ledger_rely_refl i _) ⟨allowed, trivial⟩).1⟩

theorem batch_accounts (calls : ι → Call) (now later : Config (postgres ι) (Py Outcome))
    (deeds : List (Deed (postgres ι))) (reached : Reaches (postgres ι) (start rt calls) now) (i : ι)
    (requests : List SubmitReport) (call : calls i = .batch requests)
    (unstarted : now.sessions i = some ((calls i).program rt).run)
    (logged : Logged (postgres ι) now deeds later) :
    (∀ pairs, later.sessions i = some (.done (batchAnswer pairs)) →
      (∀ row, row ∈ addedBy i deeds ↔ row ∈ createdRows pairs) ∧ CreatesFirst [] pairs) ∧
    ((∀ pairs, later.sessions i ≠ some (.done (batchAnswer pairs))) → ∀ row, row ∉ addedBy i deeds) := by
  induction logged with
  | nothing =>
      refine ⟨fun pairs ended => ?_, fun _ row => fun ⟨_, inside, _⟩ => nomatch inside⟩
      rw [unstarted, call] at ended
      exact absurd (Option.some.inj ended) (batch_unanswered rt requests pairs)
  | answer deeds config j query resume response store before after logged active answer ih =>
      by_cases other : i = j
      · subst j
        have disciplined := history_orderly rt calls config
          (reaches_trans (postgres ι) _ _ _ reached (logged_reaches (postgres ι) _ _ _ logged))
        obtain ⟨_, prepared, _, going⟩ :=
          batch_call_step rt calls now config deeds reached i requests call unstarted logged query
            resume active
        have nothing := ih.2 fun pairs ended => by
          rw [active] at ended
          cases ended
        by_cases commits : query = .commit
        · subst commits
          cases answer
          rcases going with ⟨empty, goesOn⟩ | ⟨pairs, done, fulfilled⟩
          · have events := commit_unwritten i config.store empty
            refine ⟨fun pairs ended => ?_, fun _ row => ?_⟩
            · exact absurd (Option.some.inj (by simpa using ended)) (goesOn pairs)
            · rw [added_unchanged i deeds _ fun _ => events]
              exact nothing row
          · refine ⟨fun others ended => ?_, fun unanswered => absurd (by simp [done]) (unanswered pairs)⟩
            have same : pairs = others := by simpa [done, batchAnswer] using ended
            subst same
            refine ⟨fun row => ?_, fulfilled.first⟩
            rw [added_last, or_iff_right (nothing row), and_iff_right rfl]
            rw [commit_enters rt _ i config.store disciplined.inv.1 disciplined.inv.2 row, fulfilled.own]
            rfl
        · have unwritten := respond_unwritten i query config.store before response store after commits answer
          refine ⟨fun pairs ended => ?_, fun _ row => ?_⟩
          · exact absurd (Option.some.inj (by simpa using ended))
              (batch_step_unanswered i prepared query resume _ commits going response pairs)
          · rw [added_unchanged i deeds _ fun _ => congrArg Ledger.events unwritten]
            exact nothing row
      · have still : ∀ row, row ∈
            addedBy i (deeds ++ [⟨j, config.store, store, some ⟨query, response⟩⟩]) ↔ row ∈ addedBy i deeds :=
          added_unchanged i deeds _ fun own => absurd own.symm other
        simp only [Function.update_of_ne other, still]
        exact ih
  | lose deeds config j query resume logged active ih =>
      have still : ∀ row, row ∈
          addedBy i (deeds ++ [⟨j, config.store, (postgres ι).abandon j config.store, none⟩]) ↔
          row ∈ addedBy i deeds :=
        added_unchanged i deeds _ fun _ => rfl
      by_cases other : i = j
      · subst j
        simp only [Function.update_self, still]
        refine ⟨fun pairs ended => (nomatch ended), fun _ => ih.2 fun pairs ended => ?_⟩
        rw [active] at ended
        cases ended
      · simp only [Function.update_of_ne other, still]
        exact ih

theorem created_rows (pairs : List (Event × Bool)) (row : Event) :
    row ∈ createdRows pairs ↔ (row, true) ∈ pairs := by
  simp [createdRows]

omit [DecidableEq ι] [Fintype ι] in
theorem raises_conflict (fresh : Prop) (requests : List SubmitReport) (before now : Store ι) (error : PyError)
    (conflict : Conflict error) (raises : Raises rt fresh requests before error now) :
    ∃ prepared, prepareBatch rt 0 requests = .ok prepared ∧ (Collides prepared ∨ Taken prepared now) := by
  obtain ⟨details, rfl, code⟩ := conflict
  rcases raises with failed | ⟨prepared, made, ⟨_, reason⟩ | ⟨impossible, _⟩⟩
  · obtain ⟨_, request, _, _, same, _⟩ := prepare_batch_invalid rt 0 requests _ failed
    cases same
    simp at code
  · exact ⟨prepared, made, reason⟩
  · cases impossible

omit [DecidableEq ι] [Fintype ι] in
theorem raises_integrity (fresh : Prop) (requests : List SubmitReport) (before now : Store ι)
    (premise : fresh) (raises : Raises rt fresh requests before .integrityError now) :
    ∃ prepared, prepareBatch rt 0 requests = .ok prepared ∧
    ∃ lost : List String, lost.length = batchInsertAttempts ∧ lost.Nodup ∧
      ∀ key ∈ lost, Outrun (batchKeys prepared) before now key := by
  rcases raises with failed | ⟨prepared, made, ⟨⟨details, impossible, _⟩, _⟩ | ⟨_, lost⟩⟩
  · obtain ⟨_, request, _, _, same, _⟩ := prepare_batch_invalid rt 0 requests _ failed
    cases same
  · cases impossible
  · exact ⟨prepared, made, lost premise⟩

theorem raises_lost (now later : Config (postgres ι) (Py Outcome)) (deeds : List (Deed (postgres ι)))
    (i : ι) (requests : List SubmitReport) (logged : Logged (postgres ι) now deeds later)
    (nothing : ∀ row, row ∉ addedBy i deeds) (fresh : Prop) (premise : fresh)
    (raises : Raises rt fresh requests now.store .integrityError later.store) :
    ∃ prepared, prepareBatch rt 0 requests = .ok prepared ∧ ∃ lost : List String,
      lost.length = 4 ∧ lost.Nodup ∧ ∀ key ∈ lost, key ∈ batchKeys prepared ∧
        ∃ j, j ≠ i ∧ ∃ row ∈ addedBy j deeds, row.businessKey = key := by
  obtain ⟨prepared, made, lost, counted, distinct, each⟩ := raises_integrity rt _ requests _ _ premise raises
  refine ⟨prepared, made, lost, counted, distinct, fun key member => ⟨(each key member).asked, ?_⟩⟩
  obtain ⟨row, committed, keyed⟩ := (each key member).committed
  obtain ⟨deed, inside, entered, absent⟩ := logged_becomes (postgres ι) now later deeds logged
    (fun store : Store ι => row ∈ store.events.rows)
    (fun earlier => (each key member).absent row earlier keyed) committed
  have added : row ∈ addedBy deed.session deeds := ⟨deed, inside, rfl, entered, absent⟩
  refine ⟨deed.session, fun own => ?_, row, added, keyed⟩
  rw [own] at added
  exact nothing row added

-- A batch that returns has every item committed with its fingerprint, in the order
-- of the items, and added just the rows it created, each at the first item with its
-- key; one that raises added none. It raises a conflict only for two contents of one
-- key, and lets an IntegrityError out only once four keys were lost to others.
theorem racing_batches_are_exact (calls : ι → Call) (now later : Config (postgres ι) (Py Outcome))
    (deeds : List (Deed (postgres ι))) (reached : Reaches (postgres ι) (start rt calls) now) (i : ι)
    (requests : List SubmitReport) (call : calls i = .batch requests)
    (unstarted : now.sessions i = some ((calls i).program rt).run)
    (logged : Logged (postgres ι) now deeds later) (fresh : GivenOfDeeds (postgres ι) i UnusedId deeds) :
    (∀ outcome, finished (postgres ι) later i = some (.ok outcome) →
      ∃ prepared pairs, outcome = .batch pairs ∧
      prepareBatch rt 0 requests = .ok prepared ∧
      List.Forall₂ (fun item pair =>
        later.store.events.Holds item.request.businessKey item.fingerprint pair.1) prepared pairs ∧
      (∀ row, row ∈ addedBy i deeds ↔ (row, true) ∈ pairs) ∧
      ∀ before row after, pairs = before ++ (row, true) :: after →
        ∀ pair ∈ before, pair.1.businessKey ≠ row.businessKey) ∧
    (∀ error, finished (postgres ι) later i = some (.error error) → (∀ row, row ∉ addedBy i deeds) ∧
      (Conflict error → ∃ prepared, prepareBatch rt 0 requests = .ok prepared ∧
        (Collides prepared ∨ Taken prepared later.store)) ∧
      (error = .integrityError → ∃ prepared, prepareBatch rt 0 requests = .ok prepared ∧ ∃ lost : List String,
        lost.length = 4 ∧ lost.Nodup ∧ ∀ key ∈ lost, key ∈ batchKeys prepared ∧
          ∃ j, j ≠ i ∧ ∃ row ∈ addedBy j deeds, row.businessKey = key)) := by
  have onward := reaches_trans (postgres ι) _ _ _ reached (logged_reaches (postgres ι) _ _ _ logged)
  obtain ⟨returned, raised⟩ :=
    batch_accounts rt calls now later deeds reached i requests call unstarted logged
  refine ⟨fun outcome ended => ?_, fun error ended => ?_⟩
  · have recorded := history_recorded rt calls later onward i outcome ended
    rw [call] at recorded
    cases outcome with
    | appended event created => exact absurd recorded id
    | sealing result => exact absurd recorded id
    | batch pairs =>
        obtain ⟨prepared, made, _, holds⟩ := recorded
        obtain ⟨added, first⟩ := returned pairs ((finished_done (postgres ι) later i _).mp ended)
        refine ⟨prepared, pairs, rfl, made, holds, fun row => (added row).trans (created_rows pairs row), ?_⟩
        exact fun before row after split => (first before row after split).2
  · have done := (finished_done (postgres ι) later i _).mp ended
    have nothing := raised fun pairs same => by
      rw [done] at same
      cases same
    have disciplined := history_orderly rt calls later onward
    have through := batch_through rt calls now later deeds reached i requests call unstarted logged
      UnusedId fresh _ done
    have raises := (through later.store disciplined.inv (ledger_rely_refl i _)).2 error rfl
    refine ⟨nothing, fun conflict => raises_conflict rt _ requests _ _ error conflict raises,
      fun integrity => ?_⟩
    subst integrity
    exact raises_lost rt now later deeds i requests logged nothing _ (fun _ _ => id) raises

end

-- One batch with the same report twice.
-- A batch, and a writer of its first report.
def racedCalls : Bool → Call
  | false => .batch [⟨"report-1", "scale-7", "ada", .obj [(text "error", .int 3)]⟩,
      ⟨"report-2", "scale-8", "eve", .obj [(text "error", .int 5)]⟩]
  | true => sampleCalls false

-- Every insert has an id no row in sight has.
def freshInserts : Policy (postgres Bool) (Py Outcome) := fun i config query _ =>
  match query with
  | .insertEvent event => ((config.store : Store Bool).visible i).rows.all fun row =>
      row.eventId ≠ event.eventId
  | _ => true

theorem fresh_inserts_given (start later : Config (postgres Bool) (Py Outcome))
    (run : PacedRun (postgres Bool) freshInserts start later) :
    ∃ deeds, Logged (postgres Bool) start deeds later ∧
    GivenOfDeeds (postgres Bool) false UnusedId deeds := by
  obtain ⟨deeds, logged, fine⟩ := paced_logged (postgres Bool) freshInserts start later run
  refine ⟨deeds, logged, ?_⟩
  rintro deed member own query response answered
  obtain ⟨config, same, allowed⟩ := fine deed member query response answered
  rw [← same]
  rw [own] at allowed
  cases query with
  | insertEvent event => exact fun row inside => by simpa using List.all_eq_true.mp allowed row inside
  | _ => trivial

def Outcome.items : Outcome → List (Event × Bool)
  | .batch pairs => pairs
  | _ => []

def Outcome.item : Outcome → Option (Event × Bool)
  | .appended event created => some (event, created)
  | _ => none

-- The batch has found its keys unused when the other writer files the first of them.
theorem raced_run : ∃ final ∈ runPaced (postgres Bool) freshInserts
      (List.replicate 3 false ++ List.replicate 7 true ++ List.replicate 14 false)
      (start reference racedCalls) sampleSupply,
    ∃ batch ∈ (finished (postgres Bool) final.1 false).bind Except.toOption,
    ∃ report ∈ (finished (postgres Bool) final.1 true).bind Except.toOption, ∃ filed ∈ report.item,
      filed.2 = true ∧ batch.items.take 1 = [(filed.1, false)] ∧
      batch.items.map Prod.snd = [false, true] := by decide +kernel

theorem finished_well (config : Config (postgres Bool) (Py Outcome)) (i : Bool) (outcome : Outcome)
    (ended : (finished (postgres Bool) config i).bind Except.toOption = some outcome) :
    finished (postgres Bool) config i = some (.ok outcome) := by
  obtain ⟨answer, done, value⟩ := Option.bind_eq_some_iff.mp ended
  cases answer with
  | error error => cases value
  | ok returned =>
      cases value
      exact done

theorem sample_race_exact :
    ∃ (later : Config (postgres Bool) (Py Outcome)) (deeds : List (Deed (postgres Bool)))
    (first second : Event), Logged (postgres Bool) (start reference racedCalls) deeds later ∧
    finished (postgres Bool) later true = some (.ok (.appended first true)) ∧
    finished (postgres Bool) later false = some (.ok (.batch [(first, false), (second, true)])) ∧
    ∀ row, row ∈ addedBy false deeds ↔ (row, true) ∈ [(first, false), (second, true)] := by
  obtain ⟨⟨later, rest⟩, run, batch, ended, report, other, ⟨first, created⟩, filed, rfl, taken,
    flags⟩ := raced_run
  obtain ⟨deeds, logged, fresh⟩ := fresh_inserts_given _ _ (run_paced (postgres Bool) _ _ _ _ _ _ run)
  have done := finished_well later false batch ended
  have raced := finished_well later true report other
  cases report with
  | appended event flag =>
      cases filed
      obtain ⟨prepared, pairs, rfl, _, _, added, _⟩ :=
        (racing_batches_are_exact reference racedCalls _ later deeds
        (reaches_refl (postgres Bool) _) false _ rfl rfl logged fresh).1 _ done
      match pairs, taken, flags with
      | [_, (second, _)], taken, flags =>
          cases taken
          cases flags
          exact ⟨later, deeds, first, second, logged, raced, done, added⟩
  | batch _ => cases filed
  | sealing _ => cases filed

end CalibrationLedger
