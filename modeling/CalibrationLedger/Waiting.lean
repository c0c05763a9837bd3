import CalibrationLedger.Library.Acquisition
import CalibrationLedger.Races
import Mathlib.Data.String.Basic

set_option autoImplicit false

-- Batches that wait for one another's keys.
namespace CalibrationLedger

open JsonText Digest Interleaving Acquisition

section

variable {ι : Type} [DecidableEq ι] [Fintype ι]

-- The row a session is about to insert.
def inserting (config : Config (postgres ι) (Py Outcome)) (i : ι) : Option Event :=
  match config.sessions i with
  | some (.call (.insertEvent event) _) => some event
  | _ => none

-- The first inserts a key that the second has inserted in a transaction still open.
def WaitsFor (config : Config (postgres ι) (Py Outcome)) (i j : ι) : Prop :=
  j ≠ i ∧ ∃ event ∈ inserting config i, ∃ row ∈ ((config.store : Store ι).transactions j).events,
    event.businessKey = row.businessKey

instance (config : Config (postgres ι) (Py Outcome)) (i j : ι) : Decidable (WaitsFor config i j) :=
  inferInstanceAs (Decidable (_ ∧ _))

def Active (config : Config (postgres ι) (Py Outcome)) (i : ι) : Prop :=
  ∃ query resume, config.sessions i = some (.call query resume)

-- Whatever it is supplied with, the statement of the session is answered.
def Unblocked (config : Config (postgres ι) (Py Outcome)) (i : ι) : Prop := ∃ query resume,
  config.sessions i = some (.call query resume) ∧
  ∀ supply, ∃ answer, respond i query config.store supply = some answer

-- The session has drawn an id that a row in another open transaction has.
def DrewTaken (config : Config (postgres ι) (Py Outcome)) (i : ι) : Prop := ∃ event resume,
  config.sessions i = some (.call (.insertEvent event) resume) ∧
    ∃ j, j ≠ i ∧ ∃ row ∈ ((config.store : Store ι).transactions j).events, row.eventId = event.eventId

-- The key a session is about to insert.
def stopOf (config : Config (postgres ι) (Py Outcome)) (i : ι) : String :=
  ((inserting config i).map Event.businessKey).getD ""

def requestKeys (requests : List SubmitReport) : List String := requests.map SubmitReport.businessKey

def takenKeys (store : Store ι) : Set String := fun key => ∃ row ∈ store.events.rows, row.businessKey = key

-- A group of calls with batches that have not begun, and nobody else still working.
structure Gathered (rt : Runtime) (calls : ι → Call) (group : Set ι) (batches : ι → List SubmitReport)
    (now : Config (postgres ι) (Py Outcome)) : Prop where
  quiet : Quiet (now.store : Store ι)
  batch : ∀ i ∈ group, calls i = .batch (batches i)
  unstarted : ∀ i ∈ group, now.sessions i = some ((calls i).program rt).run
  ended : ∀ i ∉ group, ¬ Active now i

-- The batches say the same of a key they share, and so do the rows there are.
structure Alike (rt : Runtime) (group : Set ι) (batches : ι → List SubmitReport) (began : Store ι) :
    Prop where
  valid : ∀ i ∈ group, ∀ request ∈ batches i, Valid rt request
  shared : ∀ i ∈ group, ∀ j ∈ group, ∀ a ∈ batches i, ∀ b ∈ batches j, a.businessKey = b.businessKey →
    ∀ left right, Content rt a left → Content rt b right → left = right
  committed : ∀ i ∈ group, ∀ request ∈ batches i, ∀ row ∈ began.events.rows,
    row.businessKey = request.businessKey →
    Content rt request row.contentFingerprint

-- What a run of the group keeps: some have committed all of their keys, the rows are
-- theirs or older, and only who is at work has a transaction.
structure Standing (rt : Runtime) (group : Set ι) (batches : ι → List SubmitReport) (began : Store ι)
    (config : Config (postgres ι) (Py Outcome)) : Prop where
  keys : ∃ done ⊆ group, takenKeys (config.store : Store ι) =
    known (takenKeys began) (fun i => requestKeys (batches i)) done
  rows : ∀ row ∈ (config.store : Store ι).events.rows, row ∈ began.events.rows ∨
    ∃ i ∈ group, ∃ request ∈ batches i,
    request.businessKey = row.businessKey ∧ Content rt request row.contentFingerprint
  idle : ∀ i, ¬ Active config i → Idle i (config.store : Store ι)
  unlocked : ∀ i, ((config.store : Store ι).transactions i).exclusive = false
  ended : ∀ i ∉ group, ¬ Active config i

theorem inserting_active (config : Config (postgres ι) (Py Outcome)) (i : ι) (event : Event) :
    inserting config i = some event ↔
    ∃ resume, config.sessions i = some (.call (.insertEvent event) resume) := by
  unfold inserting
  constructor
  · intro found
    split at found
    · rename_i at_insert resume active
      cases found
      exact ⟨resume, active⟩
    · cases found
  · rintro ⟨resume, active⟩
    rw [active]

theorem insert_waits (store : Store ι) (i : ι) (event : Event) (supply : Supply)
    (admitted : store.admits i event = true) (contested : store.contested i event = true) :
    respond i (.insertEvent event) store supply = none := by
  rw [respond, admitted, contested]
  rfl

theorem contested_blocked (config : Config (postgres ι) (Py Outcome)) (i : ι) (event : Event)
    (found : inserting config i = some event)
    (admitted : (config.store : Store ι).admits i event = true)
    (contested : (config.store : Store ι).contested i event = true) :
    ¬ Unblocked config i := by
  obtain ⟨resume, active⟩ := (inserting_active config i event).mp found
  rintro ⟨query, onward, session, answered⟩
  rw [active] at session
  cases session
  obtain ⟨answer, given⟩ := answered sampleSupply
  exact absurd (given.symm.trans (insert_waits config.store i event sampleSupply admitted contested))
    (by simp)

theorem respond_unlocked (i : ι) (query : Statement) (store : Store ι) (before : Supply)
    (response : Response query) (next : Store ι) (after : Supply) (other : query ≠ .tryLockExclusive)
    (free : (store.transactions i).exclusive = false)
    (answer : respond i query store before = some (response, next, after)) :
    (next.transactions i).exclusive = false := by
  cases query with
  | tryLockExclusive => exact absurd rfl other
  | lockShared =>
      rw [respond] at answer
      split at answer <;> cases answer
      rw [update_same]
      exact free
  | selectForUpdate eventId =>
      rw [respond] at answer
      split at answer
      · cases answer
        exact free
      · split at answer <;> cases answer
        rw [update_same]
        exact free
  | nextval =>
      cases answer
      rw [update_same]
      exact free
  | insertEvent event =>
      rw [respond] at answer
      split at answer
      · cases answer
        exact free
      · split at answer <;> cases answer
        rw [update_same]
        exact free
  | insertCheckpoint checkpoint =>
      rw [respond] at answer
      split at answer
      · cases answer
        exact free
      · split at answer <;> cases answer
        rw [update_same]
        exact free
  | commit =>
      cases answer
      rw [commit_idle i store]
      rfl
  | rollback =>
      cases answer
      rw [rollback_idle i store]
      rfl
  | _ =>
      cases answer
      exact free

theorem lock_answered (i : ι) (store : Store ι) (supply : Supply) (free : store.othersExclusive i = false) :
    ∃ answer, respond i .lockShared store supply = some answer := by
  rw [respond, free]
  exact ⟨_, rfl⟩

theorem insert_answered (i : ι) (event : Event) (store : Store ι) (supply : Supply)
    (free : store.contested i event = false) :
    ∃ answer, respond i (.insertEvent event) store supply = some answer := by
  rw [respond, free]
  cases store.admits i event with
  | true => exact ⟨_, rfl⟩
  | false => exact ⟨_, rfl⟩

theorem batch_keys (rt : Runtime) (requests : List SubmitReport) (prepared : List PreparedReport)
    (made : prepareBatch rt 0 requests = .ok prepared) : batchKeys prepared = requestKeys requests := by
  have each := (prepare_batch_valid rt 0 requests prepared).mp made
  clear made
  induction each with
  | nil => rfl
  | cons item _ ih =>
      obtain ⟨reportDigest, _, rfl⟩ := item
      exact congrArg (List.cons _) ih

theorem forall_left {α β : Type} {holds : α → β → Prop} {left : List α} {right : List β}
    (each : List.Forall₂ holds left right) (b : β) (member : b ∈ right) : ∃ a ∈ left, holds a b := by
  induction each with
  | nil => cases member
  | cons pair _ ih =>
      rcases List.mem_cons.mp member with rfl | later
      · exact ⟨_, List.mem_cons_self, pair⟩
      · obtain ⟨a, inside, found⟩ := ih later
        exact ⟨a, List.mem_cons_of_mem _ inside, found⟩

theorem forall_right {α β : Type} {holds : α → β → Prop} {left : List α} {right : List β}
    (each : List.Forall₂ holds left right) (a : α) (member : a ∈ left) : ∃ b ∈ right, holds a b :=
  forall_left each.flip a member

omit [Fintype ι] in
theorem fulfilled_keys (rt : Runtime) (signing : Text → Bytes → Prop) (i : ι)
    (prepared : List PreparedReport) (pairs : List (Event × Bool)) (store : Store ι)
    (sound : Sound rt signing store) (fulfilled : Fulfilled i [] [] prepared pairs store) (key : String) :
    key ∈ takenKeys (store.commit i) ↔ key ∈ takenKeys store ∨ key ∈ batchKeys prepared := by
  constructor
  · rintro ⟨row, entered, rfl⟩
    rcases mem_insert_all store.events _ row entered with own | committed
    · rw [fulfilled.own] at own
      obtain ⟨pair, member, rfl⟩ := List.mem_map.mp own
      obtain ⟨item, inside, answers⟩ := forall_left fulfilled.answers pair (List.mem_of_mem_filter member)
      exact .inr (List.mem_map.mpr ⟨item, inside, answers.2.1.symm⟩)
    · exact .inl ⟨row, committed, rfl⟩
  · rintro (⟨row, committed, keyed⟩ | listed)
    · exact ⟨row, visible_committed store i row committed, keyed⟩
    · obtain ⟨item, inside, rfl⟩ := List.mem_map.mp listed
      obtain ⟨pair, _, seen, keyed, _⟩ := forall_right fulfilled.answers item inside
      rcases seen with committed | own
      · exact ⟨pair.1, visible_committed store i pair.1 committed, keyed⟩
      · exact ⟨pair.1, visible_own rt signing store i pair.1 sound own, keyed⟩

theorem prepared_content (rt : Runtime) (requests : List SubmitReport) (prepared : List PreparedReport)
    (made : prepareBatch rt 0 requests = .ok prepared) (item : PreparedReport) (member : item ∈ prepared) :
    ∃ request ∈ requests, request.businessKey = item.request.businessKey ∧
    Content rt request item.fingerprint := by
  obtain ⟨request, asked, reportDigest, digested, rfl⟩ :=
    forall_left ((prepare_batch_valid rt 0 requests prepared).mp made) item member
  exact ⟨request, asked, rfl, reportDigest, digested, rfl⟩

omit [DecidableEq ι] [Fintype ι] in
theorem fulfilled_content (rt : Runtime) (i : ι) (requests : List SubmitReport)
    (prepared : List PreparedReport) (made : prepareBatch rt 0 requests = .ok prepared)
    (pairs : List (Event × Bool)) (store : Store ι) (fulfilled : Fulfilled i [] [] prepared pairs store)
    (row : Event) (own : row ∈ (store.transactions i).events) :
    ∃ request ∈ requests, request.businessKey = row.businessKey ∧
    Content rt request row.contentFingerprint := by
  rw [fulfilled.own] at own
  obtain ⟨pair, member, rfl⟩ := List.mem_map.mp own
  obtain ⟨item, inside, _, keyed, matched⟩ :=
    forall_left fulfilled.answers pair (List.mem_of_mem_filter member)
  obtain ⟨request, asked, same, content⟩ := prepared_content rt requests prepared made item inside
  exact ⟨request, asked, same.trans keyed.symm, matched ▸ content⟩

omit [DecidableEq ι] [Fintype ι] in
theorem taken_same (store next : Store ι) (events : next.events = store.events) :
    takenKeys next = takenKeys store := by
  unfold takenKeys
  rw [events]

theorem active_other (config : Config (postgres ι) (Py Outcome)) (store : Store ι) (i j : ι)
    (session : Option (Program Sql (Py Outcome))) (other : i ≠ j) :
    Active (⟨store, Function.update config.sessions j session⟩ : Config (postgres ι) (Py Outcome)) i ↔
    Active config i := by
  simp [Active, other]

theorem standing_run (rt : Runtime) (calls : ι → Call) (group : Set ι) (batches : ι → List SubmitReport)
    (now later : Config (postgres ι) (Py Outcome)) (deeds : List (Deed (postgres ι)))
    (reached : Reaches (postgres ι) (start rt calls) now)
    (gathered : Gathered rt calls group batches now) (logged : Logged (postgres ι) now deeds later) :
    Standing rt group batches now.store later := by
  induction logged with
  | nothing =>
      refine ⟨⟨∅, Set.empty_subset _, ?_⟩, fun row => .inl, fun i _ => gathered.quiet i, fun i => ?_,
        gathered.ended⟩
      · ext key
        exact ⟨.inl, fun found => found.resolve_right fun ⟨_, nobody, _⟩ => nobody⟩
      · rw [gathered.quiet i]
        rfl
  | answer deeds config j query resume response store before after logged active answer ih =>
      have inside : j ∈ group := by_contra fun outside => ih.ended j outside ⟨query, resume, active⟩
      obtain ⟨allowed, prepared, made, going⟩ :=
        batch_call_step rt calls now config deeds reached j (batches j) (gathered.batch j inside)
        (gathered.unstarted j inside) logged query resume active
      have disciplined :=
        history_orderly rt calls config
          (reaches_trans (postgres ι) _ _ _ reached (logged_reaches (postgres ι) _ _ _ logged))
      obtain ⟨inv, rely⟩ :=
        (orderly ι rt (SigningKey calls)).respond_keeps j query config.store before response store after
        disciplined.inv allowed answer
      refine ⟨?_, ?_, fun i inactive => ?_, fun i => ?_, fun i outside => ?_⟩
      · obtain ⟨done, known_done, keys⟩ := ih.keys
        by_cases commits : query = .commit
        · subst commits
          cases answer
          rcases going with ⟨empty, _⟩ | ⟨pairs, _, fulfilled⟩
          · exact ⟨done, known_done, (taken_same _ _ (commit_unwritten j config.store empty)).trans keys⟩
          · refine ⟨insert j done, Set.insert_subset inside known_done, ?_⟩
            ext key
            rw [fulfilled_keys rt _ j prepared pairs config.store disciplined.inv.1 fulfilled key, keys,
              batch_keys rt _ prepared made]
            exact known_insert _ _ done j key
        · have unwritten := respond_unwritten j query config.store before response store after commits answer
          exact ⟨done, known_done, (taken_same _ _ (congrArg Ledger.events unwritten)).trans keys⟩
      · intro row entered
        by_cases commits : query = .commit
        · subst commits
          cases answer
          rcases going with ⟨empty, _⟩ | ⟨pairs, _, fulfilled⟩
          · rw [commit_unwritten j config.store empty] at entered
            exact ih.rows row entered
          · rcases mem_insert_all (config.store : Store ι).events _ row entered with own | committed
            · obtain ⟨request, asked, keyed, content⟩ :=
                fulfilled_content rt j (batches j) prepared made pairs config.store fulfilled row own
              exact .inr ⟨j, inside, request, asked, keyed, content⟩
            · exact ih.rows row committed
        · have unwritten :=
            congrArg Ledger.events
              (respond_unwritten j query config.store before response store after commits answer)
          rw [show (store : Store ι).events = _ from unwritten] at entered
          exact ih.rows row entered
      · by_cases same : i = j
        · subst i
          cases left : resume response with
          | call next onward => exact absurd ⟨next, onward, by simp [left]⟩ inactive
          | done value =>
              have through := batch_through rt calls now _ _ reached j (batches j)
                (gathered.batch j inside) (gathered.unstarted j inside)
                (.answer deeds config j query resume response store before after logged active answer)
                (fun _ _ _ => True)
                (fun _ _ _ _ _ _ => trivial) (.done value) (by simp [left])
              exact (through store inv (ledger_rely_refl j store)).1
        · rw [active_other config store i j _ same] at inactive
          exact (rely i same).own.trans (ih.idle i inactive)
      · by_cases same : i = j
        · subst i
          refine respond_unlocked j query config.store before response store after ?_ (ih.unlocked j) answer
          rintro rfl
          exact going.1
        · rw [(rely i same).own]
          exact ih.unlocked i
      · rw [active_other config store i j _ (by rintro rfl; exact outside inside)]
        exact ih.ended i outside
  | lose deeds config j query resume logged active ih =>
      have inside : j ∈ group := by_contra fun outside => ih.ended j outside ⟨query, resume, active⟩
      have elsewhere : ∀ i, i ≠ j →
          ((postgres ι).abandon j config.store).transactions i = (config.store : Store ι).transactions i :=
        fun i other => update_other config.store j i (fun _ => Transaction.idle) other
      refine ⟨ih.keys, ih.rows, fun i inactive => ?_, fun i => ?_, fun i outside work => ?_⟩
      · by_cases same : i = j
        · rw [same]
          exact rollback_idle j config.store
        · refine (elsewhere i same).trans (ih.idle i fun work => inactive ?_)
          exact (active_other config ((postgres ι).abandon j config.store) i j none same).mpr work
      · by_cases same : i = j
        · rw [same, show ((postgres ι).abandon j config.store).transactions j =
            _ from rollback_idle j config.store]
          rfl
        · rw [elsewhere i same]
          exact ih.unlocked i
      · refine ih.ended i outside
          ((active_other config ((postgres ι).abandon j config.store) i j none ?_).mp work)
        rintro rfl
        exact outside inside

section

variable (rt : Runtime) (calls : ι → Call) (group : Set ι) (batches : ι → List SubmitReport)
variable (now later : Config (postgres ι) (Py Outcome)) (deeds : List (Deed (postgres ι)))
variable (reached : Reaches (postgres ι) (start rt calls) now)
  (gathered : Gathered rt calls group batches now)
variable (logged : Logged (postgres ι) now deeds later)

include reached gathered logged

-- The keys of the rows in a transaction are those its batch has come past and nobody
-- has committed.
theorem stopped_holds (i : ι) (event : Event) (resume : Bool → Program Sql (Py Outcome))
    (active : later.sessions i = some (.call (.insertEvent event) resume)) : i ∈ group ∧
      event.businessKey ∈ requestKeys (batches i) ∧ ∀ key,
        key ∈ held (takenKeys (later.store : Store ι)) (requestKeys (batches i)) event.businessKey ↔
          ∃ row ∈ ((later.store : Store ι).transactions i).events, row.businessKey = key := by
  have standing := standing_run rt calls group batches now later deeds reached gathered logged
  have inside : i ∈ group := by_contra fun outside => standing.ended i outside ⟨_, _, active⟩
  obtain ⟨_, prepared, made, going⟩ :=
    batch_call_step rt calls now later deeds reached i (batches i) (gathered.batch i inside)
    (gathered.unstarted i inside) logged (.insertEvent event) resume active
  obtain ⟨⟨_, earlier, rest, keys, first, own, seen⟩, _⟩ := going
  have disciplined :=
    history_orderly rt calls later
      (reaches_trans (postgres ι) _ _ _ reached (logged_reaches (postgres ι) _ _ _ logged))
  rw [batch_keys rt _ prepared made] at keys
  refine ⟨inside, by rw [keys]; simp, fun key => ?_⟩
  rw [keys, held_before _ earlier rest event.businessKey first key]
  constructor
  · rintro ⟨before, free⟩
    obtain ⟨row, committed | held, keyed⟩ := seen key before
    · exact absurd ⟨row, committed, keyed⟩ free
    · exact ⟨row, held, keyed⟩
  · rintro ⟨row, held, rfl⟩
    refine ⟨own row held, fun ⟨other, committed, keyed⟩ => ?_⟩
    have same := disciplined.inv.1.apart other row (.inl committed) (.inr ⟨i, held⟩)
      (by simp [Event.clashes, keyed])
    exact disciplined.inv.2.pending i row held (same ▸ committed)

theorem circle_entangled (i : ι) (circle : Relation.TransGen (WaitsFor later) i i) :
    Entangled group (takenKeys (now.store : Store ι)) fun j => requestKeys (batches j) := by
  have standing := standing_run rt calls group batches now later deeds reached gathered logged
  have disciplined :=
    history_orderly rt calls later
      (reaches_trans (postgres ι) _ _ _ reached (logged_reaches (postgres ι) _ _ _ logged))
  obtain ⟨done, inside, keys⟩ := standing.keys
  obtain ⟨waiting, member, waits⟩ := cycle_closed (WaitsFor later) i circle
  have stops : ∀ j ∈ waiting, j ∈ group ∧ stopOf later j ∈ requestKeys (batches j) ∧ ∀ key,
      key ∈ held (takenKeys (later.store : Store ι)) (requestKeys (batches j)) (stopOf later j) ↔
        ∃ row ∈ ((later.store : Store ι).transactions j).events, row.businessKey = key := by
    intro j around
    obtain ⟨_, _, _, event, found, _⟩ := waits j around
    obtain ⟨resume, active⟩ := (inserting_active later j event).mp found
    have stop : stopOf later j = event.businessKey :=
      congrArg (fun row => (Option.map Event.businessKey row).getD "") found
    rw [stop]
    exact stopped_holds rt calls group batches now later deeds reached gathered logged j event resume active
  refine ⟨done, waiting, stopOf later, inside, fun j around => (stops j around).1, ⟨i, member⟩,
    fun j around => ⟨(stops j around).2.1, ?_⟩, ?_⟩
  · obtain ⟨k, around', _, event, found, row, held, keyed⟩ := waits j around
    refine ⟨k, around', ?_⟩
    rw [← keys, (stops k around').2.2, stopOf, found]
    exact ⟨row, held, keyed.symm⟩
  · intro j aroundJ k aroundK apart
    rw [← keys]
    refine fun key heldJ heldK => apart ?_
    obtain ⟨row, ownJ, keyedJ⟩ := ((stops j aroundJ).2.2 key).mp heldJ
    obtain ⟨other, ownK, keyedK⟩ := ((stops k aroundK).2.2 key).mp heldK
    have same := disciplined.inv.1.apart row other (.inr ⟨j, ownJ⟩) (.inr ⟨k, ownK⟩)
      (by simp [Event.clashes, keyedJ, keyedK])
    exact disciplined.inv.2.separate j k row ownJ (same ▸ ownK)

theorem free_goes_on (i : ι) (active : Active later i) (free : ∀ j, Active later j → ¬ WaitsFor later i j) :
    Unblocked later i ∨ DrewTaken later i := by
  have standing := standing_run rt calls group batches now later deeds reached gathered logged
  have disciplined :=
    history_orderly rt calls later
      (reaches_trans (postgres ι) _ _ _ reached (logged_reaches (postgres ι) _ _ _ logged))
  obtain ⟨query, resume, session⟩ := active
  have inside : i ∈ group := by_contra fun outside => standing.ended i outside ⟨query, resume, session⟩
  obtain ⟨allowed, prepared, _, going⟩ :=
    batch_call_step rt calls now later deeds reached i (batches i) (gathered.batch i inside)
    (gathered.unstarted i inside) logged query resume session
  by_cases taken : DrewTaken later i
  · exact .inr taken
  refine .inl ⟨query, resume, session, fun supply => ?_⟩
  cases query with
  | tryLockExclusive => exact going.1.elim
  | selectForUpdate eventId => exact going.1.elim
  | insertCheckpoint checkpoint => exact going.1.elim
  | lockShared =>
      have unlocked : Store.othersExclusive later.store i = false :=
        decide_eq_false fun ⟨j, _, locked⟩ => by simp [standing.unlocked j] at locked
      exact lock_answered i later.store supply unlocked
  | insertEvent event =>
      have uncontested : Store.contested later.store i event = false := by
        refine decide_eq_false fun ⟨j, other, clash⟩ => ?_
        obtain ⟨row, own, clashes⟩ := List.any_eq_true.mp clash
        have at_work : Active later j := by_contra fun ended => by
          rw [standing.idle j ended] at own
          cases own
        simp only [Event.clashes, going.1.1, Bool.or_eq_true, decide_eq_true_eq, Option.isSome_none,
          Bool.false_and,
          Bool.false_eq_true, or_false] at clashes
        rcases clashes with (sequence | eventId) | keyed
        · exact disciplined.inv.2.unused i event.sequence row allowed.1 (.inr ⟨j, own⟩) sequence.symm
        · exact taken ⟨event, resume, session, j, other, row, own, eventId.symm⟩
        · exact free j at_work
            ⟨other, event, (inserting_active later i event).mpr ⟨resume, session⟩, row, own, keyed⟩
      exact insert_answered i event later.store supply uncontested
  | _ => exact ⟨_, rfl⟩

theorem alike_outcome (alike : Alike rt group batches (now.store : Store ι)) (i : ι)
    (inside : i ∈ group) (outcome : Py Outcome) (ended : finished (postgres ι) later i = some outcome) :
    (∃ value, outcome = .ok value ∧ Recorded rt later.store.events (.batch (batches i)) value) ∨
    outcome = .error .integrityError ∧
    (GivenOfDeeds (postgres ι) i UnusedId deeds → ∃ lost : List String, lost.length = 4 ∧ lost.Nodup ∧
      ∀ key ∈ lost, key ∈ requestKeys (batches i) ∧ ∃ j, j ≠ i ∧
      ∃ row ∈ addedBy j deeds, row.businessKey = key) := by
  have onward := reaches_trans (postgres ι) _ _ _ reached (logged_reaches (postgres ι) _ _ _ logged)
  have standing := standing_run rt calls group batches now later deeds reached gathered logged
  have disciplined := history_orderly rt calls later onward
  have done := (finished_done (postgres ι) later i _).mp ended
  cases outcome with
  | ok value =>
      have recorded := history_recorded rt calls later onward i value ended
      rw [gathered.batch i inside] at recorded
      exact .inl ⟨value, rfl, recorded⟩
  | error error =>
      have nothing := (batch_accounts rt calls now later deeds reached i (batches i) (gathered.batch i inside)
        (gathered.unstarted i inside) logged).2 fun pairs same => by
          rw [done] at same
          cases same
      have raises : ∀ more, GivenOfDeeds (postgres ι) i more deeds →
          Raises rt (Unused more i) (batches i) now.store error later.store :=
        fun more given =>
          (batch_through rt calls now later deeds reached i (batches i) (gathered.batch i inside)
          (gathered.unstarted i inside) logged more given _ done later.store disciplined.inv
            (ledger_rely_refl i _)).2 error rfl
      have integrity : error = .integrityError := by
        rcases raises (fun _ _ _ => True) fun _ _ _ _ _ _ =>
          trivial with failed | ⟨prepared, made, ⟨_, collides | taken⟩ | ⟨integrity, _⟩⟩
        · obtain ⟨earlier, request, rest, whole, _, invalid, _⟩ := prepare_batch_invalid rt 0 _ error failed
          exact absurd (alike.valid i inside request (by rw [whole]; simp)) invalid
        · obtain ⟨a, first, b, second, keyed, apart⟩ := collides
          obtain ⟨one, asked, same, content⟩ := prepared_content rt _ prepared made a first
          obtain ⟨two, asked', same', content'⟩ := prepared_content rt _ prepared made b second
          exact absurd (alike.shared i inside i inside one asked two asked'
              (same.trans (keyed.trans same'.symm)) _ _ content content') apart
        · obtain ⟨item, listed, row, committed, keyed, apart⟩ := taken
          obtain ⟨request, asked, same, content⟩ := prepared_content rt _ prepared made item listed
          refine absurd ?_ apart
          rcases standing.rows row committed with old | ⟨j, member, other, asked', same', content'⟩
          · have older := alike.committed i inside request asked row old (keyed.trans same.symm)
            exact alike.shared i inside i inside request asked request asked rfl _ _ older content
          · exact alike.shared j member i inside other asked' request asked
              (same'.trans (keyed.trans same.symm)) _ _ content' content
        · exact integrity
      subst integrity
      refine .inr ⟨rfl, fun fresh => ?_⟩
      obtain ⟨prepared, made, lost, counted, distinct, each⟩ :=
        raises_lost rt now later deeds i (batches i) logged nothing _ (fun _ _ => id) (raises UnusedId fresh)
      refine ⟨lost, counted, distinct, fun key member => ?_⟩
      rw [← batch_keys rt _ prepared made]
      exact each key member

-- Where the lists of keys cannot be entangled no batches wait in a circle, so one of
-- them can always go on, and no run goes on for ever; batches that agree end with the
-- events of their items, or by losing their keys.
theorem unentangled_batches_finish
    (free : ¬ Entangled group (takenKeys (now.store : Store ι)) fun i => requestKeys (batches i)) :
    (∀ i, ¬ Relation.TransGen (WaitsFor later) i i) ∧
    ((∃ i, Active later i) → ∃ i, Active later i ∧ (Unblocked later i ∨ DrewTaken later i)) ∧
    (WellFounded fun after before : Config (postgres ι) (Py Outcome) => Paced (postgres ι)
      (fun _ _ _ _ => true) before after) ∧
    (Alike rt group batches (now.store : Store ι) →
      ∀ i ∈ group, ∀ outcome, finished (postgres ι) later i = some outcome →
      (∃ value, outcome = .ok value ∧ Recorded rt later.store.events (.batch (batches i)) value) ∨
      outcome = .error .integrityError ∧
      (GivenOfDeeds (postgres ι) i UnusedId deeds → ∃ lost : List String, lost.length = 4 ∧ lost.Nodup ∧
        ∀ key ∈ lost, key ∈ requestKeys (batches i) ∧ ∃ j, j ≠ i ∧
        ∃ row ∈ addedBy j deeds, row.businessKey = key)) := by
  have acyclic : ∀ i, ¬ Relation.TransGen (WaitsFor later) i i := fun i circle =>
    free (circle_entangled rt calls group batches now later deeds reached gathered logged i circle)
  refine ⟨acyclic, fun at_work => ?_, paced_well_founded (postgres ι) _,
    fun alike i inside outcome ended => ?_⟩
  · obtain ⟨i, active, nobody⟩ := acyclic_free (WaitsFor later) acyclic (fun i => Active later i) at_work
    exact ⟨i, active,
      free_goes_on rt calls group batches now later deeds reached gathered logged i active nobody⟩
  · exact alike_outcome rt calls group batches now later deeds reached gathered logged alike i inside
      outcome ended

end

end

def firstReport : SubmitReport := ⟨"a", "i", "o", .obj []⟩

def secondReport : SubmitReport := ⟨"b", "i", "o", .obj []⟩

-- Two batches of the same reports, one the other way round.
def crossingBatches : Bool → List SubmitReport
  | false => [firstReport, secondReport]
  | true => [secondReport, firstReport]

theorem crossing_alike : Alike reference Set.univ crossingBatches (Store.empty Bool) := by
  have listed : ∀ i, ∀ request ∈ crossingBatches i, request = firstReport ∨ request = secondReport := by
    intro i request member
    cases i <;> simpa [crossingBatches, or_comm] using member
  have same : ∀ i j, ∀ a ∈ crossingBatches i, ∀ b ∈ crossingBatches j,
      a.businessKey = b.businessKey → a = b := by
    intro i j a first b second keyed
    rcases listed i a first with rfl | rfl <;> rcases listed j b second with rfl | rfl
    · rfl
    · exact absurd keyed (by decide)
    · exact absurd keyed (by decide)
    · rfl
  refine ⟨fun i _ request member => ?_, fun i _ j _ a first b second keyed left right made made' => ?_,
    fun i _ request _ row inside => nomatch inside⟩
  · rcases listed i request member with rfl | rfl
    · exact ⟨_, rfl⟩
    · exact ⟨_, rfl⟩
  · obtain ⟨one, digested, rfl⟩ := made
    obtain ⟨two, digested', rfl⟩ := made'
    cases same i j a first b second keyed
    rw [digested] at digested'
    cases digested'
    rfl

theorem crossing_batches_deadlock : Alike reference Set.univ crossingBatches (Store.empty Bool) ∧
    ∃ config, Reaches (postgres Bool) (start reference fun i => .batch (crossingBatches i)) config ∧
      Relation.TransGen (WaitsFor config) true true ∧ ∀ i, Active config i ∧ ¬ Unblocked config i := by
  have ran : ∃ final ∈ runSchedule (postgres Bool) (List.replicate 9 false ++ List.replicate 9 true)
      (start reference fun i => .batch (crossingBatches i)) sampleSupply, ∀ i, WaitsFor final.1 i (!i) ∧
        ∃ event ∈ inserting final.1 i, (final.1.store : Store Bool).admits i event = true ∧
          (final.1.store : Store Bool).contested i event = true := by decide +kernel
  obtain ⟨⟨config, rest⟩, run, stuck⟩ := ran
  refine ⟨crossing_alike, config, run_schedule_reaches (postgres Bool) _ _ _ _ _ run, ?_, fun i => ?_⟩
  · exact .head (stuck true).1 (.single (stuck false).1)
  · obtain ⟨_, event, found, admitted, contested⟩ := stuck i
    obtain ⟨resume, active⟩ := (inserting_active config i event).mp found
    exact ⟨⟨_, resume, active⟩, contested_blocked config i event found admitted contested⟩

-- The same reports in the same order.
def sharingBatches : Bool → List SubmitReport := fun _ => [firstReport, secondReport]

theorem sharing_sorted : (requestKeys [firstReport, secondReport]).Pairwise fun a b => a ≤ b := by decide

theorem sharing_batches_wait :
    ∃ final ∈ runSchedule (postgres Bool) (List.replicate 6 false ++ List.replicate 5 true)
    (start reference fun i => .batch (sharingBatches i)) sampleSupply,
    WaitsFor final.1 true false := by decide +kernel

theorem sharing_batches_finish :
    ∃ later, WaitsFor later true false ∧ (∀ i, ¬ Relation.TransGen (WaitsFor later) i i) ∧
    ∃ i, Active later i ∧ (Unblocked later i ∨ DrewTaken later i) := by
  obtain ⟨⟨later, rest⟩, run, waits⟩ := sharing_batches_wait
  obtain ⟨deeds, logged⟩ :=
    reaches_logged (postgres Bool) _ _ (run_schedule_reaches (postgres Bool) _ _ _ _ _ run)
  have gathered : Gathered reference (fun i => .batch (sharingBatches i)) Set.univ sharingBatches
      (start reference fun i => .batch (sharingBatches i)) :=
    ⟨fun _ => rfl, fun _ _ => rfl, fun _ _ => rfl, fun i outside => absurd (Set.mem_univ i) outside⟩
  obtain ⟨acyclic, onward, _⟩ :=
    unentangled_batches_finish reference (fun i => .batch (sharingBatches i)) Set.univ sharingBatches _ later
    deeds (reaches_refl (postgres Bool) _) gathered logged
      (sorted_not_entangled _ _ _ fun _ _ => sharing_sorted)
  obtain ⟨event, found, _⟩ := waits.2
  obtain ⟨resume, active⟩ := (inserting_active later true event).mp found
  exact ⟨later, waits, acyclic, onward ⟨true, _, resume, active⟩⟩

end CalibrationLedger
