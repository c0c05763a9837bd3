import CalibrationLedger.Idempotency
import CalibrationLedger.Library.Pacing

set_option autoImplicit false

-- The same successor asked for by several calls at once.
namespace CalibrationLedger

open JsonText Digest Interleaving

-- A call for a revision or revocation, and what it asks of _append_successor.
inductive Call.Asks (rt : Runtime) : Call → Successor → Prop where
  | revision (previousEventId : Uuid) (request : SubmitRevision) (reportDigest fingerprint : String)
      (digested : digestJson rt request.report = .ok reportDigest)
      (made : revisionFingerprint rt previousEventId request reportDigest = .ok fingerprint) :
      Asks rt (.revision previousEventId request)
        (revisionOf previousEventId request reportDigest fingerprint)
  | revocation (previousEventId : Uuid) (request : SubmitRevocation) (fingerprint : String)
      (made : revocationFingerprint rt previousEventId request = .ok fingerprint) :
      Asks rt (.revocation previousEventId request) (revocationOf previousEventId request fingerprint)

section

variable (rt : Runtime) (request : Successor)

-- insertSuccessor with the key found unused.
def insertNew : Tx (Event × Bool) := do
  ask .lockShared
  match ← ask (.selectForUpdate request.previousEventId) with
  | none => throw (notFoundError "event" request.previousEventId.toText)
  | some parent =>
      if parent.eventType = .revocation then throw (recordRevoked request.previousEventId)
      else
        match ← ask (.selectSuccessor request.previousEventId) with
        | some successor => throw (alreadySuperseded request.previousEventId successor)
        | none =>
            match changesInstrument request.instrumentId parent with
            | some received => throw (instrumentMismatch parent.instrumentId received)
            | none =>
                let event ← newEvent rt (successorDraft request parent)
                return (← flushEvent event, true)

-- The handler of an IntegrityError.
def afterConflict : Tx (Event × Bool) := do
  match ← ask (.selectByKey request.businessKey) with
  | some existing => return (← checkIdempotency existing request.fingerprint, false)
  | none =>
      match ← ask (.selectSuccessor request.previousEventId) with
      | some successor => throw (alreadySuperseded request.previousEventId successor)
      | none => throw .integrityError

def afterLookup : Option Event → Tx (Event × Bool)
  | some existing => do return (← checkIdempotency existing request.fingerprint, false)
  | none => insertNew rt request

def afterRead (found : Option Event) : Tx Outcome := do
  return appendedOf (← onIntegrityError (transaction (afterLookup rt request found)) (afterConflict request))

theorem asks_program (call : Call) (asks : call.Asks rt request) : (call.program rt).run =
    .call (.selectByKey request.businessKey) fun found => (afterRead rt request found).run := by
  have shape : (do return appendedOf (← appendSuccessor rt request) : Tx Outcome).run =
      .call (.selectByKey request.businessKey) fun found => (afterRead rt request found).run := by
    have lookup : insertSuccessor rt request = ask (.selectByKey request.businessKey) >>=
        afterLookup rt request := by
      rw [insertSuccessor]
      refine congrArg (ask (.selectByKey request.businessKey) >>= ·) (funext fun found => ?_)
      cases found <;> rfl
    rw [appendSuccessor, lookup]
    rfl
  cases asks with
  | revision previousEventId request reportDigest fingerprint digested made =>
      rw [← shape, Call.program, appendRevision, digested]
      refine Eq.trans (b := (do return appendedOf (← (do
        let fingerprint ← revisionFingerprint rt previousEventId request reportDigest
        appendSuccessor rt (revisionOf previousEventId request reportDigest fingerprint))) :
          Tx Outcome).run) rfl ?_
      rw [made]
      rfl
  | revocation previousEventId request fingerprint made =>
      rw [← shape, Call.program, appendRevocation, made]
      rfl

end

def Statement.looksUp : Statement → Bool
  | .selectByKey _ => true
  | _ => false

section

variable {ι : Type}

-- uuid_factory gives no id an event already has.
def freshId (store : Store ι) : (query : Statement) → Response query → Bool
  | .uuidFactory, id => store.events.rows.all fun row => row.eventId ≠ id
  | _, _ => true

-- What there is before any of the calls begins.
structure Unclaimed (request : Successor) (parent : Event) (store : Store ι) : Prop where
  quiet : Quiet store
  unused : store.events.byKey request.businessKey = none
  found : store.events.byId request.previousEventId = some parent
  standing : parent.eventType ≠ .revocation
  childless : store.events.successor request.previousEventId = none
  instrument : changesInstrument request.instrumentId parent = none

-- What there is once one of them has entered its row.
structure Entered (request : Successor) (before : Store ι) (event : Event) (after : Store ι) : Prop where
  quiet : Quiet after
  rows : ∀ row, row ∈ after.events.rows ↔ row = event ∨ row ∈ before.events.rows
  new : event ∉ before.events.rows
  keyed : event.businessKey = request.businessKey
  matched : event.contentFingerprint = request.fingerprint
  names : event.previousEventId = some request.previousEventId

-- While a call is on its way the rows are as it found them and nobody else has begun.
structure OnItsWay (before : Store ι) (i : ι) (query : Statement) (store : Store ι) : Prop where
  begun : query.looksUp = false
  events : store.events = before.events
  alone : Alone i store

variable [DecidableEq ι] [Fintype ι] {α β : Type} (before : Store ι) (i : ι)

abbrev LeadsTo (good : α → Store ι → Prop) (program : Tx α) (store : Store ι) : Prop :=
  Proceeds (postgres ι) i (OnItsWay before i)
    (fun query response store => freshId store query response = true)
    (fun outcome now => ∃ value, outcome = .ok value ∧ good value now) program.run store

theorem leads_return (good : α → Store ι → Prop) (value : α) (store : Store ι) (holds : good value store) :
    LeadsTo before i good (return value) store := ⟨value, rfl, holds⟩

theorem leads_ask (good : α → Store ι → Prop) (query : Statement) (next : Response query → Tx α)
    (store : Store ι) (way : OnItsWay before i query store) (step : ∀ supply, ∃ response after rest,
      respond i query store supply = some (response, after, rest) ∧
        (freshId store query response = true → LeadsTo before i good (next response) after)) :
    LeadsTo before i good (ask query >>= next) store := ⟨way, step⟩

theorem leads_bind (good : β → Store ι → Prop) (first : Tx α) (next : α → Tx β) (store : Store ι)
    (leads : LeadsTo before i (fun value now => LeadsTo before i good (next value) now) first store) :
    LeadsTo before i good (first >>= next) store := by
  refine proceeds_bind (postgres ι) i _ _ _ _ first.run _ store leads fun outcome now found => ?_
  obtain ⟨value, rfl, onward⟩ := found
  exact onward

theorem leads_transaction (good : α → Store ι → Prop) (body : Tx α) (store : Store ι)
    (leads : LeadsTo before i (fun value now => OnItsWay before i .commit now ∧
      good value (now.commit i)) body store) :
    LeadsTo before i good (transaction body) store := by
  refine proceeds_bind (postgres ι) i _ _ _ _ body.run _ store leads fun outcome now found => ?_
  obtain ⟨value, rfl, way, holds⟩ := found
  exact ⟨way, fun supply => ⟨(), now.commit i, supply, rfl, fun _ => ⟨value, rfl, holds⟩⟩⟩

theorem leads_unhandled (good : α → Store ι → Prop) (body handler : Tx α) (store : Store ι)
    (leads : LeadsTo before i good body store) :
    LeadsTo before i good (onIntegrityError body handler) store := by
  refine proceeds_bind (postgres ι) i _ _ _ _ body.run _ store leads fun outcome now found => ?_
  obtain ⟨value, rfl, holds⟩ := found
  exact ⟨value, rfl, holds⟩

end

theorem alone_locked {ι : Type} [DecidableEq ι] [Fintype ι] (i : ι) (store : Store ι) (eventId : Uuid)
    (alone : Alone i store) :
    store.lockedElsewhere i eventId = false := by
  refine decide_eq_false fun ⟨j, other, held⟩ => ?_
  rw [alone j other] at held
  cases held

section

variable (rt : Runtime) {ι : Type} (before : Store ι) (i : ι) (request : Successor) (parent : Event)
  (unclaimed : Unclaimed request parent before)

-- The row the parent's successor becomes.
def successorRow (eventId : Uuid) (occurredAt : Instant) (sequence : Int) : Event :=
  { draftRow rt (successorDraft request parent) eventId occurredAt with sequence }

include unclaimed

theorem successor_row_apart (eventId : Uuid) (fresh : ∀ row ∈ before.events.rows, row.eventId ≠ eventId)
    (occurredAt : Instant) (sequence : Int) (next : ∀ row ∈ before.events.rows, row.sequence < sequence)
    (row : Event) (inside : row ∈ before.events.rows) :
    (successorRow rt request parent eventId occurredAt sequence).clashes row = false := by
  have less := next row inside
  have other := fresh row inside
  have unused : row.businessKey ≠ request.businessKey := by
    simpa using List.find?_eq_none.mp unclaimed.unused row inside
  have named : parent.eventId = request.previousEventId := by simpa using List.find?_some unclaimed.found
  have childless : row.previousEventId ≠ some request.previousEventId := by
    simpa using List.find?_eq_none.mp unclaimed.childless row inside
  have later : sequence ≠ row.sequence := ne_of_gt less
  simp [Event.clashes, successorRow, draftRow, successorDraft, later, Ne.symm other, Ne.symm unused,
    named, Ne.symm childless]

theorem find_successor_row (event row : Event) (inside : row = event ∨ row ∈ before.events.rows)
    (same : row.businessKey = request.businessKey) : row = event := by
  rcases inside with is | old
  · exact is
  · exact absurd same (by simpa using List.find?_eq_none.mp unclaimed.unused row old)

omit unclaimed

variable [DecidableEq ι]

theorem entered_commit (event : Event)
    (next : ∀ row ∈ before.events.rows, row.sequence < event.sequence)
    (keyed : event.businessKey = request.businessKey)
    (matched : event.contentFingerprint = request.fingerprint)
    (names : event.previousEventId = some request.previousEventId) (store : Store ι)
    (events : store.events = before.events) (own : (store.transactions i).events = [event])
    (alone : Alone i store) : Entered request before event (store.commit i) where
  quiet j := by
    by_cases same : j = i
    · subst j
      exact commit_idle i store
    · exact (Function.update_of_ne same _ _).trans (alone j same)
  rows row := by
    have table : (store.commit i).events = before.events.insert event := by
      show store.visible i = _
      rw [Store.visible, own, events]
      rfl
    rw [table]
    constructor
    · exact mem_insert_row event row before.events.rows
    · rintro (rfl | old)
      · rcases insert_row_enters row before.events.rows with entered | ⟨other, inside, same⟩
        · exact entered
        · exact absurd same (ne_of_lt (next other inside))
      · exact insert_row_keeps event row _ old
  new inside := lt_irrefl _ (next event inside)
  keyed := keyed
  matched := matched
  names := names

variable [Fintype ι] (signing : Text → Bytes → Prop) (sound : Sound rt signing before)

include unclaimed sound

theorem leads_new (shaped : ∀ eventId occurredAt sequence,
      (successorRow rt request parent eventId occurredAt sequence).payloadShape = true) :
    LeadsTo before i (fun outcome now => ∃ event, outcome = .appended event true ∧
        Entered request before event now)
      (afterRead rt request none) before := by
  have alone : Alone i before := fun j _ => unclaimed.quiet j
  have named : parent.eventId = request.previousEventId := by simpa using List.find?_some unclaimed.found
  refine leads_bind before i _ _ _ before
    (leads_unhandled before i _ _ _ before (leads_transaction before i _ _ before ?_))
  -- the advisory lock, the parent's row and the successor that is not there
  let shared := before.update i fun tx => { tx with shared := true }
  have aloneShared : Alone i shared := alone_update i before _ alone
  refine leads_ask before i _ .lockShared _ before ⟨rfl, rfl, alone⟩ fun supply =>
    ⟨(), shared, supply, ?_, fun _ => ?_⟩
  · rw [respond, alone_exclusive i before alone]
    rfl
  let locked := shared.update i fun tx => { tx with locked := request.previousEventId :: tx.locked }
  have aloneLocked : Alone i locked := alone_update i shared _ aloneShared
  have own : locked.transactions i =
      { Transaction.idle with shared := true, locked := [request.previousEventId] } := by
    rw [update_same, update_same, unclaimed.quiet i]
    rfl
  have sharedEvents : (shared.transactions i).events = [] := by
    rw [update_same, unclaimed.quiet i]
    rfl
  have visible : locked.visible i = before.events := by
    rw [Store.visible, own]
    rfl
  refine leads_ask before i _ (.selectForUpdate request.previousEventId) _ shared
      ⟨rfl, rfl, aloneShared⟩ fun supply =>
    ⟨some parent, locked, supply, ?_, fun _ => ?_⟩
  · have seen : (shared.visible i).byId request.previousEventId = some parent := by
      rw [Store.visible, sharedEvents]
      exact unclaimed.found
    rw [respond]
    simp only [seen]
    rw [alone_locked i shared _ aloneShared]
    rfl
  dsimp only
  rw [if_neg unclaimed.standing]
  refine leads_ask before i _ (.selectSuccessor request.previousEventId) _ locked
      ⟨rfl, rfl, aloneLocked⟩ fun supply =>
    ⟨none, locked, supply, ?_, fun _ => ?_⟩
  · rw [respond, visible, unclaimed.childless]
  dsimp only
  rw [unclaimed.instrument]
  dsimp only
  -- the new row
  rw [new_event_draws]
  refine leads_ask before i _ .uuidFactory _ locked ⟨rfl, rfl, aloneLocked⟩ fun supply =>
    ⟨supply.uuids 0, locked, _, rfl, fun fresh => ?_⟩
  refine leads_ask before i _ .clock _ locked ⟨rfl, rfl, aloneLocked⟩ fun clocks =>
    ⟨clocks.clocks 0, locked, _, rfl, fun _ => ?_⟩
  refine leads_ask before i _ .nextval _ locked ⟨rfl, rfl, aloneLocked⟩ fun gaps =>
    ⟨_, _, _, rfl, fun _ => ?_⟩
  generalize valued : locked.nextSequence + (gaps.gaps 0 : Int) = value
  have next : ∀ row ∈ before.events.rows, row.sequence < value := by
    intro row inside
    have less := (sound.sequences row (.inl inside)).2
    have more : before.nextSequence ≤ value := by
      have start : locked.nextSequence = before.nextSequence := rfl
      omega
    exact lt_of_lt_of_le less more
  let drawn : Store ι := ({ locked with nextSequence := value + 1 }).update i fun tx =>
    { tx with allocated := some value }
  have ownDrawn : drawn.transactions i = { locked.transactions i with allocated := some value } :=
    update_same _ i _
  have aloneDrawn : Alone i drawn := alone_update i _ _ aloneLocked
  have visibleDrawn : drawn.visible i = before.events := by
    rw [Store.visible, ownDrawn]
    exact visible
  have drawnFresh : ∀ row ∈ locked.events.rows, row.eventId ≠ supply.uuids 0 := by simpa [freshId] using fresh
  have unused : ∀ row ∈ before.events.rows, row.eventId ≠ supply.uuids 0 := drawnFresh
  generalize supply.uuids 0 = eventId at unused ⊢
  generalize clocks.clocks 0 = occurredAt
  have apart := successor_row_apart rt before request parent unclaimed eventId unused occurredAt value next
  have admitted : drawn.admits i (successorRow rt request parent eventId occurredAt value) = true := by
    have parents : (successorRow rt request parent eventId occurredAt value).previousEventId =
      some parent.eventId := rfl
    rw [Store.admits, visibleDrawn, shaped, parents, named]
    simp only [unclaimed.found]
    simpa using apart
  let written : Store ι := drawn.update i fun tx =>
    { tx with allocated := none, events := tx.events ++
        [successorRow rt request parent eventId occurredAt value] }
  have ownWritten : (written.transactions i).events =
      [successorRow rt request parent eventId occurredAt value] := by
    rw [update_same, ownDrawn, own]
    rfl
  have aloneWritten : Alone i written := alone_update i drawn _ aloneDrawn
  refine leads_ask before i _ (.insertEvent (successorRow rt request parent eventId occurredAt value)) _ drawn
    ⟨rfl, rfl, aloneDrawn⟩ fun supply => ⟨true, written, supply, ?_, fun _ => ?_⟩
  · rw [respond, admitted, alone_contested i drawn _ aloneDrawn]
    rfl
  refine leads_return before i _ _ written ⟨⟨rfl, rfl, aloneWritten⟩, ?_⟩
  refine leads_return before i _ _ _ ⟨successorRow rt request parent eventId occurredAt value, rfl, ?_⟩
  exact entered_commit before i request _ next rfl rfl (congrArg some named) written
    rfl ownWritten aloneWritten

end

theorem asks_shaped (rt : Runtime) (call : Call) (request : Successor) (asks : call.Asks rt request)
    (parent : Event) (eventId : Uuid) (occurredAt : Instant) (sequence : Int) :
    (successorRow rt request parent eventId occurredAt sequence).payloadShape = true := by
  cases asks <;> rfl

-- A call that has read its key and not yet answered.
def underway : Option (Program Sql (Py Outcome)) → Bool
  | some (.call query _) => !query.looksUp
  | _ => false

def foundUnused : (query : Statement) → Response query → Bool
  | .selectByKey _, none => true
  | _, _ => false

section

variable {ι : Type} [DecidableEq ι] [Fintype ι] (twins : Finset ι)

-- The calls in any order, with nobody else about.
def undisturbed : Policy (postgres ι) (Py Outcome) := fun i config query response =>
  decide (i ∈ twins) && freshId config.store query response

-- No call reads the key as unused while another is underway.
def spaced : Policy (postgres ι) (Py Outcome) := fun i config query response =>
  undisturbed twins i config query response &&
    (!foundUnused query response || decide (∀ j ∈ twins, j ≠ i → underway (config.sessions j) = false))

-- What a call does that finds the row.
def replaying (event : Event) : Program Sql (Py Outcome) :=
  .call .commit fun _ => .done (.ok (.appended event false))

variable (rt : Runtime) (request : Successor) (now : Config (postgres ι) (Py Outcome))

-- How far the calls have come.
inductive Stage : Config (postgres ι) (Py Outcome) → Prop where
  | waiting : Stage now
  | led (leader : ι) (twin : leader ∈ twins) (query : Statement)
      (resume : Response query → Program Sql (Py Outcome))
      (store : Store ι) (leads : Proceeds (postgres ι) leader (OnItsWay now.store leader)
        (fun query response store => freshId store query response = true)
        (fun outcome later => ∃ value, outcome = .ok value ∧ ∃ event, value = .appended event true ∧
          Entered request now.store event later) (.call query resume) store) :
      Stage ⟨store, Function.update now.sessions leader (some (.call query resume))⟩
  | won (config : Config (postgres ι) (Py Outcome)) (leader : ι) (twin : leader ∈ twins) (event : Event)
      (entered : Entered request now.store event config.store)
      (answered : config.sessions leader = some (.done (.ok (.appended event true))))
      (others : ∀ j ∈ twins, j ≠ leader → config.sessions j = now.sessions j ∨
        config.sessions j = some (replaying event) ∨
        config.sessions j = some (.done (.ok (.appended event false)))) : Stage config

theorem spaced_twin (i : ι) (config : Config (postgres ι) (Py Outcome)) (query : Statement)
    (response : Response query) (fine : spaced twins i config query response = true) :
    i ∈ twins ∧ freshId config.store query response = true ∧
      (foundUnused query response = true → ∀ j ∈ twins, j ≠ i → underway (config.sessions j) = false) := by
  simp only [spaced, undisturbed, Bool.and_eq_true, decide_eq_true_eq, Bool.or_eq_true,
    Bool.not_eq_true'] at fine
  obtain ⟨⟨twin, fresh⟩, apart⟩ := fine
  refine ⟨twin, fresh, fun unused => ?_⟩
  rcases apart with other | apart
  · rw [unused] at other
    cases other
  · exact apart

variable (signing : Text → Bytes → Prop) (call : Call) (asks : call.Asks rt request) (parent : Event)
  (sound : Sound rt signing now.store) (unclaimed : Unclaimed request parent now.store)
  (unstarted : ∀ i ∈ twins, now.sessions i = some (call.program rt).run)

include asks unstarted in
theorem unstarted_reads (i : ι) (twin : i ∈ twins) : now.sessions i =
    some (.call (.selectByKey request.businessKey) fun found => (afterRead rt request found).run) := by
  rw [unstarted i twin, asks_program rt request call asks]

theorem entered_found (store : Store ι) (event : Event)
    (entered : Entered request now.store event store) (unclaimed : Unclaimed request parent now.store) :
    store.events.byKey request.businessKey = some event := by
  refine find_unique _ _ event ((entered.rows event).mpr (.inl rfl))
    (by simp [entered.keyed]) fun other inside same => ?_
  exact find_successor_row now.store request parent unclaimed event other ((entered.rows other).mp inside)
    (of_decide_eq_true same)

theorem found_replays (event : Event) (matched : event.contentFingerprint = request.fingerprint) :
    (afterRead rt request (some event)).run = replaying event := by
  have checked : checkIdempotency event request.fingerprint = .ok event := by simp [checkIdempotency, matched]
  rw [afterRead, afterLookup, checked]
  rfl

theorem key_read (i : ι) (store : Store ι) (supply : Supply) (businessKey : String) (idle : Idle i store) :
    respond i (.selectByKey businessKey) store supply =
      some (store.events.byKey businessKey, store, supply) := by
  rw [respond, idle_visible i store idle]

omit [Fintype ι] in
theorem commit_nothing (store : Store ι) (i : ι) (idle : Idle i store) : store.commit i = store := by
  have rows : store.visible i = store.events := idle_visible i store idle
  have drafts : store.visibleCheckpoints i = store.checkpoints := by
    rw [Store.visibleCheckpoints, idle]
    exact List.append_nil _
  have transactions : Function.update store.transactions i Transaction.idle = store.transactions := by
    rw [← idle]
    exact Function.update_eq_self i _
  rw [Store.commit, rows, drafts, transactions]

variable {rt request now}

theorem won_keeps (config : Config (postgres ι) (Py Outcome)) (leader : ι) (inside : leader ∈ twins)
    (event : Event) (entered : Entered request now.store event config.store)
    (answered : config.sessions leader = some (.done (.ok (.appended event true))))
    (others : ∀ j ∈ twins, j ≠ leader → config.sessions j = now.sessions j ∨
      config.sessions j = some (replaying event) ∨
      config.sessions j = some (.done (.ok (.appended event false)))) (i : ι) (other : i ≠ leader)
    (program : Program Sql (Py Outcome))
    (is : program = replaying event ∨ program = .done (.ok (.appended event false))) :
    Stage twins request now ⟨config.store, Function.update config.sessions i (some program)⟩ := by
  refine .won _ leader inside event entered ?_ fun j member apart => ?_
  · rw [← answered]
    exact Function.update_of_ne (Ne.symm other) _ _
  · by_cases same : j = i
    · subst j
      rcases is with rfl | rfl
      · exact .inr (.inl (Function.update_self _ _ _))
      · exact .inr (.inr (Function.update_self _ _ _))
    · have untouched : Function.update config.sessions i (some program) j = config.sessions j :=
        Function.update_of_ne same _ _
      dsimp only
      rw [untouched]
      exact others j member apart

include asks sound unclaimed unstarted

theorem stage_step (config after : Config (postgres ι) (Py Outcome)) (stage : Stage twins request now config)
    (step : Paced (postgres ι) (spaced twins) config after) : Stage twins request now after := by
  have reads := unstarted_reads twins rt request now call asks unstarted
  cases step with
  | step i config query resume response store supply rest active answer fine =>
      obtain ⟨twin, fresh, apart⟩ := spaced_twin twins i config query response fine
      cases stage with
      | waiting =>
          -- the first to read the key leads
          rw [reads i twin] at active
          cases active
          have found := key_read i now.store supply request.businessKey (unclaimed.quiet i)
          rw [unclaimed.unused] at found
          have same := Option.some.inj (found.symm.trans answer)
          cases same
          exact .led i twin _ _ now.store (leads_new rt now.store i request parent unclaimed signing sound
            (asks_shaped rt call request asks parent))
      | led leader inside issued next current leads =>
          obtain ⟨way, goes⟩ := leads
          by_cases own : i = leader
          · subst i
            have same : (⟨issued, next⟩ : (query : Statement) ×
                  (Response query → Program Sql (Py Outcome))) = ⟨query, resume⟩ := by
              simpa using active
            cases same
            obtain ⟨reply, later, left, given, onward⟩ := goes supply
            have equal := Option.some.inj (given.symm.trans answer)
            cases equal
            have ahead := onward fresh
            rw [Function.update_idem]
            cases program : resume response with
            | done value =>
                rw [program] at ahead
                obtain ⟨_, rfl, event, rfl, entered⟩ := ahead
                refine .won _ leader inside event entered (Function.update_self _ _ _) fun j _ other =>
                  .inl ?_
                exact Function.update_of_ne other _ _
            | call query resume =>
                rw [program] at ahead
                exact .led leader inside query resume store ahead
          · -- nobody else can read the key: the leader is underway
            have session : now.sessions i = some (.call query resume) := by
              rw [← active]
              exact (Function.update_of_ne own _ _).symm
            rw [reads i twin] at session
            cases session
            have found := key_read i current supply request.businessKey (way.alone i own)
            rw [way.events, unclaimed.unused] at found
            have same := Option.some.inj (found.symm.trans answer)
            cases same
            have idle := apart rfl leader inside (Ne.symm own)
            dsimp only at idle
            rw [Function.update_self, underway, way.begun] at idle
            cases idle
      | won config leader inside event entered answered others =>
          have other : i ≠ leader := by
            rintro rfl
            rw [answered] at active
            cases active
          have keep := won_keeps twins config leader inside event entered answered others i other
          rcases others i twin other with untouched | replays | done
          · rw [untouched, reads i twin] at active
            cases active
            have found := key_read i config.store supply request.businessKey (entered.quiet i)
            rw [entered_found request now parent config.store event entered unclaimed] at found
            have same := Option.some.inj (found.symm.trans answer)
            cases same
            exact keep _ (.inl (found_replays rt request event entered.matched))
          · rw [replays] at active
            cases active
            cases answer
            have same : config.store.commit i = config.store :=
              commit_nothing config.store i (entered.quiet i)
            have kept := keep _ (.inr rfl)
            rw [← same] at kept
            exact kept
          · rw [done] at active
            cases active

theorem stage_run (config : Config (postgres ι) (Py Outcome))
    (run : PacedRun (postgres ι) (spaced twins) now config) :
    Stage twins request now config := by
  induction run with
  | refl => exact .waiting
  | tail _ step ih => exact stage_step twins signing call asks parent sound unclaimed unstarted _ _ ih step

omit asks sound unclaimed unstarted

-- The call has a statement to issue, need not wait with it and keeps the spacing.
def CanGoOn (config : Config (postgres ι) (Py Outcome)) (i : ι) : Prop :=
  ∃ query resume, config.sessions i = some (.call query resume) ∧ ∀ supply, ∃ response store rest,
    respond i query config.store supply = some (response, store, rest) ∧
      (freshId config.store query response = true → spaced twins i config query response = true)

theorem spaced_found (i : ι) (twin : i ∈ twins) (config : Config (postgres ι) (Py Outcome))
    (query : Statement) (response : Response query) (found : foundUnused query response = false)
    (fresh : freshId config.store query response = true) :
    spaced twins i config query response = true := by
  simp [spaced, undisturbed, twin, fresh, found]

include asks unclaimed unstarted

theorem stage_goes_on (config : Config (postgres ι) (Py Outcome)) (stage : Stage twins request now config) :
    (∀ i ∈ twins, ∃ outcome, finished (postgres ι) config i = some outcome) ∨
    ∃ i ∈ twins, CanGoOn twins config i := by
  have reads := unstarted_reads twins rt request now call asks unstarted
  cases stage with
  | waiting =>
      rcases twins.eq_empty_or_nonempty with rfl | ⟨i, twin⟩
      · exact .inl fun i twin => by simp at twin
      · refine .inr ⟨i, twin, _, _, reads i twin,
          fun supply => ⟨_, _, _, key_read i _ supply _ (unclaimed.quiet i), fun fresh => ?_⟩⟩
        have idle : ∀ j ∈ twins, j ≠ i → underway (now.sessions j) = false := by
          intro j member _
          rw [reads j member]
          rfl
        have apart : decide (∀ j ∈ twins, j ≠ i → underway (now.sessions j) = false) = true :=
          decide_eq_true idle
        simp only [spaced, undisturbed, apart, fresh, twin, decide_true, Bool.or_true, Bool.and_self]
  | led leader inside query resume store leads =>
      obtain ⟨way, goes⟩ := leads
      refine .inr ⟨leader, inside, query, resume, Function.update_self _ _ _, fun supply => ?_⟩
      obtain ⟨response, next, rest, answer, _⟩ := goes supply
      refine ⟨response, next, rest, answer, spaced_found twins leader inside _ query response ?_⟩
      cases query with
      | selectByKey businessKey => cases way.begun
      | _ => rfl
  | won config leader inside event entered answered others =>
      by_cases ended : ∀ i ∈ twins, ∃ outcome, finished (postgres ι) config i = some outcome
      · exact .inl ended
      · push Not at ended
        obtain ⟨i, twin, unfinished⟩ := ended
        have other : i ≠ leader := by
          rintro rfl
          exact unfinished _ (by rw [finished, answered]; rfl)
        refine .inr ⟨i, twin, ?_⟩
        rcases others i twin other with untouched | replays | done
        · have read := fun supply => key_read i config.store supply request.businessKey (entered.quiet i)
          rw [entered_found request now parent config.store event entered unclaimed] at read
          exact ⟨_, _, untouched.trans (reads i twin), fun supply =>
            ⟨_, _, _, read supply, spaced_found twins i twin config _ _ rfl⟩⟩
        · exact ⟨_, _, replays,
            fun supply => ⟨(), _, supply, rfl, spaced_found twins i twin config .commit () rfl⟩⟩
        · exact absurd (by rw [finished, done]; rfl) (unfinished (.ok (.appended event false)))

omit unclaimed in
-- What the calls have answered, and what they have entered.
theorem stage_answers (config : Config (postgres ι) (Py Outcome)) (stage : Stage twins request now config) :
    (∀ i ∈ twins, finished (postgres ι) config i = none) ∧ config.store.events = now.store.events ∨
      ∃ event, Entered request now.store event config.store ∧ ∃ creator ∈ twins,
        finished (postgres ι) config creator = some (.ok (.appended event true)) ∧
        ∀ i ∈ twins, i ≠ creator → finished (postgres ι) config i = none ∨
          finished (postgres ι) config i = some (.ok (.appended event false)) := by
  have reads := unstarted_reads twins rt request now call asks unstarted
  have waiting : ∀ i ∈ twins, ∀ config : Config (postgres ι) (Py Outcome),
    config.sessions i = now.sessions i →
      finished (postgres ι) config i = none := by
    intro i twin config same
    rw [finished, same, reads i twin]
    rfl
  cases stage with
  | waiting => exact .inl ⟨fun i twin => waiting i twin now rfl, rfl⟩
  | led leader inside query resume store leads =>
      refine .inl ⟨fun i twin => ?_, leads.1.events⟩
      by_cases same : i = leader
      · subst i
        simp [finished, Program.result]
      · exact waiting i twin _ (Function.update_of_ne same _ _)
  | won config leader inside event entered answered others =>
      refine .inr ⟨event, entered, leader, inside, by rw [finished, answered]; rfl, fun i twin other => ?_⟩
      rcases others i twin other with untouched | replays | done
      · exact .inl (waiting i twin config untouched)
      · exact .inl (by rw [finished, replays]; rfl)
      · exact .inr (by rw [finished, done]; rfl)

end

section

variable (rt : Runtime) {ι : Type} [DecidableEq ι] [Fintype ι]

-- As long as no call reads the key as unused while another is underway: nothing is
-- entered before one of them answers, and then it is the one row they all answer
-- with, created by exactly one; until all have answered one can go on, and they
-- cannot go on for ever.
theorem twins_agree (calls : ι → Call) (now later : Config (postgres ι) (Py Outcome))
    (reached : Reaches (postgres ι) (start rt calls) now) (twins : Finset ι) (call : Call)
    (request : Successor) (asks : call.Asks rt request)
    (unstarted : ∀ i ∈ twins, now.sessions i = some (call.program rt).run) (parent : Event)
    (unclaimed : Unclaimed request parent now.store)
    (run : PacedRun (postgres ι) (spaced twins) now later) :
    ((∀ i ∈ twins, finished (postgres ι) later i = none) ∧ later.store.events = now.store.events ∨
      ∃ event, Entered request now.store event later.store ∧ ∃ creator ∈ twins,
        finished (postgres ι) later creator = some (.ok (.appended event true)) ∧
        ∀ i ∈ twins, i ≠ creator → finished (postgres ι) later i = none ∨
          finished (postgres ι) later i = some (.ok (.appended event false))) ∧
    ((∀ i ∈ twins, ∃ outcome, finished (postgres ι) later i = some outcome) ∨
        ∃ i ∈ twins, CanGoOn twins later i) ∧
    WellFounded fun after before : Config (postgres ι) (Py Outcome) =>
      Paced (postgres ι) (spaced twins) before after := by
  have sound := history_sound rt calls now reached
  have stage := stage_run twins _ call asks parent sound unclaimed unstarted later run
  exact ⟨stage_answers twins call asks unstarted later stage,
    stage_goes_on twins call asks parent unclaimed unstarted later stage,
    paced_well_founded (postgres ι) (spaced twins)⟩

end

-- One report, and one revocation of it asked for twice.
def sampleRevocation : SubmitRevocation := ⟨"revoke-1", "ada", "mistyped"⟩

def twinCalls : Fin 3 → Call
  | 0 => sampleCalls false
  | _ => .revocation (sampleUuid 1) sampleRevocation

def sampleTwins : Finset (Fin 3) := {1, 2}

theorem sample_unclaimed (fingerprint : String) (store : Store (Fin 3)) (quiet : Quiet store)
    (rows : store.events.rows = [sampleEvent]) :
    Unclaimed (revocationOf (sampleUuid 1) sampleRevocation fingerprint) sampleEvent store where
  quiet := quiet
  unused := by
    rw [EventTable.byKey, rows]
    rfl
  found := by
    rw [EventTable.byId, rows]
    rfl
  standing := by decide
  childless := by
    rw [EventTable.successor, rows]
    rfl
  instrument := rfl

theorem sample_unstarted (now : Config (postgres (Fin 3)) (Py Outcome)) (supply rest : Supply)
    (ran : runSchedule (postgres (Fin 3)) (List.replicate 7 0) (start reference twinCalls) supply =
      some (now, rest)) :
    ∀ i ∈ sampleTwins, now.sessions i =
      some ((Call.revocation (sampleUuid 1) sampleRevocation).program reference).run := by
  intro i twin
  have apart : i ∉ List.replicate 7 (0 : Fin 3) := by
    revert i
    decide
  rw [run_schedule_untouched (postgres (Fin 3)) _ _ _ _ _ ran i apart]
  revert i
  simp [sampleTwins, start, twinCalls]

-- The revocations one after the other, and both with their keys read first.
theorem sample_races :
    ∃ mid ∈ runSchedule (postgres (Fin 3)) (List.replicate 7 0) (start reference twinCalls) sampleSupply,
    (mid.1.store.events.rows = [sampleEvent] ∧ ∀ j, mid.1.store.transactions j = Transaction.idle) ∧
    (∃ final ∈ runPaced (postgres (Fin 3)) (spaced sampleTwins)
      (List.replicate 9 1 ++ List.replicate 2 2) mid.1 mid.2,
      ∀ i ∈ sampleTwins, finished (postgres (Fin 3)) final.1 i ≠ none) ∧
    ∃ final ∈ runPaced (postgres (Fin 3)) (undisturbed sampleTwins)
      ([1, 2] ++ List.replicate 8 1 ++ List.replicate 4 2)
        mid.1 mid.2, ∃ event ∈ final.1.store.events.rows[1]?,
      final.1.store.events.rows = [sampleEvent, event] ∧
      finished (postgres (Fin 3)) final.1 1 = some (.ok (.appended event true)) ∧
      finished (postgres (Fin 3)) final.1 2 = some (.error (alreadySuperseded (sampleUuid 1) event)) := by
  decide +kernel

theorem sample_twins_agree :
    ∃ (config : Config (postgres (Fin 3)) (Py Outcome)) (event : Event), ∃ creator ∈ sampleTwins,
    finished (postgres (Fin 3)) config creator = some (.ok (.appended event true)) ∧
    ∀ i ∈ sampleTwins, i ≠ creator →
      finished (postgres (Fin 3)) config i = some (.ok (.appended event false)) := by
  obtain ⟨⟨now, supply⟩, began, ⟨rows, quiet⟩, ⟨⟨later, rest⟩, run, answers⟩, _⟩ := sample_races
  have made : revocationFingerprint reference (sampleUuid 1) sampleRevocation =
      .ok "efe76cefcbecb48ec81dc3ddd2282184000ad8c80f9039f5e03a7eca06516bcc" := by decide +kernel
  have unstarted := sample_unstarted now sampleSupply supply began
  obtain ⟨agreed, -⟩ :=
    twins_agree reference twinCalls now later (run_schedule_reaches (postgres (Fin 3)) _ _ _ _ _ began)
    sampleTwins _ _ (.revocation (sampleUuid 1) sampleRevocation _ made) unstarted sampleEvent
    (sample_unclaimed _ now.store quiet rows) (run_paced (postgres (Fin 3)) _ _ _ _ _ _ run)
  rcases agreed with ⟨none, _⟩ | ⟨event, _, creator, twin, created, others⟩
  · exact absurd (none 1 (by decide)) (answers 1 (by decide))
  · exact ⟨later, event, creator, twin, created, fun i member other =>
      (others i member other).resolve_left (answers i member)⟩

-- Both read the key before either has the parent's row: the second finds its
-- twin's event as the parent's successor and is refused.
theorem raced_twin_refused : ∃ (now later : Config (postgres (Fin 3)) (Py Outcome)) (event : Event),
    Reaches (postgres (Fin 3)) (start reference twinCalls) now ∧
    (∀ i ∈ sampleTwins, now.sessions i =
      some ((Call.revocation (sampleUuid 1) sampleRevocation).program reference).run) ∧
    (∀ fingerprint, Unclaimed
      (revocationOf (sampleUuid 1) sampleRevocation fingerprint) sampleEvent now.store) ∧
    PacedRun (postgres (Fin 3)) (undisturbed sampleTwins) now later ∧
    later.store.events.rows = [sampleEvent, event] ∧
    finished (postgres (Fin 3)) later 1 = some (.ok (.appended event true)) ∧
    finished (postgres (Fin 3)) later 2 = some (.error (alreadySuperseded (sampleUuid 1) event)) := by
  obtain ⟨⟨now, supply⟩, began, ⟨rows, quiet⟩, _, ⟨later, rest⟩, run, event, _, entered, created,
    refused⟩ := sample_races
  exact ⟨now, later, event, run_schedule_reaches (postgres (Fin 3)) _ _ _ _ _ began,
    sample_unstarted now sampleSupply supply began, fun fingerprint =>
      sample_unclaimed fingerprint now.store quiet rows,
    run_paced (postgres (Fin 3)) _ _ _ _ _ _ run, entered, created, refused⟩

end CalibrationLedger
