import CalibrationLedger.Programs
import CalibrationLedger.Reference

set_option autoImplicit false

-- Any number of calls, each on a session of its own, their statements interleaved
-- in any order, from the empty ledger.
namespace CalibrationLedger

open JsonText Digest Interleaving

inductive Call where
  | report (request : SubmitReport)
  | batch (requests : List SubmitReport)
  | revision (previousEventId : Uuid) (request : SubmitRevision)
  | revocation (previousEventId : Uuid) (request : SubmitRevocation)
  | sealing (sealer : CheckpointSealer)

inductive Outcome where
  | appended (event : Event) (created : Bool)
  | batch (items : List (Event × Bool))
  | sealing (result : SealResult)
deriving DecidableEq

def appendedOf (pair : Event × Bool) : Outcome := .appended pair.1 pair.2

def Call.program (rt : Runtime) : Call → Tx Outcome
  | .report request => do return appendedOf (← appendReport rt request)
  | .batch requests => do return .batch (← appendReportBatch rt requests)
  | .revision previousEventId request => do return appendedOf (← appendRevision rt previousEventId request)
  | .revocation previousEventId request => do
      return appendedOf (← appendRevocation rt previousEventId request)
  | .sealing sealer => do return .sealing (← sealOnce rt sealer)

-- The keys the sealers of a run sign with.
def SigningKey {ι : Type} (calls : ι → Call) (version : Text) (key : Bytes) : Prop :=
  ∃ i sealer, calls i = .sealing sealer ∧ version = text sealer.currentKeyVersion ∧
    sealer.keyring.lookup version = some key

-- A committed row with this key and fingerprint.
structure EventTable.Holds (table : EventTable) (businessKey fingerprint : String) (event : Event) :
    Prop where
  committed : event ∈ table.rows
  keyed : event.businessKey = businessKey
  matched : event.contentFingerprint = fingerprint

-- What the answer to a call says of the committed rows.
def Recorded (rt : Runtime) (table : EventTable) : Call → Outcome → Prop
  | .report request, .appended event _ =>
      ∃ reportDigest found, digestJson rt request.report = .ok reportDigest ∧
      reportFingerprint rt request reportDigest = .ok found ∧ table.Holds request.businessKey found event
  | .batch requests, .batch pairs => ∃ prepared, prepareBatch rt 0 requests = .ok prepared ∧
      batchCollision 0 [] prepared = none ∧
      List.Forall₂ (fun item pair => table.Holds item.request.businessKey item.fingerprint pair.1)
        prepared pairs
  | .revision previousEventId request, .appended event _ => ∃ reportDigest found,
      digestJson rt request.report = .ok reportDigest ∧
      revisionFingerprint rt previousEventId request reportDigest = .ok found ∧
      table.Holds request.businessKey found event
  | .revocation previousEventId request, .appended event _ => ∃ found,
      revocationFingerprint rt previousEventId request = .ok found ∧
      table.Holds request.businessKey found event
  | .sealing _, .sealing _ => True
  | _, _ => False

theorem answers_held {ι : Type} (i : ι) (businessKey fingerprint : String) (pair : Event × Bool)
    (store : Store ι) (answers : Settled i (Answers i businessKey fingerprint) pair store) :
    store.events.Holds businessKey fingerprint pair.1 :=
  ⟨seen_committed i pair.1 store answers.1 answers.2.1, answers.2.2.1, answers.2.2.2⟩

theorem holds_stable {ι : Type} (i : ι) (store now : Store ι) (businessKey fingerprint : String)
    (event : Event) (others : LedgerRely i store now)
    (holds : store.events.Holds businessKey fingerprint event) :
    now.events.Holds businessKey fingerprint event :=
  ⟨others.rows event holds.committed, holds.keyed, holds.matched⟩

theorem recorded_stable (rt : Runtime) {ι : Type} (i : ι) (store now : Store ι) (call : Call)
    (outcome : Outcome) (others : LedgerRely i store now)
    (recorded : Recorded rt store.events call outcome) : Recorded rt now.events call outcome := by
  cases call <;> cases outcome <;> try exact recorded
  · obtain ⟨reportDigest, found, digested, made, holds⟩ := recorded
    exact ⟨reportDigest, found, digested, made, holds_stable i store now _ _ _ others holds⟩
  · obtain ⟨prepared, made, apart, holds⟩ := recorded
    exact ⟨prepared, made, apart, holds.imp fun _ _ => holds_stable i store now _ _ _ others⟩
  · obtain ⟨reportDigest, found, digested, made, holds⟩ := recorded
    exact ⟨reportDigest, found, digested, made, holds_stable i store now _ _ _ others holds⟩
  · obtain ⟨found, made, holds⟩ := recorded
    exact ⟨found, made, holds_stable i store now _ _ _ others holds⟩

-- What no statement takes back: rows stay, checkpoints are only ever appended, and
-- nothing enters at or below a boundary.
structure Grows {ι : Type} (before after : Store ι) : Prop where
  rows : ∀ row ∈ before.events.rows, row ∈ after.events.rows
  appended : ∃ more, after.checkpoints = before.checkpoints ++ more
  sealed : ∀ checkpoint ∈ before.checkpoints,
    after.events.upTo checkpoint.lastEventSequence = before.events.upTo checkpoint.lastEventSequence

theorem grows_same {ι : Type} (before after : Store ι) (same : after.toLedger = before.toLedger) :
    Grows before after := by
  have events : after.events = before.events := congrArg Ledger.events same
  have checkpoints : after.checkpoints = before.checkpoints := congrArg Ledger.checkpoints same
  exact ⟨fun row member => events ▸ member, ⟨[], by rw [checkpoints, List.append_nil]⟩,
    fun _ _ => by rw [events]⟩

theorem grows_trans {ι : Type} (a b c : Store ι) (first : Grows a b) (second : Grows b c) : Grows a c := by
  obtain ⟨more, appended⟩ := first.appended
  obtain ⟨others, later⟩ := second.appended
  refine ⟨fun row member => second.rows row (first.rows row member), ⟨more ++ others, ?_⟩,
    fun checkpoint member => ?_⟩
  · rw [later, appended, List.append_assoc]
  · rw [second.sealed checkpoint (by rw [appended]; exact List.mem_append_left _ member),
      first.sealed checkpoint member]

section

variable (rt : Runtime) {ι : Type} [DecidableEq ι] (signing : Text → Bytes → Prop)

theorem grows_commit (store : Store ι) (i : ι) (sound : Sound rt signing store) :
    Grows store (store.commit i) :=
  ⟨fun row => visible_committed store i row, ⟨(store.transactions i).checkpoints, rfl⟩,
    fun checkpoint member =>
    insert_all_up_to store.events _ _ (sound.boundaries checkpoint member i).1⟩

variable [Fintype ι]

theorem respond_unwritten (i : ι) (query : Statement) (store : Store ι) (before : Supply)
    (response : Response query) (next : Store ι) (after : Supply) (other : query ≠ .commit)
    (answer : respond i query store before = some (response, next, after)) :
    next.toLedger = store.toLedger := by
  cases query with
  | commit => exact absurd rfl other
  | lockShared =>
      rw [respond] at answer
      split at answer <;> cases answer
      rfl
  | selectForUpdate eventId =>
      rw [respond] at answer
      split at answer
      · cases answer
        rfl
      · split at answer <;> cases answer
        rfl
  | insertEvent row =>
      rw [respond] at answer
      split at answer
      · cases answer
        rfl
      · split at answer <;> cases answer
        rfl
  | tryLockExclusive =>
      rw [respond] at answer
      split at answer <;> cases answer <;> rfl
  | insertCheckpoint checkpoint =>
      rw [respond] at answer
      split at answer
      · cases answer
        rfl
      · split at answer <;> cases answer
        rfl
  | _ =>
      cases answer
      rfl

theorem respond_ledger (i : ι) (query : Statement) (store : Store ι) (before : Supply)
    (response : Response query) (next : Store ι) (after : Supply)
    (answer : respond i query store before = some (response, next, after)) :
    next.toLedger = store.toLedger ∨ next = store.commit i := by
  by_cases commits : query = .commit
  · subst commits
    cases answer
    exact .inr rfl
  · exact .inl (respond_unwritten i query store before response next after commits answer)

theorem respond_grows (i : ι) (query : Statement) (store : Store ι) (before : Supply)
    (response : Response query) (next : Store ι) (after : Supply) (sound : Sound rt signing store)
    (answer : respond i query store before = some (response, next, after)) : Grows store next := by
  rcases respond_ledger i query store before response next after answer with same | rfl
  · exact grows_same store next same
  · exact grows_commit rt signing store i sound

def start (calls : ι → Call) : Config (postgres ι) (Py Outcome) :=
  ⟨Store.empty ι, fun i => some ((calls i).program rt).run⟩

theorem kept_finished {α : Type} (i : ι) (call : Call) (change : α → Outcome)
    (good : α → Store ι → Prop) (body : Tx α) (store : Store ι)
    (kept : Kept rt signing i good body store)
    (records : ∀ value now, good value now → Recorded rt now.events call (change value)) :
    Kept rt signing i (fun outcome now => Recorded rt now.events call outcome)
      (do return change (← body)) store :=
  kept_bind rt signing i good _ body _ store kept fun value now _ found =>
    kept_return rt signing i _ (change value) now fun later _ others =>
      recorded_stable rt i now later call _ others (records value now found)

theorem kept_call (calls : ι → Call) (i : ι) (store : Store ι) (idle : Idle i store) :
    Kept rt (SigningKey calls) i (fun outcome now => Recorded rt now.events (calls i) outcome)
      ((calls i).program rt) store := by
  cases call : calls i with
  | report request =>
      refine kept_finished rt _ i _ _ _ _ store (kept_append_report rt _ i request store idle)
        fun pair now found => ?_
      obtain ⟨reportDigest, found, digested, made, answers⟩ := found
      exact ⟨reportDigest, found, digested, made, answers_held i _ _ pair now answers⟩
  | batch requests =>
      refine kept_finished rt _ i _ _ _ _ store (kept_append_batch rt _ i requests store idle)
        fun pairs now found => ?_
      obtain ⟨prepared, made, apart, idle, answers⟩ := found
      exact ⟨prepared, made, apart,
        answers.imp fun _ pair answer => answers_held i _ _ pair now ⟨idle, answer⟩⟩
  | revision previousEventId request =>
      refine kept_finished rt _ i _ _ _ _ store
        (kept_append_revision rt _ i previousEventId request store idle) fun pair now found => ?_
      obtain ⟨reportDigest, found, digested, made, answers⟩ := found
      exact ⟨reportDigest, found, digested, made, answers_held i _ _ pair now answers⟩
  | revocation previousEventId request =>
      refine kept_finished rt _ i _ _ _ _ store
        (kept_append_revocation rt _ i previousEventId request store idle) fun pair now found => ?_
      obtain ⟨found, made, answers⟩ := found
      exact ⟨found, made, answers_held i _ _ pair now answers⟩
  | sealing sealer =>
      refine kept_finished rt _ i _ _ _ _ store (kept_seal_once rt _ i sealer store (fun key held => ?_) idle)
        fun _ _ _ => trivial
      exact ⟨i, sealer, call, rfl, held⟩

def answered (calls : ι → Call) (i : ι) (outcome : Py Outcome) (store : Store ι) : Prop :=
  ∀ value, outcome = .ok value → Recorded rt store.events (calls i) value

theorem start_disciplined (calls : ι → Call) :
    Disciplined (discipline ι rt (SigningKey calls)) (answered rt calls) (start rt calls) where
  inv := sound_empty rt _
  verified i program session := by
    cases session
    exact kept_call rt calls i (Store.empty ι) rfl

theorem history_disciplined (calls : ι → Call) (config : Config (postgres ι) (Py Outcome))
    (reached : Reaches (postgres ι) (start rt calls) config) :
    Disciplined (discipline ι rt (SigningKey calls)) (answered rt calls) config :=
  disciplined_run _ _ _ _ (start_disciplined rt calls) reached

theorem history_sound (calls : ι → Call) (config : Config (postgres ι) (Py Outcome))
    (reached : Reaches (postgres ι) (start rt calls) config) : Sound rt (SigningKey calls) config.store :=
  (history_disciplined rt calls config reached).inv

theorem history_recorded (calls : ι → Call) (config : Config (postgres ι) (Py Outcome))
    (reached : Reaches (postgres ι) (start rt calls) config) (i : ι) (outcome : Outcome)
    (answer : finished (postgres ι) config i = some (.ok outcome)) :
    Recorded rt config.store.events (calls i) outcome := by
  have disciplined := history_disciplined rt calls config reached
  cases session : config.sessions i with
  | none => simp [finished, session] at answer
  | some program =>
      cases program with
      | call query resume => simp [finished, session, Program.result] at answer
      | done value =>
          have same : value = .ok outcome := by simpa [finished, session, Program.result] using answer
          exact disciplined.verified i _ session config.store disciplined.inv
            (ledger_rely_refl i _) outcome same

theorem history_grows (calls : ι → Call) (now later : Config (postgres ι) (Py Outcome))
    (reached : Reaches (postgres ι) (start rt calls) now) (onward : Reaches (postgres ι) now later) :
    Grows now.store later.store := by
  refine guarantee_run (discipline ι rt (SigningKey calls)) (answered rt calls) Grows
    (fun store => grows_same store store rfl)
    grows_trans ?_ ?_ now later (history_disciplined rt calls now reached) onward
  · intro i query store before response next after sound _ answer
    exact respond_grows rt _ i query store before response next after sound answer
  · exact fun i store _ => grows_same store (store.rollback i) rfl

end

section

variable {α β : Type}

theorem lift_ok_bind (value : α) (next : α → Tx β) :
    (liftM (Except.ok value : Py α) : Tx α) >>= next = next value := rfl

variable {ι : Type} [DecidableEq ι] [Fintype ι]

def ended (i : ι) : Py α → Store ι → Store ι
  | .ok _, store => store.commit i
  | .error _, store => store.rollback i

abbrev runTx (i : ι) (program : Tx α) (store : Store ι) (supply : Supply) :
    Option (Py α × Store ι × Supply) :=
  runAlone (postgres ι) i program.run store supply

variable (i : ι) (store after : Store ι) (supply left : Supply)

theorem run_ask_on (query : Statement) (next : Response query → Tx α) (response : Response query)
    (answer : respond i query store supply = some (response, after, left)) :
    runTx i (ask query >>= next) store supply = runTx i (next response) after left :=
  run_alone_call (postgres ι) i query
    (fun response => (next response).run) store after supply left response answer

theorem run_ok (first : Tx α) (next : α → Tx β) (value : α)
    (ran : runTx i first store supply = some (.ok value, after, left)) :
    runTx i (first >>= next) store supply = runTx i (next value) after left :=
  run_alone_bind (postgres ι) i first.run _ store after supply left _ ran

theorem run_ended (body : Tx α) (outcome : Py α)
    (ran : runTx i body store supply = some (outcome, after, left)) :
    runTx i (transaction body) store supply = some (outcome, ended i outcome after, left) := by
  refine (run_alone_bind (postgres ι) i body.run _ store after supply left outcome ran).trans ?_
  cases outcome with
  | ok value => rfl
  | error error => rfl

end

section

variable (rt : Runtime) {ι : Type} [DecidableEq ι] [Fintype ι]

-- A ledger nobody has a transaction on.
def resting (ledger : Ledger) (next : Int) : Store ι := ⟨ledger, next, fun _ => Transaction.idle⟩

omit [DecidableEq ι] [Fintype ι] in
theorem quiet_resting (store : Store ι) (quiet : Quiet store) :
    store = resting store.toLedger store.nextSequence :=
  congrArg (Store.mk store.toLedger store.nextSequence) (funext quiet)

theorem run_seal_once (i : ι) (ledger : Ledger) (next : Int) (supply : Supply)
    (sealer : CheckpointSealer) (newest : Event) (leaves : List Bytes) (key : Bytes) (row : Checkpoint)
    (ends : ((ledger.events.after (boundaryOf (latest ledger.checkpoints))).take
      sealer.batchSize).getLast? = some newest)
    (checked : checkPrefix rt sealer.keyring (latest ledger.checkpoints)
      ((ledger.events.after (boundaryOf (latest ledger.checkpoints))).take sealer.batchSize)
      (ledger.events.upTo newest.sequence) = .ok leaves)
    (signs : signingKey sealer.keyring sealer.currentKeyVersion = .ok key)
    (drawn : sealedRow rt sealer (latest ledger.checkpoints) newest.sequence
      (ledger.events.upTo newest.sequence) leaves (supply.uuids 0) (supply.clocks 0) key = row)
    (admitted : (resting ledger next : Store ι).admitsCheckpoint i row = true) :
    ∃ left, runTx i (sealOnce rt sealer) (resting ledger next) supply =
      some (.ok (.sealed row), resting ⟨ledger.events, ledger.checkpoints ++ [row]⟩ next, left) := by
  let held : Store ι := (resting ledger next).update i fun tx => { tx with exclusive := true }
  let left : Supply := ⟨fun n => supply.uuids (n + 1), fun n => supply.clocks (n + 1), supply.gaps⟩
  have visible : held.visible i =
    ledger.events := by simp [held, resting, Store.visible, Store.update, Transaction.idle,
      EventTable.insertAll]
  have listed : held.visibleCheckpoints i = ledger.checkpoints := by
    simp [held, resting, Store.visibleCheckpoints, Store.update, Transaction.idle]
  have locked : respond i .tryLockExclusive (resting ledger next) supply = some (true, held, supply) := by
    rw [respond, if_neg (by simp [Store.othersShared, Store.othersExclusive, resting, Transaction.idle])]
  have latestRead : respond i .selectLatest held supply = some (latest ledger.checkpoints, held, supply) := by
    rw [respond, listed]
  have batchRead : respond i
    (.selectAfter (boundaryOf (latest ledger.checkpoints)) sealer.batchSize) held supply =
      some ((ledger.events.after (boundaryOf (latest ledger.checkpoints))).take sealer.batchSize, held,
        supply) := by
    rw [respond, visible]
  have rowsRead : respond i (.selectUpTo newest.sequence) held supply =
      some (ledger.events.upTo newest.sequence, held, supply) := by
    rw [respond, visible]
  have inserted : respond i (.insertCheckpoint row) held left =
      some (true, held.update i fun tx => { tx with checkpoints := tx.checkpoints ++ [row] }, left) := by
    have admits : held.admitsCheckpoint i row = true := by
      rw [Store.admitsCheckpoint, listed]
      simpa [Store.admitsCheckpoint, Store.visibleCheckpoints, resting, Transaction.idle] using admitted
    have uncontested : held.contestedCheckpoint i row = false := by
      refine decide_eq_false ?_
      rintro ⟨j, other, clash⟩
      simp [held, Store.update, other, resting, Transaction.idle] at clash
    rw [respond, admits, uncontested]
    rfl
  refine ⟨left, ?_⟩
  rw [sealOnce]
  refine (run_ended i (resting ledger next)
    (held.update i fun tx => { tx with checkpoints := tx.checkpoints ++ [row] })
    supply left _ (.ok (.sealed row)) ?_).trans ?_
  · rw [run_ask_on i _ _ _ _ _ _ _ locked]
    simp only [if_true]
    rw [run_ask_on i _ _ _ _ _ _ _ latestRead, run_ask_on i _ _ _ _ _ _ _ batchRead, ends]
    simp only []
    rw [run_ask_on i _ _ _ _ _ _ _ rowsRead, checked, lift_ok_bind, new_checkpoint_draws, signs]
    have flushed : runTx i (flushCheckpoint row) held left = some (.ok row, _, left) :=
      run_ask_on i _ _ _ _ _ _ _ inserted
    rw [← drawn] at flushed ⊢
    exact run_ok i held _ left left _ (fun checkpoint => pure (SealResult.sealed checkpoint)) _ flushed
  · have idle : ∀ j,
      ((held.update i fun tx => { tx with checkpoints := tx.checkpoints ++ [row] }).commit i).transactions j =
        Transaction.idle := fun j => by
      by_cases own : j = i <;> simp [held, Store.commit, Store.update, own, resting]
    rw [ended, quiet_resting (Store.commit _ i) idle]
    simp [held, resting, Store.commit, Store.visible, Store.visibleCheckpoints, Store.update,
      Transaction.idle, EventTable.insertAll]

-- One call from its first statement to its last, with nobody else there.
def Leaves (i : ι) (call : Call) (ledger : Ledger) (next : Int) (supply : Supply) (after : Ledger)
    (later : Int) : Prop :=
  ∃ result ∈ runTx i (call.program rt) (resting ledger next) supply,
    result.2.1.events.rows = after.events.rows ∧
    result.2.1.checkpoints = after.checkpoints ∧ result.2.1.nextSequence = later ∧
    ∀ j, result.2.1.transactions j = Transaction.idle

theorem seal_leaves (i : ι) (ledger : Ledger) (next : Int) (supply : Supply) (sealer : CheckpointSealer)
    (newest : Event) (leaves : List Bytes) (key : Bytes) (row : Checkpoint)
    (ends : ((ledger.events.after (boundaryOf (latest ledger.checkpoints))).take
      sealer.batchSize).getLast? = some newest)
    (checked : checkPrefix rt sealer.keyring (latest ledger.checkpoints)
      ((ledger.events.after (boundaryOf (latest ledger.checkpoints))).take sealer.batchSize)
      (ledger.events.upTo newest.sequence) = .ok leaves)
    (signs : signingKey sealer.keyring sealer.currentKeyVersion = .ok key)
    (drawn : sealedRow rt sealer (latest ledger.checkpoints) newest.sequence
      (ledger.events.upTo newest.sequence) leaves (supply.uuids 0) (supply.clocks 0) key = row)
    (admitted : (resting ledger next : Store ι).admitsCheckpoint i row = true) :
    Leaves rt i (.sealing sealer) ledger next supply ⟨ledger.events, ledger.checkpoints ++ [row]⟩ next := by
  obtain ⟨left, ran⟩ :=
    run_seal_once rt i ledger next supply sealer newest leaves key row ends checked signs drawn admitted
  exact ⟨_, run_ok i _ _ supply left _ (fun result => pure (Outcome.sealing result)) _ ran, rfl, rfl,
    rfl, fun _ => rfl⟩

theorem leaves_reaches (calls : ι → Call) (config : Config (postgres ι) (Py Outcome)) (i : ι)
    (ledger after : Ledger) (next later : Int) (supply : Supply) (rests : config.store = resting ledger next)
    (waiting : config.sessions i = some ((calls i).program rt).run)
    (leaves : Leaves rt i (calls i) ledger next supply after later) :
    ∃ now, Reaches (postgres ι) config now ∧ now.store = resting after later ∧
      ∀ j, j ≠ i → now.sessions j = config.sessions j := by
  obtain ⟨⟨value, store, rest⟩, ran, rows, checkpoints, sequence, quiet⟩ := leaves
  rw [← rests] at ran
  refine ⟨_, run_alone_reaches (postgres ι) i _ config supply rest value store waiting ran, ?_,
    fun j other => Function.update_of_ne other _ _⟩
  have same : store.toLedger = after := by
    obtain ⟨⟨events, listed⟩, _, _⟩ := store
    obtain ⟨⟨other, _⟩, _⟩ := after
    obtain ⟨found, _⟩ := events
    cases rows
    cases checkpoints
    rfl
  rw [quiet_resting store quiet, same, sequence]

end

-- One report, then one seal of it.
def sampleUuid (number : UInt8) : Uuid := ⟨List.replicate 15 0 ++ [number], rfl⟩

def sampleTime : Instant := ⟨63844806896000789, by decide⟩

def sampleSupply : Supply := ⟨fun n => sampleUuid (UInt8.ofNat (n + 1)), fun _ => sampleTime, fun _ => 0⟩

def sampleKeyring : Keyring := [(text "v1", [1])]

def sampleCalls : Bool → Call
  | false => .report ⟨"report-1", "scale-7", "ada", .obj [(text "error", .int 3)]⟩
  | true => .sealing ⟨sampleKeyring, "v1", 10, by decide⟩

def sampleEvent : Event where
  sequence := 1
  eventId := sampleUuid 1
  recordId := sampleUuid 1
  eventType := .report
  businessKey := "report-1"
  contentFingerprint := "4bfda8c2e7d157cfcea3bf9defd16f7223dea409806a2d2497d4e2e1e1966dcb"
  instrumentId := "scale-7"
  operatorId := "ada"
  reportDigest := some "973d141a045de9255ec829e98f55656e7163072fa87145752b21da603891a4d9"
  previousEventId := none
  reason := none
  occurredAt := sampleTime
  leafHash := "9be2218117caf4c1ef480a2e1e168ebf15ce5978271e8c90620343a2d4a9b14b"

def sampleCheckpoint : Checkpoint where
  checkpointId := sampleUuid 2
  leafCount := 1
  lastEventSequence := 1
  rootHash := "9be2218117caf4c1ef480a2e1e168ebf15ce5978271e8c90620343a2d4a9b14b"
  previousCheckpointId := none
  previousRootHash := none
  keyVersion := "v1"
  createdAt := sampleTime
  signature := "ab6dbbf311f03a14bbaa715098608cf7390a3c8d79600c0b11c2ad9802cc8eec"

theorem sample_run : ∃ config, Reaches (postgres Bool) (start reference sampleCalls) config ∧
    config.store.events.rows = [sampleEvent] ∧ config.store.checkpoints = [sampleCheckpoint] ∧
    Quiet config.store ∧
    finished (postgres Bool) config false = some (.ok (.appended sampleEvent true)) := by
  have ran : ∃ final ∈ runSchedule (postgres Bool) (List.replicate 7 false ++ List.replicate 8 true)
      (start reference sampleCalls) sampleSupply,
        final.1.store.events.rows = [sampleEvent] ∧ final.1.store.checkpoints = [sampleCheckpoint] ∧
        (∀ j, final.1.store.transactions j = Transaction.idle) ∧
        finished (postgres Bool) final.1 false = some (.ok (.appended sampleEvent true)) := by decide +kernel
  obtain ⟨⟨config, rest⟩, run, found⟩ := ran
  exact ⟨config, run_schedule_reaches (postgres Bool) _ _ _ _ _ run, found⟩

theorem sample_keys (version : Text) (key : Bytes) (signs : SigningKey sampleCalls version key) :
    sampleKeyring.lookup version = some key := by
  obtain ⟨i, sealer, call, rfl, held⟩ := signs
  cases i with
  | false => cases call
  | true =>
      cases call
      exact held

-- A longer run: the report is sealed and revised, another one arrives, and all is sealed
-- again.
def chronicle : Fin 5 → Call
  | 0 => sampleCalls false
  | 1 => sampleCalls true
  | 2 => .revision (sampleUuid 1) ⟨"revision-1", "scale-7", "ada", .obj [(text "error", .int 2)]⟩
  | 3 => .report ⟨"report-2", "scale-8", "eve", .obj [(text "error", .int 5)]⟩
  | 4 => sampleCalls true

def revisedEvent : Event where
  sequence := 2
  eventId := sampleUuid 3
  recordId := sampleUuid 1
  eventType := .revision
  businessKey := "revision-1"
  contentFingerprint := "d889cc6877b3a4c9869ce035a17a445f8e88f6c576a35645b83e3e1e3527f1e6"
  instrumentId := "scale-7"
  operatorId := "ada"
  reportDigest := some "57aadf5acfabc2a8fa06f63d2f4ecdb2729d84d8688380da6d8af48e65a163c1"
  previousEventId := some (sampleUuid 1)
  reason := none
  occurredAt := sampleTime
  leafHash := "29b1186df2a4be71ec98b2daa4ca2beae26fed1068e9235325b0681a873e634c"

def laterEvent : Event where
  sequence := 3
  eventId := sampleUuid 4
  recordId := sampleUuid 4
  eventType := .report
  businessKey := "report-2"
  contentFingerprint := "2cf0bc8a4584f6a8d5eaafeb95ffc4cf6a6a1b48cae94d0e429d58724d0b2af7"
  instrumentId := "scale-8"
  operatorId := "eve"
  reportDigest := some "230ff798aea9c54d5af99d5d5488126274754c8fafc1a1c4a77fb9a53bfcd76f"
  previousEventId := none
  reason := none
  occurredAt := sampleTime
  leafHash := "c104cbc380bcb597d6e72d0f1896c2e097a2950f418444bc78dcc6ea4978e3eb"

def laterCheckpoint : Checkpoint where
  checkpointId := sampleUuid 5
  leafCount := 3
  lastEventSequence := 3
  rootHash := "0104a90a9c1d38cbf8d40ee9545bfff9e936e0dd62ac693df65d5aaff43f4aa6"
  previousCheckpointId := some (sampleUuid 2)
  previousRootHash := some "9be2218117caf4c1ef480a2e1e168ebf15ce5978271e8c90620343a2d4a9b14b"
  keyVersion := "v1"
  createdAt := sampleTime
  signature := "3bc32fa0b4cc94809bc48c839bfe230cb1ce2342d5e63e611befe5bcab6d2a75"

theorem chronicle_keys (version : Text) (key : Bytes) (signs : SigningKey chronicle version key) :
    sampleKeyring.lookup version = some key := by
  obtain ⟨i, sealer, call, rfl, held⟩ := signs
  match i with
  | 0 => cases call
  | 1 =>
      cases call
      exact held
  | 2 => cases call
  | 3 => cases call
  | 4 =>
      cases call
      exact held

def chronicleRows : List Event := [sampleEvent, revisedEvent, laterEvent]

def chronicleTable (count : Nat) : EventTable :=
  ⟨chronicleRows.take count, (by decide : chronicleRows.Pairwise _).sublist (List.take_sublist count _)⟩

def suppliedFrom (number : UInt8) : Supply :=
  ⟨fun n => sampleUuid (UInt8.ofNat n + number), fun _ => sampleTime, fun _ => 0⟩

def storedLeaf (event : Event) : Bytes := (fromhex (text event.leafHash)).getD []

theorem stored_leaves (rows : List Event)
    (stored : ∀ row ∈ rows, row.leafHash = hex (rowLeaf reference row)) :
    rows.map (rowLeaf reference) = rows.map storedLeaf :=
  List.map_congr_left fun row member => by rw [storedLeaf, stored row member, fromhex_hex, Option.getD_some]

-- The rows a seal reads carry their own leaf hashes already.
theorem chronicle_stored (config : Config (postgres (Fin 5)) (Py Outcome))
    (reached : Reaches (postgres (Fin 5)) (start reference chronicle) config) (count : Nat)
    (rows : config.store.events.rows = chronicleRows.take count) :
    ∀ row ∈ chronicleRows.take count, row.leafHash = hex (rowLeaf reference row) := by
  intro row member
  rw [← rows] at member
  exact ((history_sound reference chronicle config reached).rows row (.inl member)).1.leaf

theorem chronicle_sealed :
    sealedRow reference ⟨sampleKeyring, "v1", 10, by decide⟩ none 1 [sampleEvent] [storedLeaf sampleEvent]
      (sampleUuid 2) sampleTime [1] = sampleCheckpoint ∧
    sealedRow reference ⟨sampleKeyring, "v1", 10, by decide⟩ (some sampleCheckpoint) 3 chronicleRows
      (chronicleRows.map storedLeaf) (sampleUuid 5) sampleTime [1] = laterCheckpoint := by
  constructor <;> decide +kernel

theorem chronicle_filed :
    Leaves reference (0 : Fin 5) (chronicle 0) ⟨chronicleTable 0, []⟩ 1 (suppliedFrom 1)
      ⟨chronicleTable 1, []⟩ 2 ∧
    Leaves reference (2 : Fin 5) (chronicle 2) ⟨chronicleTable 1, [sampleCheckpoint]⟩ 2 (suppliedFrom 3)
      ⟨chronicleTable 2, [sampleCheckpoint]⟩ 3 ∧
    Leaves reference (3 : Fin 5) (chronicle 3) ⟨chronicleTable 2, [sampleCheckpoint]⟩ 3 (suppliedFrom 4)
      ⟨chronicleTable 3, [sampleCheckpoint]⟩ 4 := by
  rw [Leaves, Leaves, Leaves]
  refine ⟨?_, ?_, ?_⟩ <;> decide +kernel

-- The root under the first checkpoint, and its signature.
theorem sample_accepted (stored : sampleEvent.leafHash = hex (rowLeaf reference sampleEvent))
    (rest : List Bytes) :
    checkPrevious reference sampleKeyring (some sampleCheckpoint)
      (rowLeaf reference sampleEvent :: rest) = .ok () := by
  have root : merkleRoot reference.toHashFunction [rowLeaf reference sampleEvent] =
      rowLeaf reference sampleEvent := by
    rw [merkleRoot]
    rfl
  have signature := sealed_row_signed reference _ _ _ _ _ _ _ _ sampleCheckpoint chronicle_sealed.1
  rw [checkPrevious, show sampleCheckpoint.leafCount = 1 from rfl, List.take_succ_cons, List.take_zero,
    root, ← stored,
    if_neg (show ¬ sampleEvent.leafHash ≠ sampleCheckpoint.rootHash from not_not.mpr rfl)]
  exact (bind_ok _ _ _).mpr
    ⟨[1], by decide, check_signature_passes reference sampleCheckpoint [1] _ signature⟩

theorem chronicle_run : ∃ mid now, Reaches (postgres (Fin 5)) (start reference chronicle) mid ∧
    Reaches (postgres (Fin 5)) mid now ∧
    (mid.store.events.rows = [sampleEvent] ∧ mid.store.checkpoints = [sampleCheckpoint]) ∧
    now.store.events.rows = [sampleEvent, revisedEvent, laterEvent] ∧
    now.store.checkpoints = [sampleCheckpoint, laterCheckpoint] := by
  obtain ⟨reported, toReported, atReported, firstOthers⟩ :=
    leaves_reaches reference chronicle (start reference chronicle) 0
    _ _ _ _ _ rfl rfl chronicle_filed.1
  have one := chronicle_stored reported toReported 1 (by rw [atReported]; rfl)
  have sealedOnce : Leaves reference (1 : Fin 5) (chronicle 1) ⟨chronicleTable 1, []⟩ 2 (suppliedFrom 2)
      ⟨chronicleTable 1, [sampleCheckpoint]⟩ 2 := by
    refine seal_leaves reference 1 _ 2 _ ⟨sampleKeyring, "v1", 10, by decide⟩ sampleEvent _ [1]
      sampleCheckpoint (by decide)
      (check_prefix_returns reference sampleKeyring none _ _ rfl one rfl) (by decide) ?_ (by decide)
    exact (congrArg (sealedRow reference _ none 1 [sampleEvent] · _ _ _) (stored_leaves _ one)).trans
      chronicle_sealed.1
  obtain ⟨mid, toMid, atMid, secondOthers⟩ :=
    leaves_reaches reference chronicle reported 1 _ _ _ _ _ atReported
    (firstOthers 1 (by decide)) sealedOnce
  obtain ⟨revised, toRevised, atRevised, thirdOthers⟩ :=
    leaves_reaches reference chronicle mid 2 _ _ _ _ _ atMid
    ((secondOthers 2 (by decide)).trans (firstOthers 2 (by decide))) chronicle_filed.2.1
  obtain ⟨filed, toFiled, atFiled, fourthOthers⟩ :=
    leaves_reaches reference chronicle revised 3 _ _ _ _ _ atRevised
    ((thirdOthers 3 (by decide)).trans ((secondOthers 3 (by decide)).trans (firstOthers 3 (by decide))))
      chronicle_filed.2.2
  have three := chronicle_stored filed (toReported.trans (toMid.trans (toRevised.trans toFiled))) 3
    (by rw [atFiled]; rfl)
  have sealedTwice : Leaves reference (4 : Fin 5) (chronicle 4) ⟨chronicleTable 3, [sampleCheckpoint]⟩ 4
    (suppliedFrom 5)
      ⟨chronicleTable 3, [sampleCheckpoint, laterCheckpoint]⟩ 4 := by
    refine seal_leaves reference 4 _ 4 _ ⟨sampleKeyring, "v1", 10, by decide⟩ laterEvent _ [1]
      laterCheckpoint (by decide)
      (check_prefix_returns reference sampleKeyring (some sampleCheckpoint) _ _ rfl three
        (sample_accepted (three sampleEvent (by decide)) _)) (by decide) ?_ (by decide)
    exact (congrArg (sealedRow reference _ (some sampleCheckpoint) 3 chronicleRows · _ _ _)
        (stored_leaves _ three)).trans
      chronicle_sealed.2
  obtain ⟨now, toNow, atNow, _⟩ := leaves_reaches reference chronicle filed 4 _ _ _ _ _ atFiled
    ((fourthOthers 4 (by decide)).trans ((thirdOthers 4 (by decide)).trans
      ((secondOthers 4 (by decide)).trans (firstOthers 4 (by decide))))) sealedTwice
  refine ⟨mid, now, toReported.trans toMid, toRevised.trans (toFiled.trans toNow), ?_, ?_⟩
  · rw [atMid]
    exact ⟨rfl, rfl⟩
  · rw [atNow]
    exact ⟨rfl, rfl⟩

end CalibrationLedger
