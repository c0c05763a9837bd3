import CalibrationLedger.Discipline

set_option autoImplicit false

-- Every operation meets the discipline, whatever the other sessions do.
namespace CalibrationLedger

open JsonText Digest Interleaving

section

variable (rt : Runtime)

-- The row a draft becomes once its id and time are drawn.
def draftRow (draft : Draft) (eventId : Uuid) (occurredAt : Instant) : Event :=
  let event : Event := {
    sequence := 0
    eventId
    recordId := draft.recordId.getD eventId
    eventType := draft.eventType
    businessKey := draft.businessKey
    contentFingerprint := draft.fingerprint
    instrumentId := draft.instrumentId
    operatorId := draft.operatorId
    reportDigest := draft.reportDigest
    previousEventId := draft.previousEventId
    reason := draft.reason
    occurredAt
    leafHash := "" }
  { event with leafHash := hex (rowLeaf rt event) }

theorem new_event_draws (draft : Draft) : newEvent rt draft = do
    let eventId ← ask .uuidFactory
    let occurredAt ← ask .clock
    return draftRow rt draft eventId occurredAt := by
  unfold newEvent
  simp only [event_bytes]
  rfl

-- The fingerprint covers what the row will say.
def Draft.Genuine (draft : Draft) : Prop :=
  ∀ eventId occurredAt, (draftRow rt draft eventId occurredAt).payloadShape = true ∧
    draft.fingerprint =
      sha256Hex rt (bytesOf rt (.obj (dict (draftRow rt draft eventId occurredAt).submission)))

theorem draft_row_formed (draft : Draft) (genuine : draft.Genuine rt) (eventId : Uuid) (occurredAt : Instant)
    (sequence : Int) : WellFormed rt { draftRow rt draft eventId occurredAt with sequence } :=
  ⟨rfl, (genuine eventId occurredAt).1, (genuine eventId occurredAt).2⟩

variable (signing : Text → Bytes → Prop) {ι : Type}

-- A statement that asks nothing of its session and leaves the store alone.
def Reads (query : Statement) : Prop :=
  match query with
  | .uuidFactory => True
  | .clock => True
  | .selectByKey _ => True
  | .selectByKeys _ => True
  | .selectSuccessor _ => True
  | .selectLatest => True
  | .selectAfter _ _ => True
  | .selectUpTo _ => True
  | _ => False

theorem reads_allowed (i : ι) (query : Statement) (reads : Reads query) (store : Store ι) :
    Allowed rt signing i query store := by
  cases query with
  | nextval => cases reads
  | insertEvent _ => cases reads
  | insertCheckpoint _ => cases reads
  | _ => trivial

def Idle (i : ι) (store : Store ι) : Prop := store.transactions i = Transaction.idle

-- No transaction is open.
def Quiet (store : Store ι) : Prop := ∀ j, Idle j store

-- Inside a writer's transaction, after the shared lock.
def Writing (i : ι) (store : Store ι) : Prop :=
  (store.transactions i).shared = true ∧ (store.transactions i).checkpoints = []

theorem idle_stable (i : ι) (store now : Store ι) (others : LedgerRely i store now)
    (idle : Idle i store) : Idle i now :=
  others.own.trans idle

theorem writing_stable (i : ι) (store now : Store ι) (others : LedgerRely i store now)
    (writing : Writing i store) :
    Writing i now := by
  rw [Writing, others.own]
  exact writing

theorem idle_undrafted (i : ι) (store : Store ι) (idle : Idle i store) :
    (store.transactions i).checkpoints = [] := by
  rw [idle]
  rfl

-- Inside a sealer's transaction: it holds the lock alone and has written nothing,
-- so the rows it read are the rows there still are.
structure Sealing (i : ι) (read now : Store ι) : Prop where
  exclusive : (now.transactions i).exclusive = true
  noRows : (now.transactions i).events = []
  noValue : (now.transactions i).allocated = none
  undrafted : (now.transactions i).checkpoints = []
  events : now.events = read.events
  checkpoints : now.checkpoints = read.checkpoints

theorem sealing_stable (i : ι) (read store now : Store ι) (others : LedgerRely i store now)
    (sealing : Sealing i read store) : Sealing i read now := by
  obtain ⟨exclusive, noRows, noValue, undrafted, events, checkpoints⟩ := sealing
  obtain ⟨sameEvents, sameCheckpoints⟩ := others.frozen exclusive
  rw [← others.own] at exclusive noRows noValue undrafted
  exact ⟨exclusive, noRows, noValue, undrafted, sameEvents.trans events, sameCheckpoints.trans checkpoints⟩

theorem sealing_visible (i : ι) (read now : Store ι) (sealing : Sealing i read now) :
    now.visible i = read.events ∧ now.visibleCheckpoints i = read.checkpoints := by
  constructor
  · rw [Store.visible, sealing.noRows, sealing.events]
    rfl
  · rw [Store.visibleCheckpoints, sealing.undrafted, sealing.checkpoints, List.append_nil]

-- A row the session reads as its own work or as committed.
def Seen (i : ι) (row : Event) (store : Store ι) : Prop :=
  row ∈ store.events.rows ∨ row ∈ (store.transactions i).events

theorem seen_stable (i : ι) (row : Event) (store now : Store ι) (others : LedgerRely i store now)
    (seen : Seen i row store) :
    Seen i row now := by
  rcases seen with committed | own
  · exact .inl (others.rows row committed)
  · exact .inr (by rw [others.own]; exact own)

theorem visible_seen (i : ι) (row : Event) (store : Store ι) (member : row ∈ (store.visible i).rows) :
    Seen i row store :=
  (mem_insert_all store.events _ row member).symm

theorem seen_committed (i : ι) (row : Event) (store : Store ι) (idle : Idle i store)
    (seen : Seen i row store) :
    row ∈ store.events.rows := by
  rcases seen with committed | own
  · exact committed
  · rw [idle] at own
    cases own

-- The event answers a request with this key and fingerprint.
def Answers (i : ι) (businessKey fingerprint : String) (pair : Event × Bool) (store : Store ι) : Prop :=
  Seen i pair.1 store ∧ pair.1.businessKey = businessKey ∧ pair.1.contentFingerprint = fingerprint

theorem by_key_found (table : EventTable) (businessKey : String) (row : Event)
    (found : table.byKey businessKey = some row) : row ∈ table.rows ∧ row.businessKey = businessKey :=
  ⟨List.mem_of_find?_eq_some found, by simpa using List.find?_some found⟩

theorem existing_answers (i : ι) (businessKey : String) (existing : Event) (store : Store ι)
    (found : (store.visible i).byKey businessKey = some existing) :
    Answers i businessKey existing.contentFingerprint (existing, false) store := by
  obtain ⟨member, keyed⟩ := by_key_found _ _ _ found
  exact ⟨visible_seen i existing store member, keyed, rfl⟩

variable [DecidableEq ι]

theorem commit_idle (i : ι) (store : Store ι) : Idle i (store.commit i) := by simp [Idle, Store.commit]

theorem rollback_idle (i : ι) (store : Store ι) : Idle i (store.rollback i) := update_same store i _

theorem seen_commit (i : ι) (row : Event) (store : Store ι) (sound : Sound rt signing store)
    (seen : Seen i row store) :
    Seen i row (store.commit i) := by
  rcases seen with committed | own
  · exact .inl (visible_committed store i row committed)
  · exact .inl (visible_own rt signing store i row sound own)

-- What a result says of the store stays true while others work and once the
-- session commits.
structure Lasting {α : Type} (i : ι) (good : α → Store ι → Prop) : Prop where
  stable : ∀ value store now, LedgerRely i store now → good value store → good value now
  commits : ∀ value store, Sound rt signing store → good value store → good value (store.commit i)

theorem lasting_true {α : Type} (i : ι) : Lasting rt signing i fun (_ : α) (_ : Store ι) => True :=
  ⟨fun _ _ _ _ _ => trivial, fun _ _ _ _ => trivial⟩

theorem answers_lasting (i : ι) (businessKey fingerprint : String) :
    Lasting rt signing i (Answers i businessKey fingerprint) where
  stable pair store now others := And.imp_left (seen_stable i pair.1 store now others)
  commits pair store sound := And.imp_left (seen_commit rt signing i pair.1 store sound)

def BatchAnswers (i : ι) (items : List PreparedReport) (pairs : List (Event × Bool)) (store : Store ι) :
    Prop :=
  List.Forall₂ (fun item pair => Answers i item.request.businessKey item.fingerprint pair store) items pairs

theorem batch_answers_lasting (i : ι) (items : List PreparedReport) :
    Lasting rt signing i (BatchAnswers i items) where
  stable _ store now others := List.Forall₂.imp fun _ pair =>
    (answers_lasting rt signing i _ _).stable pair store now others
  commits _ store sound := List.Forall₂.imp fun _ pair =>
    (answers_lasting rt signing i _ _).commits pair store sound

variable [Fintype ι] {α β : Type}

abbrev Kept (i : ι) (good : α → Store ι → Prop) (program : Tx α) (store : Store ι) : Prop :=
  Verified (discipline ι rt signing) i (fun outcome now => ∀ value, outcome = .ok value →
      good value now) program.run store

theorem kept_error (i : ι) (good : α → Store ι → Prop) (error : PyError) (store : Store ι) :
    Kept rt signing i good (throw error) store := fun _ _ _ _ impossible => by cases impossible

theorem kept_return (i : ι) (good : α → Store ι → Prop) (value : α) (store : Store ι)
    (holds : ∀ now, Sound rt signing now → LedgerRely i store now → good value now) :
    Kept rt signing i good (return value) store := fun now sound others _ same => by
  cases same
  exact holds now sound others

theorem kept_ask (i : ι) (good : α → Store ι → Prop) (query : Statement) (next : Response query → Tx α)
    (store : Store ι)
    (step : ∀ now, Sound rt signing now → LedgerRely i store now → Allowed rt signing i query now ∧
      ∀ response after before left, respond i query now before = some (response, after, left) →
        Kept rt signing i good (next response) after) : Kept rt signing i good (ask query >>= next) store :=
  step

theorem kept_bind (i : ι) (mid : α → Store ι → Prop) (good : β → Store ι → Prop) (first : Tx α)
    (next : α → Tx β) (store : Store ι) (kept : Kept rt signing i mid first store)
    (onward : ∀ value now, Sound rt signing now → mid value now → Kept rt signing i good (next value) now) :
    Kept rt signing i good (first >>= next) store := by
  refine verified_bind
    (discipline ι rt signing) i _ _ first.run _ store kept fun outcome now sound found => ?_
  cases outcome with
  | ok value => exact onward value now sound (found value rfl)
  | error error => exact kept_error rt signing i good error now

theorem kept_mono (i : ι) (strong weak : α → Store ι → Prop) (program : Tx α) (store : Store ι)
    (implies : ∀ value now, strong value now → weak value now)
    (kept : Kept rt signing i strong program store) :
    Kept rt signing i weak program store :=
  verified_mono (discipline ι rt signing) i _ _ _ store
    (fun _ now found value same => implies value now (found value same)) kept

theorem reads_unchanged (i : ι) (query : Statement) (reads : Reads query) (now after : Store ι)
    (response : Response query) (before left : Supply)
    (answer : respond i query now before = some (response, after, left)) : after = now := by
  cases query with
  | lockShared => cases reads
  | selectForUpdate _ => cases reads
  | nextval => cases reads
  | insertEvent _ => cases reads
  | tryLockExclusive => cases reads
  | insertCheckpoint _ => cases reads
  | commit => cases reads
  | rollback => cases reads
  | _ => cases answer; rfl

theorem kept_read (i : ι) (good : α → Store ι → Prop) (query : Statement) (reads : Reads query)
    (next : Response query → Tx α) (store : Store ι)
    (onward : ∀ response now before left, respond i query now before = some (response, now, left) →
      Sound rt signing now → LedgerRely i store now → Kept rt signing i good (next response) now) :
    Kept rt signing i good (ask query >>= next) store := by
  refine kept_ask rt signing i good query next store fun now sound others =>
    ⟨reads_allowed rt signing i query reads now, ?_⟩
  intro response after before left answer
  have same := reads_unchanged i query reads now after response before left answer
  rw [same] at answer ⊢
  exact onward response now before left answer sound others

theorem transaction_idle (i : ι) (good : α → Store ι → Prop) (lasting : Lasting rt signing i good)
    (body : Tx α) (store : Store ι) (kept : Kept rt signing i good body store) :
    Verified (discipline ι rt signing) i (fun outcome now => Idle i now ∧ ∀ value, outcome = .ok value →
      good value now)
      (transaction body).run store := by
  refine verified_bind (discipline ι rt signing) i _ _ body.run _ store kept fun outcome now _ found => ?_
  cases outcome with
  | ok value =>
      refine fun later sound others => ⟨trivial, fun response after before left answer => ?_⟩
      cases answer
      refine fun end_ _ around => ⟨idle_stable i _ end_ around (commit_idle i later), fun result same => ?_⟩
      cases same
      exact lasting.stable value _ end_ around (lasting.commits value later sound
        (lasting.stable value now later others (found value rfl)))
  | error error =>
      refine fun later _ _ => ⟨trivial, fun response after before left answer => ?_⟩
      cases answer
      refine fun end_ _ around =>
        ⟨idle_stable i _ end_ around (rollback_idle i later), fun result impossible => ?_⟩
      cases impossible

theorem kept_transaction (i : ι) (good : α → Store ι → Prop) (lasting : Lasting rt signing i good)
    (body : Tx α) (store : Store ι) (kept : Kept rt signing i good body store) :
    Kept rt signing i good (transaction body) store :=
  verified_mono (discipline ι rt signing) i _ _ _ store (fun _ _ found => found.2)
    (transaction_idle rt signing i good lasting body store kept)

-- A result reported once the transaction has ended.
def Settled (i : ι) (good : α → Store ι → Prop) (value : α) (store : Store ι) : Prop :=
  Idle i store ∧ good value store

theorem kept_recovering (i : ι) (good : α → Store ι → Prop) (lasting : Lasting rt signing i good)
    (body handler : Tx α) (store : Store ι) (kept : Kept rt signing i good body store)
    (recovers : ∀ now, Sound rt signing now → Idle i now → Kept rt signing i (Settled i good) handler now) :
    Kept rt signing i (Settled i good) (onIntegrityError (transaction body) handler) store := by
  have settled := transaction_idle rt signing i good lasting body store kept
  refine verified_bind
    (discipline ι rt signing) i _ _ (transaction body).run _ store settled fun outcome now _ found => ?_
  split
  · refine fun later sound _ => ⟨trivial, fun response after before left answer => ?_⟩
    cases answer
    exact recovers _ (sound_rollback rt signing later i sound) (rollback_idle i later)
  · exact fun later _ others value same =>
      ⟨idle_stable i now later others found.1, lasting.stable value now later others (found.2 value same)⟩

theorem kept_lock_shared (i : ι) (good : α → Store ι → Prop) (next : Unit → Tx α) (store : Store ι)
    (undrafted : (store.transactions i).checkpoints = [])
    (onward : ∀ now, Sound rt signing now → (∀ row ∈ store.events.rows, row ∈ now.events.rows) →
      (now.transactions i).events = (store.transactions i).events → Writing i now →
      Kept rt signing i good (next ()) now) :
    Kept rt signing i good (ask .lockShared >>= next) store := by
  refine kept_ask rt signing i good .lockShared next store fun now sound others =>
    ⟨trivial, fun response after before left answer => ?_⟩
  have sounder := (respond_keeps rt signing i .lockShared now before response after left sound
      trivial answer).1
  rw [respond] at answer
  split at answer
  · cases answer
  · cases answer
    refine onward _ sounder others.rows ?_ ⟨?_, ?_⟩
    · rw [update_same, others.own]
    · rw [update_same]
    · rw [update_same, others.own]
      exact undrafted

theorem kept_new_event (i : ι) (good : α → Store ι → Prop) (draft : Draft) (next : Event → Tx α)
    (store : Store ι)
    (onward : ∀ eventId occurredAt now, Sound rt signing now → LedgerRely i store now →
      Kept rt signing i good (next (draftRow rt draft eventId occurredAt)) now) :
    Kept rt signing i good (newEvent rt draft >>= next) store := by
  rw [new_event_draws]
  refine kept_read rt signing i good .uuidFactory trivial _ store fun eventId now _ _ _ _ first => ?_
  refine kept_read rt signing i good .clock trivial _ now fun occurredAt later _ _ _ sound second => ?_
  exact onward eventId occurredAt later sound (ledger_rely_trans i store now later first second)

theorem kept_flush (i : ι) (good : α → Store ι → Prop) (event : Event) (next : Event → Tx α)
    (store : Store ι) (writing : Writing i store)
    (formed : ∀ sequence, WellFormed rt { event with sequence })
    (lineage : ∀ (later : Store ι) (sequence : Int), (∀ row ∈ store.events.rows, row ∈ later.events.rows) →
      store.nextSequence ≤ sequence → Lineage later.events.rows { event with sequence })
    (onward : ∀ sequence now, Sound rt signing now → Writing i now → Seen i { event with sequence } now →
      (∀ row, Seen i row store → Seen i row now) →
      Kept rt signing i good (next { event with sequence }) now) :
    Kept rt signing i good (flushEvent event >>= next) store := by
  refine kept_ask rt signing i good .nextval _ store fun now sound others => ?_
  obtain ⟨shared, undrafted⟩ := writing_stable i store now others writing
  refine ⟨⟨shared, undrafted⟩, fun sequence after before left answer => ?_⟩
  have counted := (respond_keeps rt signing i .nextval now before sequence after left sound
      ⟨shared, undrafted⟩ answer).1
  cases answer
  refine kept_ask rt signing i good (.insertEvent _) _ _ fun later sounder around => ?_
  have own := around.own
  rw [update_same] at own
  have advanced : store.nextSequence ≤ now.nextSequence + (before.gaps 0 : Int) := by
    have next := others.next
    omega
  have allowed : Allowed rt signing i
    (.insertEvent { event with sequence := now.nextSequence + (before.gaps 0 : Int) })
      later := by
    refine ⟨by rw [own], by rw [own]; exact undrafted, formed _,
      lineage later _ (fun row member => ?_) advanced⟩
    exact around.rows row (others.rows row member)
  refine ⟨allowed, fun inserted final supply rest reply => ?_⟩
  have last := (respond_keeps rt signing i _ later supply inserted final rest sounder allowed reply).1
  cases inserted with
  | false => exact kept_error rt signing i good .integrityError final
  | true =>
      rw [respond] at reply
      split at reply
      · cases reply
      · split at reply
        · cases reply
        · cases reply
          refine onward _ _ last ⟨?_, ?_⟩ (.inr ?_) fun row seen => ?_
          · rw [update_same, own]
            exact shared
          · rw [update_same, own]
            exact undrafted
          · rw [update_same]
            exact List.mem_append_right _ (List.mem_singleton_self _)
          · rcases seen with committed | held
            · exact .inl (around.rows row (others.rows row committed))
            · refine .inr ?_
              rw [update_same, own, others.own]
              exact List.mem_append_left _ held

theorem kept_lift (i : ι) (good : β → Store ι → Prop) (value : Py α) (next : α → Tx β) (store : Store ι)
    (onward : ∀ result, value = .ok result → Kept rt signing i good (next result) store) :
    Kept rt signing i good ((liftM value : Tx α) >>= next) store := by
  cases value with
  | ok result => exact onward result rfl
  | error error => exact kept_error rt signing i good error store

theorem kept_after (i : ι) (mid : α → Store ι → Prop) (good : β → Store ι → Prop)
    (lasting : Lasting rt signing i mid) (body : Tx α) (next : α → Tx β) (store : Store ι)
    (kept : Kept rt signing i mid body store)
    (onward : ∀ value now, Sound rt signing now → Idle i now → Kept rt signing i good (next value) now) :
    Kept rt signing i good (transaction body >>= next) store := by
  have settled := transaction_idle rt signing i mid lasting body store kept
  refine verified_bind
    (discipline ι rt signing) i _ _ (transaction body).run _ store settled fun outcome now sound found => ?_
  cases outcome with
  | ok value => exact onward value now sound found.1
  | error error => exact kept_error rt signing i good error now

theorem idempotency_checked (existing event : Event) (fingerprint : String)
    (checked : checkIdempotency existing fingerprint = .ok event) :
    event = existing ∧ existing.contentFingerprint = fingerprint := by
  unfold checkIdempotency at checked
  split at checked
  · cases checked
  · rename_i same
    exact ⟨(Except.ok.inj checked).symm, by simpa using same⟩

theorem with_index_ok {α : Type} (index : Nat) (outcome : Py α) (value : α)
    (made : withIndex index outcome = .ok value) :
    outcome = .ok value := by
  cases outcome with
  | ok found => exact made
  | error error => cases error <;> cases made

-- session.scalar(select(Event).where(business_key == ...)) and what answers it.
theorem kept_lookup (i : ι) (good : Event × Bool → Store ι → Prop) (businessKey fingerprint : String)
    (next : Option Event → Tx (Event × Bool)) (store : Store ι)
    (present : ∀ existing, next (some existing) = do return (← checkIdempotency existing fingerprint, false))
    (steady : ∀ pair before after, LedgerRely i before after → good pair before → good pair after)
    (repeated : ∀ existing now, LedgerRely i store now →
      Answers i businessKey fingerprint (existing, false) now →
      good (existing, false) now)
    (absent : ∀ now, Sound rt signing now → LedgerRely i store now → Kept rt signing i good (next none) now) :
    Kept rt signing i good (ask (.selectByKey businessKey) >>= next) store := by
  refine kept_read rt signing i _ (.selectByKey businessKey) trivial _ store fun response now before
    left answer sound others => ?_
  cases answer
  cases found : (now.visible i).byKey businessKey with
  | some existing =>
      rw [present]
      refine kept_lift rt signing i _ (checkIdempotency existing fingerprint) _ now fun event checked => ?_
      obtain ⟨rfl, rfl⟩ := idempotency_checked existing event fingerprint checked
      refine kept_return rt signing i _ _ now fun later _ around => steady _ now later around ?_
      exact repeated event now others (existing_answers i businessKey event now found)
  | none => exact absent now sound others

-- The same read once the session's own transaction is gone.
theorem kept_reread (i : ι) (businessKey fingerprint : String) (next : Option Event → Tx (Event × Bool))
    (store : Store ι) (idle : Idle i store)
    (present : ∀ existing, next (some existing) = do return (← checkIdempotency existing fingerprint, false))
    (absent : ∀ now, Kept rt signing i (Settled i (Answers i businessKey fingerprint)) (next none) now) :
    Kept rt signing i (Settled i (Answers i businessKey fingerprint))
      (ask (.selectByKey businessKey) >>= next) store := by
  refine kept_lookup rt signing i _ businessKey fingerprint next store present
    (fun pair before after others => ?_)
    (fun existing now others answers => ⟨idle_stable i store now others idle, answers⟩) fun now _ _ =>
      absent now
  exact And.imp (idle_stable i before after others)
    ((answers_lasting rt signing i _ _).stable pair before after others)

theorem report_lineage (rows : List Event) (request : SubmitReport) (reportDigest fingerprint : String)
    (eventId : Uuid) (occurredAt : Instant) (sequence : Int) :
    Lineage rows { draftRow rt
      (reportDraft request reportDigest fingerprint) eventId occurredAt with sequence } :=
  ⟨rfl, rfl⟩

theorem kept_report_row (i : ι) (good : α → Store ι → Prop) (request : SubmitReport)
    (reportDigest fingerprint : String) (next : Event → Tx α) (store : Store ι)
    (genuine : (reportDraft request reportDigest fingerprint).Genuine rt) (writing : Writing i store)
    (onward : ∀ row now, Sound rt signing now → Writing i now →
      Answers i request.businessKey fingerprint (row, true) now →
      (∀ other, Seen i other store → Seen i other now) → Kept rt signing i good (next row) now) :
    Kept rt signing i good (newEvent rt (reportDraft request reportDigest fingerprint) >>= fun event =>
      flushEvent event >>= next) store := by
  refine kept_new_event rt signing i good _ _ store fun eventId occurredAt now _ others => ?_
  refine kept_flush rt signing i good _ next now (writing_stable i store now others writing) ?_ ?_ ?_
  · exact draft_row_formed rt _ genuine eventId occurredAt
  · exact fun later sequence _ _ =>
      report_lineage rt _ request reportDigest fingerprint eventId occurredAt sequence
  · intro sequence last sound writes seen keeps
    exact onward _ last sound writes ⟨seen, rfl, rfl⟩ fun other before =>
      keeps other (seen_stable i other store now others before)

theorem kept_insert_report (i : ι) (request : SubmitReport) (reportDigest fingerprint : String)
    (store : Store ι) (genuine : (reportDraft request reportDigest fingerprint).Genuine rt)
    (idle : Idle i store) :
    Kept rt signing i (Answers i request.businessKey fingerprint)
      (insertReport rt request reportDigest fingerprint) store := by
  refine kept_lookup rt signing i _ request.businessKey fingerprint _ store (fun _ => rfl)
    (answers_lasting rt signing i _ _).stable (fun _ _ _ => id) fun now _ others => ?_
  have undrafted := idle_undrafted i now (idle_stable i store now others idle)
  refine kept_lock_shared rt signing i _ _ now undrafted fun later _ _ _ writing => ?_
  refine kept_report_row rt signing i _ request reportDigest fingerprint _ later genuine writing fun row
    final _ _ answers _ => ?_
  exact kept_return rt signing i _ (row, true) final fun last _ others =>
    (answers_lasting rt signing i _ _).stable (row, true) final last others answers

theorem fingerprint_value (payload : List (String × Json)) (values : ∀ entry ∈ payload, encodable entry.2)
    (found : String) (made : fingerprint rt payload = .ok found) :
    found = sha256Hex rt (bytesOf rt (.obj (dict payload))) := by
  rw [fingerprint, bytes_of_encodable rt _ (dict_encodable payload values)] at made
  exact (Except.ok.inj made).symm

theorem report_genuine (request : SubmitReport) (reportDigest found : String)
    (made : reportFingerprint rt request reportDigest = .ok found) :
    (reportDraft request reportDigest found).Genuine rt := by
  unfold reportFingerprint at made
  have covered := fingerprint_value rt _ (by simp [encodable, string, text_scalars]) found made
  exact fun eventId occurredAt => ⟨rfl, covered⟩

theorem kept_append_report (i : ι) (request : SubmitReport) (store : Store ι) (idle : Idle i store) :
    Kept rt signing i (fun pair now => ∃ reportDigest found, digestJson rt request.report = .ok reportDigest ∧
      reportFingerprint rt request reportDigest = .ok found ∧
      Settled i (Answers i request.businessKey found) pair now)
      (appendReport rt request) store := by
  refine kept_lift rt signing i _ (digestJson rt request.report) _ store fun reportDigest digested => ?_
  refine kept_lift rt signing i _ (reportFingerprint rt request reportDigest) _ store fun found made => ?_
  refine kept_mono rt signing i (Settled i (Answers i request.businessKey found)) _ _ store
    (fun _ _ answers => ⟨reportDigest, found, digested, made, answers⟩) ?_
  have genuine := report_genuine rt request reportDigest found made
  refine kept_recovering rt signing i _ (answers_lasting rt signing i _ _) _ _ store
    (kept_insert_report rt signing i request reportDigest found store genuine idle) fun now _ again => ?_
  exact kept_reread rt signing i request.businessKey found _ now again (fun _ => rfl) fun later =>
    kept_error rt signing i _ .integrityError later

def Prepared (item : PreparedReport) : Prop :=
  (reportDraft item.request item.reportDigest item.fingerprint).Genuine rt

theorem prepare_batch_prepared (index : Nat) (requests : List SubmitReport) (prepared : List PreparedReport)
    (made : prepareBatch rt index requests = .ok prepared) : ∀ item ∈ prepared, Prepared rt item := by
  induction requests generalizing index prepared with
  | nil =>
      cases made
      exact fun _ member => by cases member
  | cons request rest ih =>
      obtain ⟨item, first, onward⟩ := (bind_ok _ _ _).mp made
      obtain ⟨later, others, whole⟩ := (bind_ok _ _ _).mp onward
      cases whole
      intro other member
      rcases List.mem_cons.mp member with rfl | inside
      · obtain ⟨reportDigest, _, fingerprinted⟩ := (bind_ok _ _ _).mp first
        obtain ⟨found, covered, shape⟩ := (bind_ok _ _ _).mp fingerprinted
        cases shape
        exact report_genuine rt request reportDigest found covered
      · exact ih (index + 1) later others other inside

theorem kept_insert_items (i : ι) (index : Nat) (resolved appended : List Event)
    (items : List PreparedReport) (store : Store ι) (prepared : ∀ item ∈ items, Prepared rt item)
    (within : ∀ row ∈ appended, row ∈ resolved) (seen : ∀ row ∈ resolved, Seen i row store)
    (writing : Writing i store) :
    Kept rt signing i (fun pairs now => (∀ row ∈ resolved, Seen i row now) ∧ BatchAnswers i items pairs now)
      (insertItems rt index resolved appended items) store := by
  induction items generalizing index resolved appended store with
  | nil =>
      refine kept_return rt signing i _ [] store fun now _ others => ⟨fun row member => ?_, .nil⟩
      exact seen_stable i row store now others (seen row member)
  | cons item rest ih =>
      have others : ∀ other ∈ rest, Prepared rt other := fun other later =>
        prepared other (List.mem_cons_of_mem _ later)
      have onward : ∀ (more appended : List Event) (event : Event) (created : Bool) (now : Store ι),
          (∀ row ∈ resolved, row ∈ more) → (∀ row ∈ appended, row ∈ more) → (∀ row ∈ more, Seen i row now) →
          Writing i now → event ∈ more → event.businessKey = item.request.businessKey →
          event.contentFingerprint = item.fingerprint →
          Kept rt signing i (fun pairs now => (∀ row ∈ resolved, Seen i row now) ∧
            BatchAnswers i (item :: rest) pairs now)
            (do
              let later ← insertItems rt (index + 1) more appended rest
              return (event, created) :: later) now := by
        intro more appended event created now grows inside visible writes member keyed matched
        refine kept_bind rt signing i _ _ _ _ now
          (ih (index + 1) more appended now others inside visible writes) ?_
        rintro later final _ ⟨stillSeen, answers⟩
        refine kept_return rt signing i _ _ final fun last _ around =>
          ⟨fun row old => ?_, .cons ⟨?_, keyed, matched⟩ ?_⟩
        · exact seen_stable i row final last around (stillSeen row (grows row old))
        · exact seen_stable i event final last around (stillSeen event member)
        · exact (batch_answers_lasting rt signing i rest).stable later final last around answers
      unfold insertItems
      dsimp only
      split
      · rename_i existing found
        refine kept_lift rt signing i _ (withIndex index (checkIdempotency existing item.fingerprint))
          _ store fun event checked => ?_
        obtain ⟨rfl, matched⟩ :=
          idempotency_checked existing event item.fingerprint (with_index_ok index _ event checked)
        exact onward resolved appended _ false store (fun _ member => member) within seen writing
          (List.mem_of_find?_eq_some found) (by simpa using List.find?_some found) matched
      · rename_i unresolved
        split
        · refine kept_report_row rt signing i _ item.request item.reportDigest item.fingerprint _ store
            (prepared item List.mem_cons_self) writing fun row now _ writes answers keeps => ?_
          obtain ⟨own, keyed, matched⟩ := answers
          refine onward (resolved ++ [row]) (appended ++ [row]) row true now (fun _ => List.mem_append_left _)
            (fun other member => ?_) (fun other member => ?_) writes
              (List.mem_append_right _ (List.mem_singleton_self _))
            keyed matched
          · rcases List.mem_append.mp member with old | new
            · exact List.mem_append_left _ (within other old)
            · exact List.mem_append_right _ new
          · rcases List.mem_append.mp member with old | new
            · exact keeps other (seen other old)
            · rw [List.mem_singleton.mp new]
              exact own
        · rename_i event found
          have absent := List.find?_eq_none.mp unresolved event
            (within event (List.mem_of_find?_eq_some found))
          exact absurd (List.find?_some found) absent

theorem kept_insert_batch (i : ι) (prepared : List PreparedReport) (store : Store ι)
    (genuine : ∀ item ∈ prepared, Prepared rt item) (idle : Idle i store) :
    Kept rt signing i (BatchAnswers i prepared) (insertReportBatch rt prepared) store := by
  refine kept_lock_shared rt signing i _ _ store (idle_undrafted i store idle) fun now _ _ _ writing => ?_
  refine kept_read rt signing i _ (.selectByKeys (batchKeys prepared)) trivial _ now
    fun existing later before left answer _ others => ?_
  cases answer
  refine kept_mono rt signing i _ _ _ later (fun _ _ => And.right)
    (kept_insert_items rt signing i 0 _ [] prepared later genuine (fun _ none => by cases none)
      (fun row member => ?_)
      (writing_stable i now later others writing))
  exact visible_seen i row later (List.mem_of_mem_filter member)

theorem kept_attempt_batch (i : ι) (prepared : List PreparedReport) (left : Nat) (store : Store ι)
    (genuine : ∀ item ∈ prepared, Prepared rt item) (idle : Idle i store) :
    Kept rt signing i (Settled i (BatchAnswers i prepared)) (attemptBatch rt prepared left) store := by
  have conflictRead : ∀ now, Kept rt signing i (fun _ _ => True) (do
      let existing ← ask (.selectByKeys (batchKeys prepared))
      return conflictingItem existing 0 prepared) now := fun now =>
    kept_read rt signing i _ (.selectByKeys (batchKeys prepared)) trivial _ now fun existing
        later _ _ _ _ _ =>
      kept_return rt signing i _ (conflictingItem existing 0 prepared) later fun _ _ _ => trivial
  have lasting := batch_answers_lasting rt signing i prepared
  induction left generalizing store with
  | zero =>
      refine kept_recovering rt signing i _ lasting _ _ store
        (kept_insert_batch rt signing i prepared store genuine idle)
        fun now _ _ => ?_
      refine kept_after rt signing i _ _ (lasting_true rt signing i) _ _ now
        (conflictRead now) fun conflict later _ _ => ?_
      cases conflict with
      | some conflict => exact kept_error rt signing i _ conflict later
      | none => exact kept_error rt signing i _ .integrityError later
  | succ left ih =>
      refine kept_recovering rt signing i _ lasting _ _ store
        (kept_insert_batch rt signing i prepared store genuine idle)
        fun now _ _ => ?_
      refine kept_after rt signing i _ _ (lasting_true rt signing i) _ _ now
        (conflictRead now) fun conflict later _ again => ?_
      cases conflict with
      | some conflict => exact kept_error rt signing i _ conflict later
      | none => exact ih later again

theorem kept_append_batch (i : ι) (requests : List SubmitReport) (store : Store ι) (idle : Idle i store) :
    Kept rt signing i (fun pairs now => ∃ prepared, prepareBatch rt 0 requests = .ok prepared ∧
      batchCollision 0 [] prepared = none ∧ Settled i (BatchAnswers i prepared) pairs now)
        (appendReportBatch rt requests) store := by
  refine kept_lift rt signing i _ (prepareBatch rt 0 requests) _ store fun prepared made => ?_
  cases collision : batchCollision 0 [] prepared with
  | some conflict => exact kept_error rt signing i _ conflict store
  | none =>
      refine kept_mono rt signing i (Settled i (BatchAnswers i prepared)) _ _ store
        (fun _ _ answers => ⟨prepared, made, collision, answers⟩) ?_
      exact kept_attempt_batch rt signing i prepared _ store
        (prepare_batch_prepared rt 0 requests prepared made) idle

-- A successor request whose fingerprint covers the row it leads to.
structure Successor.Genuine (request : Successor) : Prop where
  follows : request.eventType ≠ .report
  drafts : ∀ parent : Event, parent.eventId = request.previousEventId →
    changesInstrument request.instrumentId parent = none → (successorDraft request parent).Genuine rt

theorem lineage_of_step (rows : List Event) (parent row : Event) (type : row.eventType ≠ .report)
    (inside : parent ∈ rows) (step : Succeeds parent row) : Lineage rows row := by
  unfold Lineage
  split
  · rename_i report
    exact absurd report type
  · exact ⟨parent, inside, step⟩
  · exact ⟨parent, inside, step⟩

theorem by_id_found (table : EventTable) (eventId : Uuid) (row : Event)
    (found : table.byId eventId = some row) :
    row ∈ table.rows ∧ row.eventId = eventId :=
  ⟨List.mem_of_find?_eq_some found, by simpa using List.find?_some found⟩

theorem kept_insert_successor (i : ι) (request : Successor) (store : Store ι) (genuine : request.Genuine rt)
    (idle : Idle i store) :
    Kept rt signing i (Answers i request.businessKey request.fingerprint)
      (insertSuccessor rt request) store := by
  refine kept_lookup rt signing i _ request.businessKey request.fingerprint _ store (fun _ => rfl)
    (answers_lasting rt signing i _ _).stable (fun _ _ _ => id) fun first _ others => ?_
  have firstIdle := idle_stable i store first others idle
  refine kept_lock_shared rt signing i _ _ first
    (idle_undrafted i first firstIdle) fun now _ _ noRows writing => ?_
  have ownRows : (now.transactions i).events = [] := by
    rw [noRows, firstIdle]
    rfl
  refine kept_ask rt signing i _ (.selectForUpdate request.previousEventId) _ now fun here sound around =>
    ⟨trivial, fun response after before left answer => ?_⟩
  have sounder := (respond_keeps rt signing i _ here before response after left sound trivial answer).1
  have hereWriting := writing_stable i now here around writing
  rw [respond] at answer
  split at answer
  · cases answer
    exact kept_error rt signing i _ _ here
  · rename_i parent found
    split at answer
    · cases answer
    · cases answer
      obtain ⟨seen, named⟩ := by_id_found _ _ parent found
      have committed : parent ∈ here.events.rows := by
        rw [Store.visible, around.own, ownRows] at seen
        exact seen
      have afterWriting : Writing i (here.update i fun tx =>
          { tx with locked := request.previousEventId :: tx.locked }) := by
        rw [Writing, update_same]
        exact hereWriting
      by_cases revoked : parent.eventType = .revocation
      · simp only [if_pos revoked]
        exact kept_error rt signing i _ _ _
      · simp only [if_neg revoked]
        refine kept_read rt signing i _ (.selectSuccessor request.previousEventId) trivial _ _
          fun response there _ _ _ soundThere aside => ?_
        cases response with
        | some successor => exact kept_error rt signing i _ _ there
        | none =>
            cases change : changesInstrument request.instrumentId parent with
            | some received => exact kept_error rt signing i _ _ there
            | none =>
                refine kept_new_event rt signing i _ _ _ there fun eventId occurredAt last
                  soundLast beside => ?_
                have held : parent ∈ last.events.rows := beside.rows parent (aside.rows parent committed)
                have drawn := genuine.drafts parent named change
                refine kept_flush rt signing i _ _ _ last (writing_stable i there last beside
                  (writing_stable i _ there aside afterWriting))
                    (draft_row_formed rt _ drawn eventId occurredAt) ?_
                  fun sequence final _ _ own _ =>
                    kept_return rt signing i _ (_, true) final fun ends _ others =>
                    (answers_lasting rt signing i _ _).stable (_, true) final ends others ⟨own, rfl, rfl⟩
                intro later sequence rows above
                refine lineage_of_step _ parent _ genuine.follows (rows parent held)
                  ⟨rfl, revoked, rfl, rfl, ?_⟩
                have below := (soundLast.sequences parent (.inl held)).2
                show parent.sequence < sequence
                omega

theorem kept_append_successor (i : ι) (request : Successor) (store : Store ι) (genuine : request.Genuine rt)
    (idle : Idle i store) :
    Kept rt signing i (Settled i (Answers i request.businessKey request.fingerprint))
      (appendSuccessor rt request) store := by
  refine kept_recovering rt signing i _ (answers_lasting rt signing i _ _) _ _ store
    (kept_insert_successor rt signing i request store genuine idle) fun now _ again => ?_
  refine kept_reread rt signing i request.businessKey request.fingerprint _ now again
    (fun _ => rfl) fun later => ?_
  refine kept_read rt signing i _ (.selectSuccessor request.previousEventId) trivial _ later
    fun response last _ _ _ _ _ => ?_
  cases response with
  | some successor => exact kept_error rt signing i _ _ last
  | none => exact kept_error rt signing i _ _ last

theorem same_instrument (instrument : String) (parent : Event)
    (kept : changesInstrument (some instrument) parent = none) : parent.instrumentId = instrument := by
  by_contra different
  simp [changesInstrument, Option.filter, Ne.symm different] at kept

theorem revision_genuine (previousEventId : Uuid) (request : SubmitRevision) (reportDigest found : String)
    (made : revisionFingerprint rt previousEventId request reportDigest = .ok found) :
    (revisionOf previousEventId request reportDigest found).Genuine rt := by
  unfold revisionFingerprint at made
  have covered := fingerprint_value rt _ (by simp [encodable, string, text_scalars]) found made
  refine ⟨by simp [revisionOf],
    fun parent (named : parent.eventId = previousEventId) kept eventId occurredAt => ⟨rfl, ?_⟩⟩
  refine covered.trans ?_
  rw [← named, ← same_instrument request.instrumentId parent kept]
  rfl

theorem revocation_genuine (previousEventId : Uuid) (request : SubmitRevocation) (found : String)
    (made : revocationFingerprint rt previousEventId request = .ok found) :
    (revocationOf previousEventId request found).Genuine rt := by
  unfold revocationFingerprint at made
  have covered := fingerprint_value rt _ (by simp [encodable, string, text_scalars]) found made
  refine ⟨by simp [revocationOf],
    fun parent (named : parent.eventId = previousEventId) _ eventId occurredAt => ⟨rfl, ?_⟩⟩
  refine covered.trans ?_
  rw [← named]
  rfl

theorem kept_append_revision (i : ι) (previousEventId : Uuid) (request : SubmitRevision) (store : Store ι)
    (idle : Idle i store) :
    Kept rt signing i (fun pair now => ∃ reportDigest found, digestJson rt request.report = .ok reportDigest ∧
      revisionFingerprint rt previousEventId request reportDigest = .ok found ∧
        Settled i (Answers i request.businessKey found) pair now)
      (appendRevision rt previousEventId request) store := by
  refine kept_lift rt signing i _ (digestJson rt request.report) _ store fun reportDigest digested => ?_
  refine kept_lift rt signing i _ (revisionFingerprint rt previousEventId request reportDigest) _ store
    fun found made => ?_
  refine kept_mono rt signing i _ _ _ store
    (fun _ _ answers => ⟨reportDigest, found, digested, made, answers⟩) ?_
  exact kept_append_successor rt signing i _ store
    (revision_genuine rt previousEventId request reportDigest found made) idle

theorem kept_append_revocation (i : ι) (previousEventId : Uuid) (request : SubmitRevocation) (store : Store ι)
    (idle : Idle i store) :
    Kept rt signing i (fun pair now => ∃ found, revocationFingerprint rt previousEventId request = .ok found ∧
      Settled i (Answers i request.businessKey found) pair now)
        (appendRevocation rt previousEventId request) store := by
  refine kept_lift rt signing i _ (revocationFingerprint rt previousEventId request) _ store
    fun found made => ?_
  refine kept_mono rt signing i _ _ _ store (fun _ _ answers => ⟨found, made, answers⟩) ?_
  exact kept_append_successor rt signing i _ store
    (revocation_genuine rt previousEventId request found made) idle

theorem checked_leaves_rows (events : List Event) (leaves : List Bytes)
    (checked : checkedLeaves rt events = .ok leaves) :
    leaves = events.map (rowLeaf rt) := by
  induction events generalizing leaves with
  | nil =>
      cases checked
      rfl
  | cons event rest ih =>
      rw [checkedLeaves, event_bytes] at checked
      obtain ⟨data, same, onward⟩ := (bind_ok _ _ _).mp checked
      cases same
      dsimp only at onward
      split at onward
      · cases onward
      · obtain ⟨later, others, whole⟩ := (bind_ok _ _ _).mp onward
        cases whole
        rw [ih later others]
        rfl

theorem checked_leaves_returns (rows : List Event)
    (stored : ∀ row ∈ rows, row.leafHash = hex (rowLeaf rt row)) :
    checkedLeaves rt rows = .ok (rows.map (rowLeaf rt)) := by
  induction rows with
  | nil => rfl
  | cons row rest ih =>
      have own := stored row List.mem_cons_self
      rw [checkedLeaves, event_bytes, ih fun other later => stored other (List.mem_cons_of_mem _ later)]
      show (if hex (rowLeaf rt row) ≠ row.leafHash then _ else _) = _
      rw [if_neg (by simp [own])]
      rfl

theorem check_signature_passes (checkpoint : Checkpoint) (key : Bytes) (message : String)
    (signed : checkpoint.signature = signCheckpoint rt.toHashFunction (checkpoint.bytes rt) key) :
    checkSignature rt checkpoint key message = .ok () := by
  rw [checkSignature, checkpoint_bytes]
  show (verifyCheckpointSignature rt.toHashFunction (checkpoint.bytes rt)
      (text checkpoint.signature) key >>= _) = _
  rw [signed, signature_accepted]
  rfl

theorem check_prefix_returns (keyring : Keyring) (previous : Option Checkpoint) (batch events : List Event)
    (counted : events.length = leafCountOf previous + batch.length)
    (stored : ∀ row ∈ events, row.leafHash = hex (rowLeaf rt row))
    (accepted : checkPrevious rt keyring previous (events.map (rowLeaf rt)) = .ok ()) :
    checkPrefix rt keyring previous batch events = .ok (events.map (rowLeaf rt)) := by
  rw [checkPrefix, if_neg (not_not.mpr counted)]
  exact (bind_ok _ _ _).mpr
    ⟨_, checked_leaves_returns rt events stored, (bind_ok _ _ _).mpr ⟨(), accepted, rfl⟩⟩

theorem check_prefix_passed (keyring : Keyring) (previous : Option Checkpoint) (batch events : List Event)
    (leaves : List Bytes) (checked : checkPrefix rt keyring previous batch events = .ok leaves) :
    events.length = leafCountOf previous + batch.length ∧ leaves = events.map (rowLeaf rt) := by
  rw [checkPrefix] at checked
  split at checked
  · cases checked
  · rename_i count
    obtain ⟨found, recomputed, onward⟩ := (bind_ok _ _ _).mp checked
    obtain ⟨_, _, whole⟩ := (bind_ok _ _ _).mp onward
    cases whole
    exact ⟨by simpa using count, checked_leaves_rows rt events leaves recomputed⟩

theorem signing_key_found (keyring : Keyring) (version : String) (key : Bytes)
    (found : signingKey keyring version = .ok key) : keyring.lookup (text version) = some key := by
  rw [signingKey, requireKey] at found
  split at found
  · cases found
  · rename_i outcome _
    split at found
    · rename_i held
      rw [held]
      cases found
      rfl
    · cases found

def sealedRow (sealer : CheckpointSealer) (previous : Option Checkpoint) (boundary : Int)
    (events : List Event) (leaves : List Bytes) (checkpointId : Uuid) (createdAt : Instant)
    (key : Bytes) : Checkpoint :=
  let checkpoint : Checkpoint := {
    checkpointId
    leafCount := events.length
    lastEventSequence := boundary
    rootHash := hex (merkleRoot rt.toHashFunction leaves)
    previousCheckpointId := previous.map Checkpoint.checkpointId
    previousRootHash := previous.map Checkpoint.rootHash
    keyVersion := sealer.currentKeyVersion
    createdAt
    signature := "" }
  { checkpoint with signature := signCheckpoint rt.toHashFunction (checkpoint.bytes rt) key }

theorem sealed_row_signed (sealer : CheckpointSealer) (previous : Option Checkpoint) (boundary : Int)
    (events : List Event) (leaves : List Bytes) (checkpointId : Uuid) (createdAt : Instant)
    (key : Bytes) (row : Checkpoint)
    (drawn : sealedRow rt sealer previous boundary events leaves checkpointId createdAt key = row) :
    row.signature = signCheckpoint rt.toHashFunction (row.bytes rt) key := by
  rw [← drawn]
  rfl

theorem new_checkpoint_draws (sealer : CheckpointSealer) (previous : Option Checkpoint) (boundary : Int)
    (events : List Event) (leaves : List Bytes) : newCheckpoint rt sealer previous boundary events leaves = do
      let checkpointId ← ask .uuidFactory
      let createdAt ← ask .clock
      let key ← signingKey sealer.keyring sealer.currentKeyVersion
      return sealedRow rt sealer previous boundary events leaves checkpointId createdAt key := by
  unfold newCheckpoint
  simp only [checkpoint_bytes]
  rfl

theorem kept_new_checkpoint (i : ι) (good : α → Store ι → Prop) (sealer : CheckpointSealer)
    (previous : Option Checkpoint) (boundary : Int) (events : List Event) (leaves : List Bytes)
    (next : Checkpoint → Tx α) (store : Store ι)
    (onward : ∀ checkpointId createdAt key now, signingKey sealer.keyring sealer.currentKeyVersion = .ok key →
      LedgerRely i store now →
        Kept rt signing i good
          (next (sealedRow rt sealer previous boundary events leaves checkpointId createdAt key)) now) :
    Kept rt signing i good (newCheckpoint rt sealer previous boundary events leaves >>= next) store := by
  rw [new_checkpoint_draws]
  refine kept_read rt signing i good .uuidFactory trivial _ store fun checkpointId now _ _ _ _ first => ?_
  refine kept_read rt signing i good .clock trivial _ now fun createdAt later _ _ _ _ second => ?_
  have others := ledger_rely_trans i store now later first second
  cases found : signingKey sealer.keyring sealer.currentKeyVersion with
  | ok key => exact onward checkpointId createdAt key later found others
  | error error => exact kept_error rt signing i good error later

theorem kept_seal_once (i : ι) (sealer : CheckpointSealer) (store : Store ι)
    (keys : ∀ key, sealer.keyring.lookup (text sealer.currentKeyVersion) = some key →
      signing (text sealer.currentKeyVersion) key) (idle : Idle i store) :
    Kept rt signing i (fun _ _ => True) (sealOnce rt sealer) store := by
  have done : ∀ (result : SealResult) (now : Store ι), Kept rt signing i (fun _ _ => True)
      (return result) now :=
    fun result now => kept_return rt signing i _ result now fun _ _ _ => trivial
  refine kept_transaction rt signing i _ (lasting_true rt signing i) _ store ?_
  refine kept_ask rt signing i _ .tryLockExclusive _ store fun read sound others =>
    ⟨trivial, fun acquired locked before left answer => ?_⟩
  have sounder := (respond_keeps rt signing i .tryLockExclusive read before acquired locked left sound
      trivial answer).1
  cases acquired with
  | false => exact done .busy locked
  | true =>
      have readIdle := idle_stable i store read others idle
      have sealing : Sealing i locked locked := by
        rw [respond] at answer
        split at answer
        · cases answer
        · cases answer
          refine ⟨?_, ?_, ?_, ?_, rfl, rfl⟩
          · rw [update_same]
          · rw [update_same, readIdle]
            rfl
          · rw [update_same, readIdle]
            rfl
          · rw [update_same, readIdle]
            rfl
      -- From here on every read sees the rows of `locked`.
      clear answer sound others
      refine kept_ask rt signing i _ .selectLatest _ locked fun first soundFirst around =>
        ⟨trivial, fun previous after before left answer => ?_⟩
      have sealingFirst := sealing_stable i locked locked first around sealing
      cases answer
      refine kept_ask rt signing i _ (.selectAfter _ sealer.batchSize) _ first fun second
          soundSecond around =>
        ⟨trivial, fun batch after before left answer => ?_⟩
      have sealingSecond := sealing_stable i locked first second around sealingFirst
      cases answer
      split
      · exact done .idle second
      · rename_i newest ends
        refine kept_ask rt signing i _ (.selectUpTo newest.sequence) _ second fun third soundThird around =>
          ⟨trivial, fun events after before left answer => ?_⟩
        have sealingThird := sealing_stable i locked second third around sealingSecond
        cases answer
        refine kept_lift rt signing i _ _ _ third fun leaves checked => ?_
        obtain ⟨count, recomputed⟩ := check_prefix_passed rt sealer.keyring _ _ _ leaves checked
        refine kept_new_checkpoint rt signing i _ sealer _ _ _ leaves _ third fun checkpointId createdAt
          key fourth found around => ?_
        have sealingFourth := sealing_stable i locked third fourth around sealingThird
        refine kept_ask rt signing i _ (.insertCheckpoint _) _ fourth fun last soundLast around =>
          ⟨?_, fun inserted after before left answer => ?_⟩
        · have sealingLast := sealing_stable i locked fourth last around sealingFourth
          obtain ⟨exclusive, noRows, noValue, undrafted, sameEvents, sameCheckpoints⟩ := sealingLast
          refine ⟨exclusive, noRows, noValue, undrafted, ?_⟩
          rw [(sealing_visible i locked first sealingFirst).2,
            (sealing_visible i locked second sealingSecond).1] at ends
          rw [(sealing_visible i locked first sealingFirst).2,
            (sealing_visible i locked second sealingSecond).1,
            (sealing_visible i locked third sealingThird).1] at count
          rw [(sealing_visible i locked third sealingThird).1] at recomputed
          rw [sameEvents, sameCheckpoints, (sealing_visible i locked first sealingFirst).2,
            (sealing_visible i locked third sealingThird).1,
            ← (chained_latest rt signing locked.events none locked.checkpoints sounder.chain).1]
          have inBatch := List.mem_of_getLast? ends
          have inTable := List.mem_filter.mp (List.mem_of_mem_take inBatch)
          have nonempty : 0 <
              ((locked.events.after (boundaryOf (latest locked.checkpoints))).take sealer.batchSize).length :=
            List.length_pos_of_mem inBatch
          have ahead : boundaryOf (latest locked.checkpoints) < newest.sequence := by simpa using inTable.2
          refine ⟨rfl, rfl, ?_, ahead, ⟨newest, inTable.1, rfl⟩, rfl, ?_, ⟨key, ?_, rfl⟩⟩
          · show leafCountOf (latest locked.checkpoints) < (locked.events.upTo newest.sequence).length
            omega
          · show rootOver rt locked.events newest.sequence = hex (merkleRoot rt.toHashFunction leaves)
            rw [recomputed]
            rfl
          · exact keys key (signing_key_found sealer.keyring sealer.currentKeyVersion key found)
        · cases inserted with
          | true => exact done _ after
          | false => exact kept_error rt signing i _ .integrityError after

end

end CalibrationLedger
