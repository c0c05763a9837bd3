import CalibrationLedger.Audit.Acknowledgements

set_option autoImplicit false

-- create_package, however many ask for a package under the same key at once.
namespace CalibrationLedger

open JsonText Digest Interleaving Histories

def AuditStatement.inserts : AuditStatement → Bool
  | .sql (.insertPackage _) => true
  | _ => false

-- What the row of a call's key has to agree with.
structure Asked (instrumentId idempotencyKey : String) (checkpointId : Option Uuid)
    (package : AuditPackage) : Prop where
  instrument : package.instrumentId = instrumentId
  key : package.idempotencyKey = idempotencyKey
  boundary : checkpointId = none ∨ checkpointId = some package.checkpointId

theorem asked_same (instrumentId idempotencyKey : String) (checkpointId : Option Uuid)
    (package other : AuditPackage) (same : other.identity = package.identity)
    (asked : Asked instrumentId idempotencyKey checkpointId package) :
    Asked instrumentId idempotencyKey checkpointId other := by
  simp only [AuditPackage.identity, Prod.mk.injEq] at same
  obtain ⟨_, _, key, _, instrument, boundary, _⟩ := same
  exact ⟨instrument.trans asked.instrument, key.trans asked.key, by rw [boundary]; exact asked.boundary⟩

theorem replay_asked (existing package : AuditPackage) (instrumentId : String) (checkpointId : Option Uuid)
    (replayed : replayPackage existing instrumentId checkpointId = .ok package) :
    package = existing ∧ Asked instrumentId existing.idempotencyKey checkpointId existing := by
  unfold replayPackage at replayed
  split at replayed
  · rename_i agrees
    exact ⟨(Except.ok.inj replayed).symm, agrees.1, rfl, agrees.2⟩
  · cases replayed

theorem draft_asked (rt : Runtime) (packageId : Uuid) (instrumentId idempotencyKey : String)
    (checkpointId : Option Uuid) (checkpoint : Checkpoint) (now : Instant) (draft : AuditPackage)
    (id : Nat) (boundary : checkpointId = none ∨ checkpointId = some checkpoint.checkpointId)
    (made : newPackage rt packageId idempotencyKey instrumentId checkpoint now = .ok draft) :
    Asked instrumentId idempotencyKey checkpointId { draft with id } := by
  obtain ⟨requestFingerprint, _, made⟩ := (bind_ok _ _ _).mp made
  cases made
  exact ⟨rfl, rfl, boundary⟩

section

variable {κ : Type} [DecidableEq κ] {i : κ}

-- What the call returned, and what it did for it.
def Provided (i : κ) (instrumentId idempotencyKey : String) (checkpointId : Option Uuid)
    (package : AuditPackage) (created : Bool) (store : AuditStore κ) : Prop :=
  Asked instrumentId idempotencyKey checkpointId package ∧
    match created with
    | true => entriesOf store.journal i = [⟨i, .create, package.id, none, some package⟩]
    | false => entriesOf store.journal i = [] ∧ ∃ row, store.packages package.id = some row ∧
        Evolves package row

theorem lasts_provided (instrumentId idempotencyKey : String) (checkpointId : Option Uuid)
    (package : AuditPackage) (created : Bool) :
    Lasts (freeDiscipline κ) i (Provided i instrumentId idempotencyKey checkpointId package created) := by
  rintro store now _ beside ⟨asked, did⟩
  refine ⟨asked, ?_⟩
  cases created with
  | true => exact beside.journal.trans did
  | false =>
      obtain ⟨idle, row, found, evolves⟩ := did
      obtain ⟨later, at_id, onward⟩ := beside.rows _ row found
      exact ⟨beside.journal.trans idle, later, at_id, evolves_trans _ _ _ evolves onward⟩

variable (instrumentId idempotencyKey : String) (checkpointId : Option Uuid)

abbrev LearnsProvided (i : κ) (body : AuditTx (AuditPackage × Bool)) (store : AuditStore κ) : Prop :=
  Learns (freeDiscipline κ) i
    (fun pair : AuditPackage × Bool => Provided i instrumentId idempotencyKey checkpointId pair.1 pair.2)
    (fun _ now => entriesOf now.journal i = []) body store

theorem learns_lookup (next : Option AuditPackage → AuditTx (AuditPackage × Bool))
    (store : AuditStore κ) (idle : entriesOf store.journal i = [])
    (present : ∀ existing,
      next (some existing) = do return (← raising (replayPackage existing instrumentId checkpointId), false))
    (absent : ∀ now, entriesOf now.journal i = [] →
      LearnsProvided instrumentId idempotencyKey checkpointId i (next none) now) :
    LearnsProvided instrumentId idempotencyKey checkpointId i
        (query (.selectByKey idempotencyKey) >>= next) store := by
  refine learns_bind _ _ _ _ (fun found (now : AuditStore κ) => entriesOf now.journal i = [] ∧
    ∀ existing, found = some existing →
    existing.idempotencyKey = idempotencyKey ∧ ∃ row, now.packages existing.id = some row ∧
    Evolves existing row) _ (fun _ => lasts_idle)
    _ _ ?_ fun found now _ held => ?_
  · refine learns_query _ store _ _ (fun found => ?_) (fun _ => lasts_idle) fun now inv beside => ?_
    · rintro early late inv beside ⟨none, held⟩
      refine ⟨beside.journal.trans none, fun existing is => ?_⟩
      obtain ⟨keyed, row, at_id, evolves⟩ := held existing is
      obtain ⟨later, stands, onward⟩ := beside.rows _ row at_id
      exact ⟨keyed, later, stands, evolves_trans _ _ _ evolves onward⟩
    · have still := beside.journal.trans idle
      refine ⟨still, fun choice =>
        ⟨still, fun existing is => ⟨by simpa using List.find?_some is, existing, ?_, evolves_refl existing⟩⟩⟩
      exact (mem_rows now inv.life.filed existing).mp (List.mem_of_find?_eq_some is)
  · obtain ⟨none, held⟩ := held
    cases found with
    | none => exact absent now none
    | some existing =>
        obtain ⟨keyed, row, at_id, evolves⟩ := held existing rfl
        rw [present]
        cases replayed : replayPackage existing instrumentId checkpointId with
        | error error => exact learns_throw _ _ _ _ _ _ lasts_idle none
        | ok package =>
            obtain ⟨rfl, asked⟩ := replay_asked existing package instrumentId checkpointId replayed
            refine learns_pure _ _ _ _ _ (package, false) (lasts_provided _ _ _ package false) ?_
            exact ⟨by rw [← keyed]; exact asked, none, row, at_id, evolves⟩

theorem learns_boundary (store : AuditStore κ) (idle : entriesOf store.journal i = []) :
    Learns (freeDiscipline κ) i (fun checkpoint now => entriesOf now.journal i = [] ∧
      (checkpointId = none ∨ checkpointId = some checkpoint.checkpointId))
        (fun _ now => entriesOf now.journal i = [])
      (resolveBoundary checkpointId) store := by
  have lasts : ∀ value : Prop, Lasts (freeDiscipline κ) i (fun now => entriesOf now.journal i = [] ∧ value) :=
    fun value => lasts_and _ i _ (fun _ => value) lasts_idle fun _ _ _ _ => id
  cases checkpointId with
  | none =>
      refine learns_bind _ _ _ _ _ _ (fun _ => lasts_idle) _ _
        (learns_of_upholds _ _ _ _ _ _ (keeps_read _ lasts_idle .latestCheckpoint rfl store idle))
          fun found now _ idle => ?_
      cases found with
      | none => exact learns_throw _ _ _ _ _ _ lasts_idle idle
      | some checkpoint => exact learns_pure _ _ _ _ _ checkpoint (lasts _) ⟨idle, .inl rfl⟩
  | some checkpointId =>
      refine learns_bind _ _ _ _ (fun found (now : AuditStore κ) => entriesOf now.journal i = [] ∧
        ∀ checkpoint, found = some checkpoint → checkpoint.checkpointId = checkpointId) _ (fun _ =>
          lasts_idle) _ _
        (learns_query _ store (.getCheckpoint checkpointId) _ (fun _ => lasts _)
          (fun _ => lasts_idle) fun now inv beside => ?_)
        fun found now _ held => ?_
      · have still := beside.journal.trans idle
        exact ⟨still, fun choice =>
          ⟨still, fun checkpoint found => (found_boundary_read checkpointId now checkpoint found).1⟩⟩
      · obtain ⟨idle, named⟩ := held
        cases found with
        | none => exact learns_throw _ _ _ _ _ _ lasts_idle idle
        | some checkpoint =>
            exact learns_pure _ _ _ _ _ checkpoint (lasts _) ⟨idle, .inr (by rw [named checkpoint rfl])⟩

-- The insert creates the row the call returns, or nothing.
def Inserted (i : κ) (instrumentId idempotencyKey : String) (checkpointId : Option Uuid) :
    Except Rejection AuditPackage → AuditStore κ → Prop
  | .ok package, store => Provided i instrumentId idempotencyKey checkpointId package true store
  | .error _, store => entriesOf store.journal i = []

theorem insert_inserted (store : AuditStore κ) (idle : entriesOf store.journal i = [])
    (draft : AuditPackage) (choice : Choice)
    (asked : ∀ id, Asked instrumentId idempotencyKey checkpointId { draft with id }) :
    Inserted i instrumentId idempotencyKey checkpointId (store.answer i choice (.insertPackage draft)).1
      (store.answer i choice (.insertPackage draft)).2 := by
  unfold AuditStore.answer AuditStore.insertPackage
  dsimp only
  split_ifs
  · exact idle
  · exact idle
  · exact idle
  · refine ⟨asked _, ?_⟩
    show entriesOf (store.journal ++ [_]) i = _
    rw [entries_snoc, idle, if_pos rfl, List.nil_append]

theorem learns_create (rt : Runtime) (store : AuditStore κ) (idle : entriesOf store.journal i = []) :
    LearnsProvided instrumentId idempotencyKey checkpointId i
      (createPackage rt instrumentId idempotencyKey checkpointId) store := by
  refine learns_lookup instrumentId idempotencyKey checkpointId _ store idle
    (fun _ => rfl) fun store idle => ?_
  refine learns_bind _ _ _ _ _ _ (fun _ => lasts_idle) _ _ (learns_boundary checkpointId store idle)
    fun checkpoint store _ held => ?_
  obtain ⟨idle, boundary⟩ := held
  refine learns_bind _ _ _ _ _ _ (fun _ => lasts_idle) _ _ (learns_of_upholds _ _ _ _ _ _
    (keeps_read _ lasts_idle (.countEvents instrumentId checkpoint.lastEventSequence) rfl store idle))
      fun count store _ idle => ?_
  split
  · exact learns_throw _ _ _ _ _ _ lasts_idle idle
  · refine learns_bind _ _ _ _ _ _ (fun _ => lasts_idle) _ _
      (learns_of_upholds _ _ _ _ _ _ (keeps_clock _ lasts_idle none store idle)) fun moment store _ idle => ?_
    refine learns_bind _ _ _ _ _ _ (fun _ => lasts_idle) _ _
      (learns_of_upholds _ _ _ _ _ _ (keeps_uuid _ lasts_idle store idle)) fun packageId store _ idle => ?_
    cases made : newPackage rt packageId idempotencyKey instrumentId checkpoint moment with
    | error error => exact learns_throw _ _ _ _ _ _ lasts_idle idle
    | ok draft =>
        have asked := fun id =>
          draft_asked rt packageId instrumentId idempotencyKey checkpointId checkpoint moment draft id
            boundary made
        change Learns _ i _ _ (query (.insertPackage draft) >>= _) store
        refine learns_bind _ _ _ _ (Inserted i instrumentId idempotencyKey checkpointId) _ (fun _ =>
            lasts_idle) _ _
          (learns_query _ store _ _ (fun reply => ?_) (fun _ => lasts_idle) fun now inv beside => ?_)
            fun reply now _ held => ?_
        · cases reply with
          | ok package => exact lasts_provided _ _ _ package true
          | error rejection => exact lasts_idle
        · have still := beside.journal.trans idle
          exact ⟨still, fun choice =>
            insert_inserted instrumentId idempotencyKey checkpointId now still draft choice asked⟩
        · cases reply with
          | ok package => exact learns_pure _ _ _ _ _ (package, true) (lasts_provided _ _ _ package true) held
          | error rejection =>
              exact learns_lookup instrumentId idempotencyKey checkpointId _ now held
                  (fun _ => rfl) fun later idle =>
                learns_throw _ _ _ _ _ _ lasts_idle idle

end

def replied : Py AuditPackage → Except AuditError AuditOutcome
  | .ok package => .ok (.package package false)
  | .error error => .error (.raised error)

-- A row read under the key, and an insert that succeeds, end the call.
def EndsOnItsRow (instrumentId idempotencyKey : String) (checkpointId : Option Uuid) :
    (query : AuditStatement) →
    (AuditResponse query → Program AuditSql (Except AuditError AuditOutcome)) → Prop
  | .sql (.selectByKey key), resume => key = idempotencyKey ∧
      ∀ existing, resume (some (some existing)) =
        .done (replied (replayPackage existing instrumentId checkpointId))
  | .sql (.insertPackage _), resume =>
      ∀ package, resume (some (.ok package)) = .done (.ok (.package package true))
  | _, _ => True

section

variable (env : Exporting) (instrumentId idempotencyKey : String) (checkpointId : Option Uuid)

theorem replay_replied (existing : AuditPackage) : (do
    let pair ← (do return (← raising (replayPackage existing instrumentId checkpointId), false) :
        AuditTx (AuditPackage × Bool))
    return AuditOutcome.package pair.1 pair.2 : AuditTx AuditOutcome).run =
        .done (replied (replayPackage existing instrumentId checkpointId)) := by
  cases replayPackage existing instrumentId checkpointId <;> rfl

theorem create_ends_on_its_row : Everywhere (EndsOnItsRow instrumentId idempotencyKey checkpointId)
    ((AuditCall.create instrumentId idempotencyKey checkpointId).program env).run := by
  have replays := replay_replied instrumentId checkpointId
  have ended : ∀ existing, Everywhere (EndsOnItsRow instrumentId idempotencyKey checkpointId) (do
      let pair ← (do return (← raising (replayPackage existing instrumentId checkpointId), false) :
          AuditTx (AuditPackage × Bool))
      return AuditOutcome.package pair.1 pair.2 : AuditTx AuditOutcome).run := by
    intro existing
    rw [replays existing]
    trivial
  refine ⟨⟨rfl, replays⟩, fun found => ?_⟩
  rcases found with _ | _ | existing
  · trivial
  · cases checkpointId
    all_goals
      refine ⟨trivial, fun found => ?_⟩
      rcases found with _ | _ | checkpoint
      · trivial
      · trivial
      refine ⟨trivial, fun count => ?_⟩
      rcases count with _ | _ | count
      · trivial
      · trivial
      refine ⟨trivial, fun moment => ⟨trivial, fun packageId => ?_⟩⟩
      change Everywhere _ (Program.bind (Program.bind
        (raising (newPackage env.toRuntime packageId idempotencyKey instrumentId checkpoint moment)) _) _)
      generalize newPackage env.toRuntime packageId idempotencyKey instrumentId checkpoint moment = made
      cases made with
      | error error => trivial
      | ok draft =>
          refine ⟨fun package => rfl, fun reply => ?_⟩
          rcases reply with _ | rejection | package
          · trivial
          · refine ⟨⟨rfl, replays⟩, fun found => ?_⟩
            rcases found with _ | _ | existing
            · trivial
            · trivial
            · exact ended existing
          · trivial
  · exact ended existing

end

-- A statement that neither creates a package nor ends a build.
def AuditStatement.plain : AuditStatement → Bool
  | .sql (.insertPackage _) => false
  | .sql (.finalWrite _ _) => false
  | .sql (.finishCancelled _) => false
  | .sql (.failOrCancel _ _ _) => false
  | _ => true

theorem acknowledges_plain (statement : AuditStatement) (acknowledges : statement.Acknowledges) :
    statement.plain = true := by
  cases statement with
  | sql request => cases request <;> first | rfl | cases acknowledges
  | _ => rfl

theorem issues_only_attempt {α : Type} (allowed : AuditStatement → Prop) (body : AuditTx α)
    (stays : IssuesOnly (S := AuditSql) allowed body) :
    IssuesOnly (S := AuditSql) allowed (attempt body) := by
  unfold IssuesOnly attempt
  exact confined_bind (S := AuditSql) allowed _ _ stays fun _ => trivial

-- What goes through wherever such statements are allowed.
section

variable (allowed : AuditStatement → Prop)
  (plain : ∀ statement : AuditStatement, statement.plain = true → allowed statement)

include plain

theorem issues_only_plain (request : AuditQuery) (kind : (AuditStatement.sql request).plain = true) :
    IssuesOnly (S := AuditSql) allowed (query request) := issues_only_query _ request (plain _ kind)

theorem issues_only_clock (now : Option Instant) : IssuesOnly (S := AuditSql) allowed (orClock now) := by
  cases now with
  | some moment => trivial
  | none => exact issues_only_issue _ .clock (plain _ rfl)

theorem issues_only_claim (postgresql : Bool) (workerId : String) (leaseDuration : Int)
    (now : Option Instant) :
    IssuesOnly (S := AuditSql) allowed (claimPackage postgresql workerId leaseDuration now) := by
  refine issues_only_bind _ _ _ (issues_only_clock allowed plain now) fun moment => ?_
  cases postgresql with
  | true =>
      refine issues_only_bind _ _ _ (issues_only_plain allowed plain
          (.claimSkipLocked workerId moment leaseDuration) rfl) fun reply => ?_
      exact issues_only_bind _ _ _ (issues_only_committed _ reply) fun claimed =>
        issues_only_raising _ claimed
  | false =>
      refine issues_only_bind _ _ _ (issues_only_plain allowed plain (.selectEligible moment) rfl)
        fun found => ?_
      cases found with
      | none => trivial
      | some id =>
          refine issues_only_bind _ _ _ (issues_only_raising _ (moment.plus leaseDuration)) fun expires => ?_
          refine issues_only_bind _ _ _ (issues_only_plain allowed plain
              (.claimById id workerId moment expires) rfl) fun reply => ?_
          exact issues_only_bind _ _ _ (issues_only_committed _ reply) fun claimed =>
            issues_only_raising _ claimed

theorem issues_only_settle_each (moment : Instant) (ids : List Nat) :
    IssuesOnly (S := AuditSql) allowed (settleEach moment ids) := by
  induction ids with
  | nil => trivial
  | cons id rest ih =>
      refine issues_only_bind _ _ _ (issues_only_plain allowed plain (.settleById id moment) rfl)
        fun reply => ?_
      exact issues_only_bind _ _ _ (issues_only_committed _ reply) fun settled =>
        issues_only_bind _ _ _ ih fun more => trivial

theorem issues_only_settle (postgresql : Bool) (now : Option Instant) :
    IssuesOnly (S := AuditSql) allowed (settleStaleCancelling postgresql now) := by
  refine issues_only_bind _ _ _ (issues_only_clock allowed plain now) fun moment => ?_
  cases postgresql with
  | true =>
      exact issues_only_bind _ _ _ (issues_only_plain allowed plain (.settleSkipLocked moment) rfl)
        fun reply => issues_only_committed _ reply
  | false =>
      exact issues_only_bind _ _ _ (issues_only_plain allowed plain (.selectStale moment) rfl) fun ids =>
        issues_only_settle_each allowed plain moment ids

theorem issues_only_log_settled (packages : List AuditPackage) :
    IssuesOnly (S := AuditSql) allowed (logSettled packages) := by
  induction packages with
  | nil => trivial
  | cons package rest ih => exact issues_only_bind _ _ _ (issues_only_issue _ _ (plain _ rfl)) fun _ => ih

theorem issues_only_check (claimed : AuditPackage) :
    IssuesOnly (S := AuditSql) allowed (checkBuildCancelled claimed) := by
  refine issues_only_bind _ _ _ (issues_only_plain allowed plain (.selectStatus claimed.id) rfl)
    fun status => ?_
  split <;> trivial

theorem issues_only_archive (env : Exporting) (claimed : AuditPackage) (keyring : Keyring) :
    IssuesOnly (S := AuditSql) allowed (readArchive env claimed keyring) := by
  have check := issues_only_check allowed plain claimed
  have read := issues_only_plain allowed plain .readLedger rfl
  refine issues_only_bind _ _ _ ?_ fun bundle => issues_only_bind _ _ _ check fun _ => issues_only_raising _ _
  refine issues_only_bind _ _ _ read fun ledger => ?_
  dsimp only
  split
  · exact issues_only_raising _ _
  · refine issues_only_bind _ _ _ check fun _ => issues_only_bind _ _ _ read fun ledger => ?_
    split
    · exact issues_only_raising _ _
    · refine issues_only_bind _ _ _ check fun _ => issues_only_bind _ _ _ ?_ fun entries => ?_
      · refine issues_only_map _ _ _ fun event => ?_
        exact issues_only_bind _ _ _ read fun ledger =>
          issues_only_bind _ _ _ (issues_only_raising _ _) fun receipt =>
          issues_only_bind _ _ _ check fun _ => trivial
      · generalize checkpointView env.toRuntime _ = made
        cases made <;> trivial

theorem issues_only_register (consumerName idempotencyKey : String) :
    IssuesOnly (S := AuditSql) allowed (registerConsumer consumerName idempotencyKey) := by
  have replay : ∀ existing, IssuesOnly (S := AuditSql) allowed
      (do return (← raising (replayConsumer existing consumerName), false) : AuditTx
        (AuditConsumer × Bool)) :=
    fun existing => issues_only_bind _ _ _ (issues_only_raising _ _) fun _ => trivial
  refine issues_only_bind _ _ _ (issues_only_plain allowed plain
      (.selectConsumerByKey idempotencyKey) rfl) fun found => ?_
  cases found with
  | some existing => exact replay existing
  | none =>
      refine issues_only_bind _ _ _ (issues_only_issue _ .clock (plain _ rfl)) fun now => ?_
      refine issues_only_bind _ _ _ (issues_only_issue _ .uuidFactory (plain _ rfl)) fun consumerId => ?_
      refine issues_only_bind _ _ _ (issues_only_plain allowed plain (.insertConsumer _) rfl) fun reply => ?_
      cases reply with
      | ok consumer => trivial
      | error rejection =>
          refine issues_only_bind _ _ _ (issues_only_plain allowed plain
              (.selectConsumerByKey idempotencyKey) rfl) fun found => ?_
          cases found with
          | some existing => exact replay existing
          | none => trivial

theorem issues_only_acknowledging (consumerId checkpointId : Uuid) :
    IssuesOnly (S := AuditSql) allowed (acknowledgeCheckpoint consumerId checkpointId) :=
  confined_mono (S := AuditSql) AuditStatement.Acknowledges allowed _
    (fun statement acknowledges => plain statement (acknowledges_plain statement acknowledges))
    (issues_only_acknowledge consumerId checkpointId)

end

-- No other call creates a package.
section

def Uncreating (statement : AuditStatement) : Prop := statement.inserts = false

theorem plain_uncreating (statement : AuditStatement) (plain : statement.plain = true) :
    Uncreating statement := by
  cases statement with
  | sql request => cases request <;> first | rfl | cases plain
  | _ => rfl

theorem issues_only_build (env : Exporting) (claimed : AuditPackage) (keyring : Keyring) :
    IssuesOnly (S := AuditSql) Uncreating (buildOnce env claimed keyring) := by
  have ending : ∀ request : AuditQuery, (AuditStatement.sql request).inserts = false →
    ∀ reply : Reply request → AuditTx BuildResult,
      (∀ found, IssuesOnly (S := AuditSql) Uncreating (reply found)) →
      IssuesOnly (S := AuditSql) Uncreating (query request >>= reply) :=
    fun request kind reply each => issues_only_bind _ _ _ (issues_only_query _ request kind) each
  refine issues_only_bind
    _ _ _ (issues_only_attempt _ _ (issues_only_archive Uncreating plain_uncreating env claimed
      keyring)) fun outcome => ?_
  rcases outcome with (_ | _ | error) | archive
  · trivial
  · exact ending (.finishCancelled claimed) rfl _ fun reply => issues_only_committed _ reply
  · cases error with
    | integrityError => trivial
    | ledger error =>
        exact ending (.failOrCancel claimed _ _) rfl _ fun reply => issues_only_committed _ reply
    | _ => exact ending (.failOrCancel claimed _ _) rfl _ fun reply => issues_only_committed _ reply
  · exact ending (.finalWrite claimed archive) rfl _ fun reply => issues_only_committed _ reply

theorem issues_only_run (env : Exporting) (exporter : Exporter) (polls : Nat) :
    IssuesOnly (S := AuditSql) Uncreating (runExporter env exporter polls) := by
  have poll : IssuesOnly (S := AuditSql) Uncreating (exporterPoll env exporter) := by
    refine issues_only_bind _ _ _ (issues_only_settle Uncreating plain_uncreating _ _) fun settled => ?_
    refine issues_only_bind _ _ _ (issues_only_log_settled Uncreating plain_uncreating settled) fun _ => ?_
    refine issues_only_bind _ _ _ (issues_only_claim Uncreating plain_uncreating _ _ _ _) fun claimed => ?_
    cases claimed with
    | none => trivial
    | some claimed =>
        exact issues_only_bind _ _ _ (issues_only_build env claimed _) fun result => issues_only_issue _ _ rfl
  induction polls with
  | zero => trivial
  | succ polls ih =>
      refine issues_only_bind _ _ _ (issues_only_attempt _ _ poll) fun outcome => ?_
      rcases outcome with (_ | _ | error) | _
      · exact issues_only_bind _ _ _ (issues_only_issue _ _ rfl) fun _ => ih
      · trivial
      · cases error with
        | integrityError => exact issues_only_bind _ _ _ (issues_only_issue _ _ rfl) fun _ => ih
        | _ => trivial
      · exact ih

def AuditCall.creates : AuditCall → Bool
  | .create _ _ _ => true
  | _ => false

-- Only a create call inserts, and it has its answer when the insert succeeds.
def Inserting (call : AuditCall) :
    (query : AuditStatement) →
    (AuditResponse query → Program AuditSql (Except AuditError AuditOutcome)) → Prop
  | .sql (.insertPackage _), resume => call.creates = true ∧
      ∀ package, resume (some (.ok package)) = .done (.ok (.package package true))
  | _, _ => True

theorem ends_on_its_row_inserting (instrumentId idempotencyKey : String) (checkpointId : Option Uuid)
    (query : AuditStatement)
    (resume : AuditResponse query → Program AuditSql (Except AuditError AuditOutcome))
    (heeds : EndsOnItsRow instrumentId idempotencyKey checkpointId query resume) :
    Inserting (.create instrumentId idempotencyKey checkpointId) query resume := by
  unfold Inserting
  split
  · exact ⟨rfl, heeds⟩
  · trivial

theorem issues_only_inserting (call : AuditCall) (body : AuditTx AuditOutcome)
    (stays : IssuesOnly (S := AuditSql) Uncreating body) :
    Everywhere (Inserting call) body.run := by
  refine everywhere_mono _ _ _ (fun query resume uncreating => ?_) ((confined_everywhere _ _).mp stays)
  unfold Inserting
  split
  · cases uncreating
  · trivial

theorem call_inserts (env : Exporting) (call : AuditCall) :
    Everywhere (Inserting call) (call.program env).run := by
  cases call with
  | create instrumentId idempotencyKey checkpointId =>
      exact everywhere_mono _ _ _ (ends_on_its_row_inserting instrumentId idempotencyKey checkpointId)
        (create_ends_on_its_row env instrumentId idempotencyKey checkpointId)
  | claim postgresql workerId leaseDuration now =>
      exact issues_only_inserting
        _ _ (issues_only_bind _ _ _ (issues_only_claim Uncreating plain_uncreating postgresql workerId
          leaseDuration now)
        fun _ => trivial)
  | settle postgresql now =>
      exact issues_only_inserting
        _ _ (issues_only_bind _ _ _ (issues_only_settle Uncreating plain_uncreating postgresql now)
          fun _ => trivial)
  | build claimed keyring =>
      exact issues_only_inserting _ _ (issues_only_bind _ _ _ (issues_only_build env claimed keyring)
          fun _ => trivial)
  | retry packageId =>
      refine issues_only_inserting _ _ (issues_only_bind _ _ _ ?_ fun _ => trivial)
      exact issues_only_bind _ _ _ (issues_only_query _ (.requestRetry packageId) rfl) fun reply =>
        issues_only_bind _ _ _ (issues_only_committed _ reply) fun package => issues_only_raising _ package
  | cancel packageId =>
      refine issues_only_inserting _ _ (issues_only_bind _ _ _ ?_ fun _ => trivial)
      exact issues_only_bind _ _ _ (issues_only_query _ (.cancelPackage packageId) rfl) fun reply =>
        issues_only_bind _ _ _ (issues_only_committed _ reply) fun package => issues_only_raising _ package
  | run exporter polls =>
      exact issues_only_inserting _ _ (issues_only_bind _ _ _ (issues_only_run env exporter polls)
          fun _ => trivial)
  | register consumerName idempotencyKey =>
      exact issues_only_inserting
        _ _ (issues_only_bind _ _ _ (issues_only_register Uncreating plain_uncreating consumerName
          idempotencyKey)
        fun _ => trivial)
  | acknowledge consumerId checkpointId =>
      exact issues_only_inserting
        _ _ (issues_only_bind _ _ _ (issues_only_acknowledging Uncreating plain_uncreating consumerId
          checkpointId)
        fun _ => trivial)

end

section

variable {κ : Type}

theorem transact_journal {α : Type} (store : AuditStore κ) (caller : κ) (action : α → Action) (id : Nat)
    (decision : Decision α) (entry : Entry κ)
    (added : entry ∈ (store.transact caller action id decision).2.journal) :
    entry ∈ store.journal ∨ entry.action = action decision.reply := by
  have appended : ∀ newest : Entry κ, entry ∈ store.journal ++ [newest] →
    newest.action = action decision.reply →
      entry ∈ store.journal ∨ entry.action = action decision.reply := by
    intro newest inside is
    rcases List.mem_append.mp inside with old | new
    · exact .inl old
    · rw [List.mem_singleton.mp new]
      exact .inr is
  rw [AuditStore.transact] at added
  split at added
  · exact appended _ added rfl
  · split at added
    · exact .inl added
    · split at added
      · exact appended _ added rfl
      · split at added
        · exact .inl added
        · exact appended _ added rfl

theorem settled_journal (caller : κ) (moment : Instant) (rows : List AuditPackage)
    (store : AuditStore κ) (entry : Entry κ)
    (added : entry ∈ (rows.foldl (AuditStore.settleRow caller moment) store).journal) :
    entry ∈ store.journal ∨ entry.action = .settle moment := by
  induction rows generalizing store with
  | nil => exact .inl added
  | cons row rest ih =>
      rcases ih (store.settleRow caller moment row) added with before | settles
      · rcases List.mem_append.mp before with old | new
        · exact .inl old
        · rw [List.mem_singleton.mp new]
          exact .inr rfl
      · exact .inr settles

theorem claim_journal (store : AuditStore κ) (caller : κ) (workerId : String) (moment : Instant)
    (expires : Py Instant) (found : Option AuditPackage) (entry : Entry κ) (is : entry.action = .create)
    (added : entry ∈ (store.claim caller workerId moment expires found).2.journal) :
    entry ∈ store.journal := by
  unfold AuditStore.claim at added
  split at added
  · exact added
  · split at added
    · exact added
    · rcases transact_journal store caller _ _ _ entry added with old | claims
      · exact old
      · rw [is] at claims
        cases claims

-- Only the insert of a package adds a row to the table.
theorem created_by_insert (store : AuditStore κ) (caller : κ) (choice : Choice) (request : AuditQuery)
    (bare : (AuditStatement.sql request).inserts = false) (entry : Entry κ) (is : entry.action = .create)
    (added : entry ∈ (store.answer caller choice request).2.journal) : entry ∈ store.journal := by
  have other : ∀ action : Action, entry ∈ store.journal ∨ entry.action = action → action ≠ .create →
      entry ∈ store.journal := by
    rintro action (inside | same) differs
    · exact inside
    · exact absurd (same.symm.trans is) differs
  cases request with
  | insertPackage draft => cases bare
  | claimSkipLocked workerId moment leaseDuration =>
      exact claim_journal store caller workerId moment _ _ entry is added
  | claimById id workerId moment expires =>
      exact claim_journal store caller workerId moment _ _ entry is added
  | settleSkipLocked moment =>
      unfold AuditStore.answer AuditStore.settleAll at added
      dsimp only at added
      split at added
      · exact other _ (settled_journal caller moment _ store entry added) nofun
      · exact added
  | settleById id moment =>
      unfold AuditStore.answer at added
      dsimp only at added
      split at added
      · exact added
      · exact other _ (transact_journal store caller _ id _ entry added) nofun
  | finalWrite claimed archive => exact other _ (transact_journal store caller _ _ _ entry added) nofun
  | finishCancelled claimed => exact other _ (transact_journal store caller _ _ _ entry added) nofun
  | failOrCancel claimed code reason => exact other _ (transact_journal store caller _ _ _ entry added) nofun
  | requestRetry packageId =>
      unfold AuditStore.answer at added
      dsimp only at added
      split at added
      · exact added
      · exact other _ (transact_journal store caller _ _ _ entry added) nofun
  | cancelPackage packageId =>
      unfold AuditStore.answer at added
      dsimp only at added
      split at added
      · exact added
      · exact other _ (transact_journal store caller _ _ _ entry added) nofun
  | insertConsumer draft =>
      unfold AuditStore.answer AuditStore.insertConsumer at added
      dsimp only at added
      split at added <;> exact added
  | advanceCursor id predecessor checkpointId now =>
      unfold AuditStore.answer AuditStore.advanceCursor at added
      dsimp only at added
      split at added
      · exact added
      · split_ifs at added <;> exact added
  | _ => exact added

end

theorem create_new {κ : Type} (entry : Entry κ) (lawful : LawfulEntry entry) (is : entry.action = .create) :
    entry.before = none ∧ ∃ row, entry.after = some row ∧ entry.id = row.id := by
  cases lawful with
  | created caller row pending uncounted => exact ⟨rfl, row, rfl, rfl⟩
  | moved caller action id old new moves =>
      cases is
      cases moves
  | declined caller action id found declines =>
      cases is
      cases declines

theorem insert_journal {κ : Type} (store : AuditStore κ) (caller : κ) (choice : Choice)
    (draft : AuditPackage) :
    match (store.answer caller choice (.insertPackage draft)).1 with
    | .ok package => (store.answer caller choice (.insertPackage draft)).2.journal =
        store.journal ++ [⟨caller, .create, package.id, none, some package⟩]
    | .error _ => (store.answer caller choice (.insertPackage draft)).2.journal = store.journal := by
  unfold AuditStore.answer AuditStore.insertPackage
  dsimp only
  split_ifs <;> rfl

section

variable {κ : Type} (journal : List (Entry κ)) (faithful : Throughout Faithful journal)

include faithful

-- A row once written stays, and stays the same package.
theorem entry_stands (entry : Entry κ) (member : entry ∈ journal) (row : AuditPackage)
    (after : entry.after = some row) :
    ∃ now, rowsAfter journal entry.id = some now ∧ now.identity = row.identity := by
  induction journal using List.reverseRecOn with
  | nil => cases member
  | append_singleton earlier newest ih =>
      obtain ⟨before, held, lawful, _⟩ := (throughout_snoc _ _ _).mp faithful
      rw [rows_after_snoc]
      rcases List.mem_append.mp member with old | new
      · obtain ⟨now, found, same⟩ := ih before old
        by_cases own : entry.id = newest.id
        · rw [own] at found ⊢
          rw [Function.update_self]
          have was := held.trans found
          cases lawful with
          | created caller row pending uncounted => cases was
          | moved caller action id was' new moves =>
              cases was
              exact ⟨new, rfl, (moves_evolve action now new moves).same.trans same⟩
          | declined caller action id found' declines => exact ⟨now, was, same⟩
        · rw [Function.update_of_ne own]
          exact ⟨now, found, same⟩
      · rw [List.mem_singleton] at new
        subst new
        exact ⟨row, by rw [Function.update_self]; exact after, rfl⟩

theorem row_created (id : Nat) (row : AuditPackage) (found : rowsAfter journal id = some row) :
    ∃ entry ∈ journal, entry.action = .create ∧ entry.id = id := by
  induction journal using List.reverseRecOn generalizing row with
  | nil => cases found
  | append_singleton earlier newest ih =>
      obtain ⟨before, held, lawful, _⟩ := (throughout_snoc _ _ _).mp faithful
      rw [rows_after_snoc] at found
      have onward : ∀ old, rowsAfter earlier id = some old →
          ∃ entry ∈ earlier ++ [newest], entry.action = .create ∧ entry.id = id := by
        intro old was
        obtain ⟨entry, member, created⟩ := ih before old was
        exact ⟨entry, List.mem_append_left _ member, created⟩
      by_cases own : id = newest.id
      · subst own
        rw [Function.update_self] at found
        cases lawful with
        | created caller row pending uncounted => exact ⟨_, by simp, rfl, rfl⟩
        | moved caller action id old new moves => exact onward old held.symm
        | declined caller action id was declines => exact onward row (held.symm.trans found)
      · rw [Function.update_of_ne own] at found
        exact onward row found

theorem created_once : journal.Pairwise fun a b => a.action = .create → b.action = .create → a.id ≠ b.id := by
  induction journal using List.reverseRecOn with
  | nil => exact List.Pairwise.nil
  | append_singleton earlier newest ih =>
      obtain ⟨before, held, lawful, _⟩ := (throughout_snoc _ _ _).mp faithful
      refine List.pairwise_append.mpr
        ⟨ih before, List.pairwise_singleton _ _, fun a inside b last first second same => ?_⟩
      rw [List.mem_singleton] at last
      subst last
      obtain ⟨_, _, _, _, lawfulToo, _⟩ := throughout_member _ _ before a inside
      obtain ⟨_, row, after, _⟩ := create_new a lawfulToo first
      obtain ⟨now, found, _⟩ := entry_stands earlier before a inside row after
      have absent := (create_new b lawful second).1
      rw [same, ← held, absent] at found
      cases found

end

section

variable {ι κ : Type} [DecidableEq ι] [Fintype ι] [DecidableEq κ] (env : Exporting) (calls : ι → Call)
  (jobs : κ → AuditCall)

theorem deployed_everywhere (i : κ)
    (claim : (query : AuditStatement) →
      (AuditResponse query → Program AuditSql (Except AuditError AuditOutcome)) → Prop)
    (starts : Everywhere (S := AuditSql) claim ((jobs i).program env).run) (now : Deployment ι κ)
    (reached : (deploy env calls jobs).Reaches now) :
    ∀ program, now.audit.sessions i = some program → Everywhere (S := AuditSql) claim program := by
  induction reached with
  | refl =>
      rintro _ ⟨⟩
      exact starts
  | tail _ step ih =>
      cases step with
      | ledger after step => exact ih
      | audit after step => exact everywhere_step (auditing κ) _ _ after step i ih

-- Whose transaction created a row has the row for its answer.
def CreatorsAnswered (audit : Config (auditing κ) (Except AuditError AuditOutcome)) : Prop :=
  ∀ entry ∈ audit.store.journal, entry.action = .create → (jobs entry.caller).creates = true ∧
    ∃ row, entry.id = row.id ∧ finished (auditing κ) audit entry.caller = some (.ok (.package row true))

theorem creators_answered_step (before after : Config (auditing κ) (Except AuditError AuditOutcome))
    (step : Step (auditing κ) before after)
    (inserting : ∀ i program, before.sessions i = some program →
      Everywhere (S := AuditSql) (Inserting (jobs i)) program)
    (answered : CreatorsAnswered jobs before) : CreatorsAnswered jobs after := by
  intro entry added is
  have kept : entry ∈ before.store.journal → (jobs entry.caller).creates = true ∧ ∃ row, entry.id = row.id ∧
      finished (auditing κ) after entry.caller = some (.ok (.package row true)) := by
    intro old
    obtain ⟨creates, row, named, ended⟩ := answered entry old is
    exact ⟨creates, row, named, finished_step (auditing κ) before after step _ _ ended⟩
  obtain ⟨i, exec | crash⟩ := step
  · cases exec with
    | step query resume response store supply rest active answer =>
        cases query with
        | clock =>
            cases answer
            exact kept added
        | uuidFactory =>
            cases answer
            exact kept added
        | log line =>
            cases answer
            exact kept added
        | sql request =>
            change auditRespond i (.sql request) before.store supply = some (response, store, rest) at answer
            unfold auditRespond at answer
            dsimp only at answer
            split at answer
            · cases answer
              exact kept added
            · cases answer
              by_cases bare : (AuditStatement.sql request).inserts = false
              · exact kept (created_by_insert _ i _ request bare entry is added)
              · cases request with
                | insertPackage draft =>
                    obtain ⟨creates, onward⟩ := (inserting i _ active).1
                    have inserted := insert_journal before.store i (supply 0) draft
                    split at inserted
                    · rename_i package made
                      rw [inserted] at added
                      rcases List.mem_append.mp added with old | new
                      · exact kept old
                      · rw [List.mem_singleton.mp new]
                        refine ⟨creates, package, rfl, (finished_done _ _ _ _).mpr ?_⟩
                        rw [made]
                        simp [onward package]
                    · rw [inserted] at added
                      exact kept added
                | _ => exact absurd rfl bare
  · cases crash with
    | step query resume active => exact kept added

theorem deployed_creators_answered (now : Deployment ι κ)
    (reached : (deploy env calls jobs).Reaches now) : CreatorsAnswered jobs now.audit := by
  induction reached with
  | refl => exact fun entry member => nomatch member
  | tail run step ih =>
      cases step with
      | ledger after step => exact ih
      | audit after step =>
          exact creators_answered_step jobs _ after step
            (fun i => deployed_everywhere env calls jobs i (Inserting (jobs i))
              (call_inserts env (jobs i)) _ run) ih

-- What is known when a create call ends.
def CreateConcluded (i : κ) (call : AuditCall) (outcome : Except AuditError AuditOutcome)
    (store : AuditStore κ) : Prop :=
  match call, outcome with
  | .create instrumentId idempotencyKey checkpointId, .ok (.package package created) =>
      Provided i instrumentId idempotencyKey checkpointId package created store
  | .create _ _ _, .ok _ => False
  | .create _ _ _, .error _ => entriesOf store.journal i = []
  | _, _ => True

theorem call_provides (i : κ) (call : AuditCall) (ledger : Ledger)
    (verified : Verified (freeDiscipline κ) i (CallConcluded i call) (call.program env).run
      (AuditStore.empty κ ledger)) :
    Verified (freeDiscipline κ) i (CreateConcluded i call) (call.program env).run
      (AuditStore.empty κ ledger) := by
  cases call with
  | create instrumentId idempotencyKey checkpointId =>
      have learns : Learns (freeDiscipline κ) i
        (fun value => CreateConcluded i (.create instrumentId idempotencyKey checkpointId) (.ok value))
          (fun _ now => entriesOf now.journal i = [])
          ((AuditCall.create instrumentId idempotencyKey checkpointId).program env)
          (AuditStore.empty κ ledger) := by
        refine learns_bind _ _ _ _ _ _ (fun _ => lasts_idle) _ _
          (learns_create instrumentId idempotencyKey checkpointId env.toRuntime _ rfl) fun pair
            now _ provided => ?_
        exact learns_pure _ _ _ _ _ (AuditOutcome.package pair.1 pair.2)
          (lasts_provided _ _ _ pair.1 pair.2) provided
      refine verified_mono _ _ _ _ _ _ (fun outcome now found => ?_)
        (verified_ensures _ _ _ _ _ _ verified learns)
      cases outcome <;> exact found.2
  | _ => exact verified_mono _ _ _ _ _ _ (fun _ _ _ => trivial) verified

theorem create_concluded (now : Deployment ι κ) (reached : (deploy env calls jobs).Reaches now) (i : κ)
    (outcome : Except AuditError AuditOutcome) (ended : finished (auditing κ) now.audit i = some outcome) :
    CreateConcluded i (jobs i) outcome now.audit.store :=
  free_concluded env calls jobs (fun j => CreateConcluded j (jobs j))
    (fun j => call_provides env j (jobs j) _) now reached i outcome ended

theorem provided_stands (now : Deployment ι κ) (reached : (deploy env calls jobs).Reaches now) (i : κ)
    (instrumentId idempotencyKey : String) (checkpointId : Option Uuid)
    (asks : jobs i = .create instrumentId idempotencyKey checkpointId) (package : AuditPackage)
    (created : Bool) (ended : finished (auditing κ) now.audit i = some (.ok (.package package created))) :
    (∃ row, now.audit.store.packages package.id = some row ∧ row.identity = package.identity ∧
      Asked instrumentId idempotencyKey checkpointId row) ∧
    (created = true → ∃ entry ∈ now.audit.store.journal, entry.action = .create ∧
          entry.id = package.id ∧ entry.caller = i) := by
  have concluded := create_concluded env calls jobs now reached i _ ended
  rw [asks] at concluded
  obtain ⟨asked, did⟩ := concluded
  have life := (free_deployed env calls jobs now reached).disciplined.inv.life
  cases created with
  | true =>
      have member : (⟨i, .create, package.id, none, some package⟩ : Entry κ) ∈ now.audit.store.journal :=
        List.mem_of_mem_filter
          (show _ ∈ entriesOf now.audit.store.journal i by rw [did]; exact List.mem_singleton_self _)
      obtain ⟨row, found, same⟩ := entry_stands _ life.faithful _ member package rfl
      rw [← life.replayed] at found
      exact ⟨⟨row, found, same, asked_same _ _ _ package row same asked⟩, fun _ => ⟨_, member, rfl, rfl, rfl⟩⟩
  | false =>
      obtain ⟨_, row, found, evolves⟩ := did
      exact ⟨⟨row, found, evolves.same, asked_same _ _ _ package row evolves.same asked⟩, nofun⟩

theorem row_creator (now : Deployment ι κ) (reached : (deploy env calls jobs).Reaches now) (id : Nat)
    (row : AuditPackage) (found : now.audit.store.packages id = some row) :
    ∃! i, ∃ instrumentId checkpointId package,
      jobs i = .create instrumentId row.idempotencyKey checkpointId ∧
        finished (auditing κ) now.audit i = some (.ok (.package package true)) ∧ package.id = id := by
  have life := (free_deployed env calls jobs now reached).disciplined.inv.life
  have faithful : Throughout Faithful now.audit.store.journal := life.faithful
  obtain ⟨entry, member, is, rfl⟩ := row_created _ faithful id row (by rw [← life.replayed]; exact found)
  obtain ⟨creates, package, named, ended⟩ :=
    deployed_creators_answered env calls jobs now reached entry member is
  cases call : jobs entry.caller with
  | create instrumentId idempotencyKey checkpointId =>
      obtain ⟨⟨other, stands, same, asked⟩, _⟩ :=
        provided_stands env calls jobs now reached _ _ _ _ call package true ended
      rw [← named, found] at stands
      cases stands
      refine ⟨entry.caller,
        ⟨instrumentId, checkpointId, package, by rw [call, asked.key], ended, named.symm⟩, ?_⟩
      rintro j ⟨_, _, other, asks, endedToo, sameId⟩
      obtain ⟨second, memberToo, isToo, namedToo, rfl⟩ :=
        (provided_stands env calls jobs now reached j _ _ _ asks other true endedToo).2 rfl
      have once := created_once _ faithful
      have symmetric : Std.Symm fun a b : Entry κ => a.action = .create → b.action = .create → a.id ≠ b.id :=
        ⟨fun a b apart first second same => apart second first same.symm⟩
      by_contra apart
      exact once.forall memberToo member (fun equal => apart (congrArg Entry.caller equal)) isToo is
        (namedToo.trans sameId)
  | _ => rw [call] at creates; cases creates

theorem packages_created_once (now : Deployment ι κ) (reached : (deploy env calls jobs).Reaches now) :
    (∀ a b left right, now.audit.store.packages a = some left → now.audit.store.packages b = some right →
      left.idempotencyKey = right.idempotencyKey → a = b) ∧
    (∀ id row, now.audit.store.packages id = some row → ∃! i, ∃ instrumentId checkpointId package,
      jobs i = .create instrumentId row.idempotencyKey checkpointId ∧
        finished (auditing κ) now.audit i = some (.ok (.package package true)) ∧ package.id = id) ∧
    (∀ i instrumentId idempotencyKey checkpointId, jobs i = .create instrumentId idempotencyKey checkpointId →
      (∀ package created, finished (auditing κ) now.audit i = some (.ok (.package package created)) →
        ∃ row, now.audit.store.packages package.id = some row ∧ row.identity = package.identity ∧
          Asked instrumentId idempotencyKey checkpointId row) ∧
      ∀ id row, now.audit.store.packages id = some row → row.idempotencyKey = idempotencyKey →
        ¬Asked instrumentId idempotencyKey checkpointId row →
        (∀ outcome, finished (auditing κ) now.audit i = some outcome →
          (∃ error, outcome = .error error) ∧ entriesOf now.audit.store.journal i = []) ∧
        ∀ key resume, now.audit.sessions i = some (.call (.sql (.selectByKey key)) resume) →
          ∀ supply response store rest,
          auditRespond i (.sql (.selectByKey key)) now.audit.store supply = some (response, store, rest) →
            response = none ∨ resume response = .done (.error (.raised (packageConflict row)))) ∧
    ∀ later : Deployment ι κ, now.Reaches later → ∀ id row, now.audit.store.packages id = some row →
      ∃ kept, later.audit.store.packages id = some kept ∧ kept.identity = row.identity ∧
      Covered later.ledger.store.toLedger kept := by
  have deployed := free_deployed env calls jobs now reached
  have life := deployed.disciplined.inv.life
  have single : ∀ a b left right, now.audit.store.packages a = some left →
    now.audit.store.packages b = some right →
      left.idempotencyKey = right.idempotencyKey → a = b :=
    fun a b left right atA atB same => life.distinct a b left right atA atB (.inr same)
  refine ⟨single, fun id row found => ?_, fun i instrumentId idempotencyKey checkpointId asks =>
    ⟨fun package created ended =>
      (provided_stands env calls jobs now reached i _ _ _ asks package created ended).1,
      fun id row found keyed mismatch =>
        ⟨fun outcome ended => ?_, fun key resume session supply response store rest answer => ?_⟩⟩,
    fun later onward id row found => ?_⟩
  · exact row_creator env calls jobs now reached id row found
  · have concluded := create_concluded env calls jobs now reached i outcome ended
    rw [asks] at concluded
    rcases outcome with error | value
    · exact ⟨⟨error, rfl⟩, concluded⟩
    · cases value with
      | package package created =>
          obtain ⟨other, stands, same, asked⟩ :=
            (provided_stands env calls jobs now reached i _ _ _ asks package created ended).1
          have own := single package.id id other row stands found (asked.key.trans keyed.symm)
          rw [own, found] at stands
          cases stands
          exact absurd asked mismatch
      | _ => exact concluded.elim
  · have heeds := deployed_everywhere env calls jobs i (EndsOnItsRow instrumentId idempotencyKey checkpointId)
      (by rw [asks]; exact create_ends_on_its_row env instrumentId idempotencyKey checkpointId) now
        reached _ session
    obtain ⟨rfl, replies⟩ := heeds.1
    unfold auditRespond at answer
    dsimp only at answer
    split at answer
    · cases answer
      exact .inl rfl
    · cases answer
      have inside : row ∈ now.audit.store.rows := by
        rw [mem_rows _ life.filed, (life.filed.packages id row found).1]
        exact found
      obtain ⟨existing, read⟩ := Option.isSome_iff_exists.mp
        (List.find?_isSome (p := fun row : AuditPackage => row.idempotencyKey = key) |>.mpr
          ⟨row, inside, decide_eq_true keyed⟩)
      have held := (mem_rows _ life.filed existing).mp (List.mem_of_find?_eq_some read)
      have same : existing.idempotencyKey = key := by simpa using List.find?_some read
      have own := single existing.id id existing row held found (same.trans keyed.symm)
      rw [own, found] at held
      cases held
      refine .inr ?_
      show resume (some (now.audit.store.rows.find? _)) = _
      rw [read, replies row, replayPackage, if_neg fun agrees => mismatch ⟨agrees.1, keyed, agrees.2⟩]
      rfl
  · obtain ⟨kept, stands, evolves⟩ := (free_onward env calls jobs now later reached onward).rows id row found
    have after := free_deployed env calls jobs later (reached.trans onward)
    refine ⟨kept, stands, evolves.same, ?_⟩
    rw [← after.seen]
    exact after.disciplined.inv.life.covered id kept stands

end

-- Two calls that race for one key, and a third for another instrument under it.
def sampleCreators : Fin 3 → AuditCall
  | 0 => .create "scale-7" "export-1" none
  | 1 => .create "scale-7" "export-1" (some (sampleUuid 2))
  | 2 => .create "scale-8" "export-1" none

def packageOf : Except AuditError AuditOutcome → Option (AuditPackage × Bool)
  | .ok (.package package created) => some (package, created)
  | _ => none

theorem package_of (outcome : Except AuditError AuditOutcome) (package : AuditPackage) (created : Bool)
    (found : packageOf outcome = some (package, created)) : outcome = .ok (.package package created) := by
  unfold packageOf at found
  split at found <;> cases found
  rfl

theorem sample_package_created : ∃ (now : Deployment Bool (Fin 3)) (row : AuditPackage),
    (deploy sampleExporting sampleCalls sampleCreators).Reaches now ∧ now.audit.store.packages 1 = some row ∧
    (∃ i package, finished (auditing (Fin 3)) now.audit i = some (.ok (.package package true)) ∧
      package.id = 1) ∧
    (∃ package, finished (auditing (Fin 3)) now.audit 1 = some (.ok (.package package false)) ∧
      row.identity = package.identity) ∧
    ∃ error, finished (auditing (Fin 3)) now.audit 2 = some (.error error) ∧
    entriesOf now.audit.store.journal 2 = [] := by
  have ran : ∃ final ∈ runSchedule (auditing (Fin 3)) ([1] ++ List.replicate 6 0 ++ List.replicate 6 1 ++ [2])
      (sampleSessions sampleCreators) sampleChoices,
      (∃ row ∈ final.1.store.packages 1, row.idempotencyKey = "export-1" ∧ row.instrumentId = "scale-7") ∧
      (∃ outcome ∈ finished (auditing (Fin 3)) final.1 1, ∃ pair ∈ packageOf outcome, pair.2 = false ∧
        pair.1.id = 1) ∧
      (finished (auditing (Fin 3)) final.1 2).isSome := by decide +kernel
  obtain ⟨⟨final, rest⟩, run, ⟨row, found, keyed, measured⟩,
    ⟨outcome, ended, ⟨package, created⟩, is, rfl, named⟩, answered⟩ := ran
  obtain ⟨ledger, reached, _⟩ := sample_deployment sampleCreators _ final rest run
  obtain ⟨_, creators, calls, _⟩ := packages_created_once sampleExporting sampleCalls sampleCreators _ reached
  have replayed := package_of outcome package false is
  subst replayed
  obtain ⟨i, ⟨_, _, first, _, endedFirst, namedFirst⟩, _⟩ := creators 1 row found
  obtain ⟨other, stands, same, _⟩ :=
    (calls 1 "scale-7" "export-1" (some (sampleUuid 2)) rfl).1 package false ended
  rw [named, found] at stands
  cases stands
  obtain ⟨conflict, endedLast⟩ := Option.isSome_iff_exists.mp answered
  obtain ⟨⟨error, rfl⟩, idle⟩ := ((calls 2 "scale-8" "export-1" none rfl).2 1 row found keyed
    (fun asked => absurd (measured.symm.trans asked.instrument) (by decide))).1 conflict endedLast
  exact ⟨_, row, reached, found, ⟨i, first, endedFirst, namedFirst⟩, ⟨package, ended, same⟩, error,
    endedLast, idle⟩

end CalibrationLedger
