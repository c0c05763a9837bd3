import CalibrationLedger.Audit.Archive

set_option autoImplicit false

-- The audit tables, and the transactions on them as the database runs them: each
-- one holds its row from the read to the commit, so it is a single step.
namespace CalibrationLedger

open JsonText Digest Interleaving

structure AuditConsumer where
  id : Nat
  consumerId : Uuid
  consumerName : String
  idempotencyKey : String
  lastCheckpointId : Option Uuid
  createdAt : Instant
  updatedAt : Instant
  lastAcknowledgedAt : Option Instant
deriving DecidableEq

-- The transaction that ends a build_once call.
inductive Exit where
  | finalWrite
  | finishCancelled
  | failOrCancel
deriving DecidableEq

inductive Action where
  | create
  | claim (workerId : String) (moment : Instant)
  | settle (moment : Instant)
  | retry
  | cancel
  | terminal (exit : Exit) (claimed : AuditPackage) (returned : BuildResult)
deriving DecidableEq

-- A committed transaction on a package row: who ran it, the row it held and the
-- row it left.
structure Entry (κ : Type) where
  caller : κ
  action : Action
  id : Nat
  before : Option AuditPackage
  after : Option AuditPackage
deriving DecidableEq

-- An advance of a consumer's cursor.
structure Acknowledgement (κ : Type) where
  caller : κ
  consumer : Nat
  checkpointId : Uuid
deriving DecidableEq

-- What the exporter logs.
inductive LogEntry where
  | packageReady (packageId : Uuid) (attemptCount : Nat)
  | cancelConfirmed (packageId : Uuid) (reason : String) (attemptCount : Nat)
  | claimSuperseded (packageId : Uuid)
  | packageFailed (packageId : Uuid)
  | databaseUnavailable
deriving DecidableEq

-- ledger is what a query finds committed in the ledger tables. journal,
-- acknowledged and logs are in the order of the commits.
structure AuditStore (κ : Type) where
  ledger : Ledger
  packages : Nat → Option AuditPackage
  nextId : Nat
  artifacts : Uuid → Option AuditPackageArtifact
  consumers : Nat → Option AuditConsumer
  nextConsumer : Nat
  journal : List (Entry κ)
  acknowledged : List (Acknowledgement κ)
  logs : List (κ × LogEntry)

def AuditStore.empty (κ : Type) (ledger : Ledger) : AuditStore κ where
  ledger
  packages := fun _ => none
  nextId := 1
  artifacts := fun _ => none
  consumers := fun _ => none
  nextConsumer := 1
  journal := []
  acknowledged := []
  logs := []

-- What the surroundings choose for one statement: a fresh uuid, the clock, the
-- values a sequence skips, the rows another transaction has locked, an outage.
structure Choice where
  uuid : Uuid
  clock : Instant
  gap : Nat
  locked : Nat → Bool
  outage : Bool

-- The constraint an IntegrityError is about.
inductive Rejection where
  | unique
  | foreignKey
  | stateShape
  | artifactKey
deriving DecidableEq

inductive AuditQuery where
  | getCheckpoint (checkpointId : Uuid)
  | latestCheckpoint
  | countEvents (instrumentId : String) (boundary : Int)
  | readLedger
  | selectByKey (idempotencyKey : String)
  | selectStatus (id : Nat)
  | insertPackage (draft : AuditPackage)
  | claimSkipLocked (workerId : String) (moment : Instant) (leaseDuration : Int)
  | selectEligible (moment : Instant)
  | claimById (id : Nat) (workerId : String) (moment expires : Instant)
  | settleSkipLocked (moment : Instant)
  | selectStale (moment : Instant)
  | settleById (id : Nat) (moment : Instant)
  | finalWrite (claimed : AuditPackage) (archive : BuiltArchive)
  | finishCancelled (claimed : AuditPackage)
  | failOrCancel (claimed : AuditPackage) (code : String) (reason : Text)
  | requestRetry (packageId : Uuid)
  | cancelPackage (packageId : Uuid)
  | selectConsumer (consumerId : Uuid)
  | selectConsumerByKey (idempotencyKey : String)
  | insertConsumer (draft : AuditConsumer)
  | advanceCursor (id : Nat) (predecessor : Option Uuid) (checkpointId : Uuid) (now : Instant)
  | reloadConsumer (id : Nat)

@[reducible] def Reply : AuditQuery → Type
  | .getCheckpoint _ => Option Checkpoint
  | .latestCheckpoint => Option Checkpoint
  | .countEvents _ _ => Nat
  | .readLedger => Ledger
  | .selectByKey _ => Option AuditPackage
  | .selectStatus _ => Option PackageStatus
  | .insertPackage _ => Except Rejection AuditPackage
  | .claimSkipLocked _ _ _ => Except Rejection (Py (Option AuditPackage))
  | .selectEligible _ => Option Nat
  | .claimById _ _ _ _ => Except Rejection (Py (Option AuditPackage))
  | .settleSkipLocked _ => Except Rejection (List AuditPackage)
  | .selectStale _ => List Nat
  | .settleById _ _ => Except Rejection (Option AuditPackage)
  | .finalWrite _ _ => Except Rejection BuildResult
  | .finishCancelled _ => Except Rejection BuildResult
  | .failOrCancel _ _ _ => Except Rejection BuildResult
  | .requestRetry _ => Except Rejection (Py AuditPackage)
  | .cancelPackage _ => Except Rejection (Py (AuditPackage × Bool))
  | .selectConsumer _ => Option AuditConsumer
  | .selectConsumerByKey _ => Option AuditConsumer
  | .insertConsumer _ => Except Rejection AuditConsumer
  | .advanceCursor _ _ _ _ => Except Rejection (Option AuditConsumer)
  | .reloadConsumer _ => Option AuditConsumer

inductive AuditStatement where
  | clock
  | uuidFactory
  | log (entry : LogEntry)
  | sql (query : AuditQuery)

-- A query that finds the database gone has no reply.
@[reducible] def AuditResponse : AuditStatement → Type
  | .clock => Instant
  | .uuidFactory => Uuid
  | .log _ => Unit
  | .sql query => Option (Reply query)

abbrev AuditSql : Signature := ⟨AuditStatement, AuditResponse⟩

namespace AuditStore

variable {κ : Type}

def rows (store : AuditStore κ) : List AuditPackage := (List.range store.nextId).filterMap store.packages

def consumerRows (store : AuditStore κ) : List AuditConsumer :=
  (List.range store.nextConsumer).filterMap store.consumers

def byPackageId (store : AuditStore κ) (packageId : Uuid) : Option AuditPackage :=
  store.rows.find? fun row => row.packageId = packageId

def put (store : AuditStore κ) (entry : Entry κ) (row : AuditPackage) : AuditStore κ :=
  { store with
    packages := Function.update store.packages entry.id (some row)
    journal := store.journal ++ [entry] }

-- The row a transaction holds is flushed and committed if every constraint allows.
def transact {α : Type} (store : AuditStore κ) (caller : κ) (action : α → Action) (id : Nat)
    (decision : Decision α) :
    Except Rejection α × AuditStore κ :=
  let entry : Entry κ :=
    ⟨caller, action decision.reply, id, store.packages id, decision.write.or (store.packages id)⟩
  match decision.write with
  | none => (.ok decision.reply, { store with journal := store.journal ++ [entry] })
  | some row =>
      if !row.stateShape then (.error .stateShape, store)
      else
        match decision.artifact with
        | none => (.ok decision.reply, store.put entry row)
        | some artifact =>
            if (store.artifacts artifact.packageId).isSome then (.error .artifactKey, store)
            else
              (.ok decision.reply, { store.put entry row with
                artifacts := Function.update store.artifacts artifact.packageId (some artifact) })

def insertPackage (store : AuditStore κ) (caller : κ) (draft : AuditPackage) (gap : Nat) :
    Except Rejection AuditPackage × AuditStore κ :=
  let row : AuditPackage := { draft with id := store.nextId + gap }
  if store.rows.any fun other => other.packageId = row.packageId || other.idempotencyKey =
    row.idempotencyKey then
    (.error .unique, store)
  else if (store.ledger.checkpoint row.checkpointId).isNone then (.error .foreignKey, store)
  else if !row.stateShape then (.error .stateShape, store)
  else (.ok row, { store.put ⟨caller, .create, row.id, none, some row⟩ row with nextId := row.id + 1 })

def claim (store : AuditStore κ) (caller : κ) (workerId : String) (moment : Instant) (expires : Py Instant) :
    Option AuditPackage → Except Rejection (Py (Option AuditPackage)) × AuditStore κ
  | none => (.ok (.ok none), store)
  | some candidate =>
      match expires with
      | .error error => (.ok (.error error), store)
      | .ok expires =>
          let row := candidate.claim workerId moment expires
          store.transact caller (fun _ => .claim workerId moment) candidate.id
            { reply := .ok (some row), write := some row }

def settleRow (caller : κ) (moment : Instant) (store : AuditStore κ) (row : AuditPackage) : AuditStore κ :=
  store.put ⟨caller, .settle moment, row.id, some row, some (row.applyCancelled moment)⟩
    (row.applyCancelled moment)

def settleAll (store : AuditStore κ) (caller : κ) (moment : Instant) (candidates : List AuditPackage) :
    Except Rejection (List AuditPackage) × AuditStore κ :=
  if candidates.all fun row => (row.applyCancelled moment).stateShape then
    (.ok (candidates.map fun row => row.applyCancelled moment),
        candidates.foldl (settleRow caller moment) store)
  else (.error .stateShape, store)

-- The cursor moves only if it still holds the expected predecessor.
def advanceCursor (store : AuditStore κ) (caller : κ) (id : Nat) (predecessor : Option Uuid)
    (checkpointId : Uuid) (now : Instant) : Except Rejection (Option AuditConsumer) × AuditStore κ :=
  match store.consumers id with
  | none => (.ok none, store)
  | some consumer =>
      if consumer.lastCheckpointId ≠ predecessor then (.ok none, store)
      else if (store.ledger.checkpoint checkpointId).isNone then (.error .foreignKey, store)
      else
        let row : AuditConsumer := { consumer with
          lastCheckpointId := some checkpointId
          lastAcknowledgedAt := some now
          updatedAt := now }
        (.ok (some row), { store with
          consumers := Function.update store.consumers id (some row)
          acknowledged := store.acknowledged ++ [⟨caller, id, checkpointId⟩] })

def insertConsumer (store : AuditStore κ) (draft : AuditConsumer) (gap : Nat) :
    Except Rejection AuditConsumer × AuditStore κ :=
  let row : AuditConsumer := { draft with id := store.nextConsumer + gap }
  if store.consumerRows.any fun other => other.consumerId = row.consumerId || other.idempotencyKey =
    row.idempotencyKey then
    (.error .unique, store)
  else
    (.ok row, { store with
      consumers := Function.update store.consumers row.id (some row), nextConsumer := row.id + 1 })

def answer (store : AuditStore κ) (caller : κ) (choice : Choice) :
    (query : AuditQuery) → Reply query × AuditStore κ
  | .getCheckpoint checkpointId => (store.ledger.checkpoint checkpointId, store)
  | .latestCheckpoint => (latest store.ledger.checkpoints, store)
  | .countEvents instrumentId boundary =>
      ((store.ledger.instrumentEvents instrumentId boundary).length, store)
  | .readLedger => (store.ledger, store)
  | .selectByKey idempotencyKey => (store.rows.find? fun row => row.idempotencyKey = idempotencyKey, store)
  | .selectStatus id => ((store.packages id).map AuditPackage.status, store)
  | .insertPackage draft => store.insertPackage caller draft choice.gap
  | .claimSkipLocked workerId moment leaseDuration =>
      store.claim caller workerId moment (moment.plus leaseDuration)
        (store.rows.find? fun row => row.eligible moment && !choice.locked row.id)
  | .selectEligible moment => ((store.rows.find? fun row => row.eligible moment).map AuditPackage.id, store)
  | .claimById id workerId moment expires =>
      store.claim caller workerId moment (.ok expires)
        ((store.packages id).filter fun row => row.eligible moment)
  | .settleSkipLocked moment =>
      store.settleAll caller moment (store.rows.filter fun row => row.stale moment && !choice.locked row.id)
  | .selectStale moment => ((store.rows.filter fun row => row.stale moment).map AuditPackage.id, store)
  | .settleById id moment =>
      match store.packages id with
      | none => (.ok none, store)
      | some row =>
          let settled := row.applyCancelled moment
          store.transact caller (fun _ => .settle moment) id { reply := some settled, write := some settled }
  | .finalWrite claimed archive =>
      store.transact caller (.terminal .finalWrite claimed) claimed.id
        (CalibrationLedger.finalWrite claimed archive choice.clock (store.packages claimed.id))
  | .finishCancelled claimed =>
      store.transact caller (.terminal .finishCancelled claimed) claimed.id
        (CalibrationLedger.finishCancelled claimed choice.clock (store.packages claimed.id))
  | .failOrCancel claimed code reason =>
      store.transact caller (.terminal .failOrCancel claimed) claimed.id
        (CalibrationLedger.failOrCancel claimed code reason choice.clock (store.packages claimed.id))
  | .requestRetry packageId =>
      match store.byPackageId packageId with
      | none => (.ok (CalibrationLedger.requestRetry packageId choice.clock none).reply, store)
      | some row =>
          store.transact caller (fun _ => .retry) row.id
            (CalibrationLedger.requestRetry packageId choice.clock (some row))
  | .cancelPackage packageId =>
      match store.byPackageId packageId with
      | none => (.ok (CalibrationLedger.cancelPackage packageId choice.clock none).reply, store)
      | some row =>
          store.transact caller (fun _ => .cancel) row.id
            (CalibrationLedger.cancelPackage packageId choice.clock (some row))
  | .selectConsumer consumerId => (store.consumerRows.find? fun row => row.consumerId = consumerId, store)
  | .selectConsumerByKey idempotencyKey =>
      (store.consumerRows.find? fun row => row.idempotencyKey = idempotencyKey, store)
  | .insertConsumer draft => store.insertConsumer draft choice.gap
  | .advanceCursor id predecessor checkpointId now =>
      store.advanceCursor caller id predecessor checkpointId now
  | .reloadConsumer id => (store.consumers id, store)

end AuditStore

section

variable {κ : Type}

-- The supply holds one choice for every statement to come.
def auditRespond (i : κ) (statement : AuditStatement) (store : AuditStore κ) (supply : Nat → Choice) :
    Option (AuditResponse statement × AuditStore κ × (Nat → Choice)) :=
  let rest := fun n => supply (n + 1)
  match statement with
  | .clock => some ((supply 0).clock, store, rest)
  | .uuidFactory => some ((supply 0).uuid, store, rest)
  | .log entry => some ((), { store with logs := store.logs ++ [(i, entry)] }, rest)
  | .sql query =>
      if (supply 0).outage then some (none, store, rest)
      else some (some (store.answer i (supply 0) query).1, (store.answer i (supply 0) query).2, rest)

variable (κ) in
abbrev auditing : Machine AuditSql κ where
  Store := AuditStore κ
  Supply := Nat → Choice
  respond := auditRespond
  abandon _ store := store

end

end CalibrationLedger
