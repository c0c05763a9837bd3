import Mathlib.Data.Fintype.Basic
import CalibrationLedger.Tables
import CalibrationLedger.Library.Interleaving

set_option autoImplicit false

-- The two ledger tables on PostgreSQL at READ COMMITTED: every statement sees the
-- rows committed before it and those of its own transaction, the locks of a
-- transaction go with its end, and a sequence value is never given out twice.
namespace CalibrationLedger

open Interleaving

structure Transaction where
  shared : Bool
  exclusive : Bool
  locked : List Uuid
  allocated : Option Int
  events : List Event
  checkpoints : List Checkpoint
deriving DecidableEq

def Transaction.idle : Transaction := ⟨false, false, [], none, [], []⟩

structure Store (ι : Type) extends Ledger where
  nextSequence : Int
  transactions : ι → Transaction

def Store.empty (ι : Type) : Store ι := ⟨⟨EventTable.empty, []⟩, 1, fun _ => Transaction.idle⟩

-- The choices the code leaves to its surroundings: uuid_factory, clock and the
-- sequence values a database may skip.
structure Supply where
  uuids : Nat → Uuid
  clocks : Nat → Instant
  gaps : Nat → Nat

inductive Statement where
  | uuidFactory
  | clock
  | selectByKey (businessKey : String)
  | selectByKeys (keys : List String)
  | selectSuccessor (eventId : Uuid)
  | lockShared
  | selectForUpdate (eventId : Uuid)
  | nextval
  | insertEvent (event : Event)
  | tryLockExclusive
  | selectLatest
  | selectAfter (sequence : Int) (limit : Nat)
  | selectUpTo (sequence : Int)
  | insertCheckpoint (checkpoint : Checkpoint)
  | commit
  | rollback

-- An insert answers false where the database raises IntegrityError.
@[reducible] def Response : Statement → Type
  | .uuidFactory => Uuid
  | .clock => Instant
  | .selectByKey _ => Option Event
  | .selectByKeys _ => List Event
  | .selectSuccessor _ => Option Event
  | .lockShared => Unit
  | .selectForUpdate _ => Option Event
  | .nextval => Int
  | .insertEvent _ => Bool
  | .tryLockExclusive => Bool
  | .selectLatest => Option Checkpoint
  | .selectAfter _ _ => List Event
  | .selectUpTo _ => List Event
  | .insertCheckpoint _ => Bool
  | .commit => Unit
  | .rollback => Unit

abbrev Sql : Signature := ⟨Statement, Response⟩

-- The primary key and the three unique constraints of events.
def Event.clashes (a b : Event) : Bool :=
  a.sequence = b.sequence || a.eventId = b.eventId || a.businessKey = b.businessKey ||
    (a.previousEventId.isSome && a.previousEventId = b.previousEventId)

def Event.payloadShape (event : Event) : Bool :=
  match event.eventType with
  | .revocation => event.reportDigest.isNone && event.reason.isSome
  | .report => event.reportDigest.isSome && event.reason.isNone
  | .revision => event.reportDigest.isSome && event.reason.isNone

def Checkpoint.clashes (a b : Checkpoint) : Bool :=
  a.checkpointId = b.checkpointId || a.leafCount = b.leafCount || a.lastEventSequence = b.lastEventSequence ||
    (a.previousCheckpointId.isSome && a.previousCheckpointId = b.previousCheckpointId)

namespace Store

variable {ι : Type}

def visible (store : Store ι) (i : ι) : EventTable := store.events.insertAll (store.transactions i).events

def visibleCheckpoints (store : Store ι) (i : ι) : List Checkpoint :=
  store.checkpoints ++ (store.transactions i).checkpoints

-- The row satisfies every constraint against what the session can see.
def admits (store : Store ι) (i : ι) (event : Event) : Bool :=
  event.payloadShape && (store.visible i).rows.all (fun row => !event.clashes row) &&
    match event.previousEventId with
    | none => true
    | some parent => ((store.visible i).byId parent).isSome

def admitsCheckpoint (store : Store ι) (i : ι) (checkpoint : Checkpoint) : Bool :=
  decide (0 < checkpoint.leafCount) && (store.visibleCheckpoints i).all
    (fun row => !checkpoint.clashes row) &&
    match checkpoint.previousCheckpointId with
    | none => true
    | some previous => (store.visibleCheckpoints i).any fun row => row.checkpointId = previous

variable [DecidableEq ι]

def update (store : Store ι) (i : ι) (change : Transaction → Transaction) : Store ι :=
  { store with transactions := Function.update store.transactions i (change (store.transactions i)) }

def commit (store : Store ι) (i : ι) : Store ι where
  events := store.visible i
  checkpoints := store.visibleCheckpoints i
  nextSequence := store.nextSequence
  transactions := Function.update store.transactions i Transaction.idle

def rollback (store : Store ι) (i : ι) : Store ι := store.update i fun _ => Transaction.idle

variable [Fintype ι]

def othersExclusive (store : Store ι) (i : ι) : Bool := decide (∃ j, j ≠ i ∧ (store.transactions j).exclusive)

def othersShared (store : Store ι) (i : ι) : Bool := decide (∃ j, j ≠ i ∧ (store.transactions j).shared)

def lockedElsewhere (store : Store ι) (i : ι) (eventId : Uuid) : Bool :=
  decide (∃ j, j ≠ i ∧ eventId ∈ (store.transactions j).locked)

-- Another open transaction holds a row the insert has to wait for.
def contested (store : Store ι) (i : ι) (event : Event) : Bool :=
  decide (∃ j, j ≠ i ∧ ((store.transactions j).events.any fun row => event.clashes row) = true)

def contestedCheckpoint (store : Store ι) (i : ι) (checkpoint : Checkpoint) : Bool :=
  decide (∃ j, j ≠ i ∧ ((store.transactions j).checkpoints.any fun row => checkpoint.clashes row) = true)

end Store

section

variable {ι : Type} [DecidableEq ι] [Fintype ι]

-- No answer: the statement waits.
def respond (i : ι) (query : Statement) (store : Store ι) (supply : Supply) :
    Option (Response query × Store ι × Supply) :=
  match query with
  | .uuidFactory => some (supply.uuids 0, store, { supply with uuids := fun n => supply.uuids (n + 1) })
  | .clock => some (supply.clocks 0, store, { supply with clocks := fun n => supply.clocks (n + 1) })
  | .selectByKey businessKey => some ((store.visible i).byKey businessKey, store, supply)
  | .selectByKeys keys => some ((store.visible i).byKeys keys, store, supply)
  | .selectSuccessor eventId => some ((store.visible i).successor eventId, store, supply)
  | .lockShared =>
      if store.othersExclusive i then none
      else some ((), store.update i (fun tx => { tx with shared := true }), supply)
  | .selectForUpdate eventId =>
      match (store.visible i).byId eventId with
      | none => some (none, store, supply)
      | some row =>
          if store.lockedElsewhere i eventId then none
          else some (some row, store.update i (fun tx => { tx with locked := eventId :: tx.locked }), supply)
  | .nextval =>
      let value := store.nextSequence + supply.gaps 0
      let advanced : Store ι := { store with nextSequence := value + 1 }
      some (value, advanced.update i (fun tx => { tx with allocated := some value }),
        { supply with gaps := fun n => supply.gaps (n + 1) })
  | .insertEvent event =>
      if !store.admits i event then some (false, store, supply)
      else if store.contested i event then none
      else some (true,
          store.update i (fun tx => { tx with allocated := none, events := tx.events ++ [event] }), supply)
  | .tryLockExclusive =>
      if store.othersShared i || store.othersExclusive i then some (false, store, supply)
      else some (true, store.update i (fun tx => { tx with exclusive := true }), supply)
  | .selectLatest => some (latest (store.visibleCheckpoints i), store, supply)
  | .selectAfter sequence limit => some (((store.visible i).after sequence).take limit, store, supply)
  | .selectUpTo sequence => some ((store.visible i).upTo sequence, store, supply)
  | .insertCheckpoint checkpoint =>
      if !store.admitsCheckpoint i checkpoint then some (false, store, supply)
      else if store.contestedCheckpoint i checkpoint then none
      else some (true,
          store.update i (fun tx => { tx with checkpoints := tx.checkpoints ++ [checkpoint] }), supply)
  | .commit => some ((), store.commit i, supply)
  | .rollback => some ((), store.rollback i, supply)

variable (ι) in
def postgres : Machine Sql ι where
  Store := Store ι
  Supply := Supply
  respond := respond
  abandon i store := store.rollback i

end

end CalibrationLedger
