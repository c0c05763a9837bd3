import CalibrationLedger.Audit.Acknowledgements
import CalibrationLedger.Audit.Downloads

set_option autoImplicit false

-- What a client polling a package or a consumer is shown, at every moment of every run.
namespace CalibrationLedger

open JsonText Digest Interleaving Histories Moments

section

variable {κ : Type} (i : κ) (store : AuditStore κ) (choice : Choice)

theorem transact_consumers {α : Type} (action : α → Action) (id : Nat) (decision : Decision α) :
    (store.transact i action id decision).2.consumers = store.consumers := by
  rw [AuditStore.transact]
  cases decision.write with
  | none => rfl
  | some row =>
      dsimp only
      split
      · rfl
      · cases decision.artifact with
        | none => rfl
        | some artifact =>
            dsimp only
            split <;> rfl

theorem claim_consumers (workerId : String) (moment : Instant) (expires : Py Instant)
    (candidate : Option AuditPackage) :
    (store.claim i workerId moment expires candidate).2.consumers = store.consumers := by
  cases candidate with
  | none => rfl
  | some candidate =>
      cases expires with
      | error error => rfl
      | ok expires => exact transact_consumers i store _ _ _

theorem settle_consumers (moment : Instant) (candidates : List AuditPackage) :
    (store.settleAll i moment candidates).2.consumers = store.consumers := by
  have folded (rows : List AuditPackage) (now : AuditStore κ) :
      (rows.foldl (AuditStore.settleRow i moment) now).consumers = now.consumers := by
    induction rows generalizing now with
    | nil => rfl
    | cons row rest ih => exact ih _
  rw [AuditStore.settleAll]
  split
  · exact folded candidates store
  · rfl

theorem insert_consumers (draft : AuditPackage) :
    (store.insertPackage i draft choice.gap).2.consumers = store.consumers := by
  rw [AuditStore.insertPackage]
  dsimp only
  split
  · rfl
  · split
    · rfl
    · split <;> rfl

-- A consumer's row is written when it is registered and when its cursor moves on.
inductive ConsumerStep (before after : Nat → Option AuditConsumer) (nextConsumer : Nat) : Prop where
  | alike (same : after = before)
  | registered (row : AuditConsumer) (new : nextConsumer ≤ row.id) (unread : row.lastCheckpointId = none)
      (written : after = Function.update before row.id (some row))
  | advanced (id : Nat) (consumer : AuditConsumer) (checkpointId : Uuid) (now : Instant)
      (found : before id = some consumer)
      (written : after = Function.update before id (some { consumer with
        lastCheckpointId := some checkpointId
        lastAcknowledgedAt := some now
        updatedAt := now }))

theorem answer_consumer_step (request : AuditQuery) (careful : CheckedBefore request store) :
    ConsumerStep store.consumers (store.answer i choice request).2.consumers store.nextConsumer := by
  cases request with
  | insertPackage draft => exact .alike (insert_consumers i store choice draft)
  | claimSkipLocked workerId moment leaseDuration => exact .alike (claim_consumers i store _ _ _ _)
  | claimById id workerId moment expires => exact .alike (claim_consumers i store _ _ _ _)
  | settleSkipLocked moment => exact .alike (settle_consumers i store moment _)
  | settleById id moment =>
      rw [AuditStore.answer]
      cases store.packages id with
      | none => exact .alike rfl
      | some row => exact .alike (transact_consumers i store _ _ _)
  | finalWrite claimed archive => exact .alike (transact_consumers i store _ _ _)
  | finishCancelled claimed => exact .alike (transact_consumers i store _ _ _)
  | failOrCancel claimed code reason => exact .alike (transact_consumers i store _ _ _)
  | requestRetry packageId =>
      rw [AuditStore.answer]
      cases store.byPackageId packageId with
      | none => exact .alike rfl
      | some row => exact .alike (transact_consumers i store _ _ _)
  | cancelPackage packageId =>
      rw [AuditStore.answer]
      cases store.byPackageId packageId with
      | none => exact .alike rfl
      | some row => exact .alike (transact_consumers i store _ _ _)
  | insertConsumer draft =>
      rw [AuditStore.answer, AuditStore.insertConsumer]
      dsimp only
      split
      · exact .alike rfl
      · exact .registered { draft with id := store.nextConsumer + choice.gap } (Nat.le_add_right _ _)
          careful rfl
  | advanceCursor id predecessor checkpointId now =>
      rw [AuditStore.answer, AuditStore.advanceCursor]
      cases found : store.consumers id with
      | none => exact .alike rfl
      | some consumer =>
          dsimp only
          split
          · exact .alike rfl
          · split
            · exact .alike rfl
            · exact .advanced id consumer checkpointId now found rfl
  | _ => exact .alike rfl

-- A cursor is never without the time it was last moved.
def Stamped (consumers : Nat → Option AuditConsumer) : Prop :=
  ∀ n row, consumers n = some row → row.lastCheckpointId.isSome = true → row.lastAcknowledgedAt.isSome = true

def ConsumersKept (before after : Nat → Option AuditConsumer) : Prop :=
  ∀ n row, before n = some row → ∃ later, after n = some later ∧ later.id = row.id ∧
    later.consumerId = row.consumerId

variable (before after : Nat → Option AuditConsumer) (nextConsumer : Nat)
  (minded : ConsumerStep before after nextConsumer)

include minded

theorem consumer_step_stamped (stamped : Stamped before) : Stamped after := by
  intro n row found moved
  cases minded with
  | alike same => exact stamped n row (by rw [← same]; exact found) moved
  | registered fresh new unread written =>
      rw [written] at found
      rcases put_cases _ _ _ n row found with ⟨_, rfl⟩ | ⟨_, old⟩
      · rw [unread] at moved
        cases moved
      · exact stamped n row old moved
  | advanced id consumer checkpointId now at_id written =>
      rw [written] at found
      rcases put_cases _ _ _ n row found with ⟨_, rfl⟩ | ⟨_, old⟩
      · rfl
      · exact stamped n row old moved

theorem consumer_step_kept (filed : ∀ n row, before n = some row → row.id = n ∧ n < nextConsumer) :
    ConsumersKept before after := by
  intro n row found
  cases minded with
  | alike same => exact ⟨row, by rw [same]; exact found, rfl, rfl⟩
  | registered fresh new unread written =>
      have other : n ≠ fresh.id := by
        have below := (filed n row found).2
        omega
      exact ⟨row, by rw [written, Function.update_of_ne other]; exact found, rfl, rfl⟩
  | advanced id consumer checkpointId now at_id written =>
      by_cases same : n = id
      · subst same
        obtain rfl : consumer = row := Option.some.inj (at_id.symm.trans found)
        exact ⟨_, (congrFun written n).trans (Function.update_self n _ before), rfl, rfl⟩
      · exact ⟨row, by rw [written, Function.update_of_ne same]; exact found, rfl, rfl⟩

end

section

variable {κ : Type}

theorem consumers_kept_refl (consumers : Nat → Option AuditConsumer) : ConsumersKept consumers consumers :=
  fun _ row found => ⟨row, found, rfl, rfl⟩

theorem consumers_kept_trans (a b c : Nat → Option AuditConsumer) (first : ConsumersKept a b)
    (second : ConsumersKept b c) : ConsumersKept a c := by
  intro n row found
  obtain ⟨mid, at_b, sameId, sameName⟩ := first n row found
  obtain ⟨later, at_c, laterId, laterName⟩ := second n mid at_b
  exact ⟨later, at_c, laterId.trans sameId, laterName.trans sameName⟩

theorem respond_consumer_step (i : κ) (statement : AuditStatement) (store : AuditStore κ)
    (before : Nat → Choice) (response : AuditResponse statement) (next : AuditStore κ)
    (after : Nat → Choice) (careful : ∀ request, statement = .sql request → CheckedBefore request store)
    (answer : auditRespond i statement store before = some (response, next, after)) :
    ConsumerStep store.consumers next.consumers store.nextConsumer := by
  cases statement with
  | sql request =>
      rw [auditRespond] at answer
      split at answer
      · cases answer
        exact .alike rfl
      · cases answer
        exact answer_consumer_step i store (before 0) request (careful request rfl)
  | _ =>
      cases answer
      exact .alike rfl

end

-- The checkpoint a consumer has read up to.
def cursorOf {κ : Type} (store : AuditStore κ) (n : Nat) : Option Checkpoint :=
  (acknowledgedBy store.acknowledged n).getLast?.bind store.ledger.checkpoint

def ShowsCursor (cursor : Option Checkpoint) (view : Dict) : Prop :=
  match cursor with
  | none => getItem "last_acknowledged_checkpoint" view = .null
  | some checkpoint => ∃ acknowledgedAt, getItem "last_acknowledged_checkpoint" view = .obj (dict [
      ("checkpoint_id", string checkpoint.checkpointId.toText),
      ("leaf_count", .int checkpoint.leafCount),
      ("last_event_sequence", .int checkpoint.lastEventSequence),
      ("acknowledged_at", .str (utcText acknowledgedAt))])

section

variable {ι κ : Type} [DecidableEq ι] [Fintype ι] [DecidableEq κ] (env : Exporting) (calls : ι → Call)
  (jobs : κ → AuditCall) (now later : Deployment ι κ) (reached : (deploy env calls jobs).Reaches now)

include reached

theorem stamped_run : Stamped now.audit.store.consumers := by
  refine audit_run env calls jobs (fun store => Stamped store.consumers) (fun _ _ _ stamped => stamped)
    (fun i statement store before response next after life careful answer => ?_) _ now .refl reached
      fun n row found => by cases found
  exact consumer_step_stamped _ _ _ (respond_consumer_step i statement store before response next after
      careful answer)

variable (onward : now.Reaches later)

include onward

theorem consumers_kept_run : ConsumersKept now.audit.store.consumers later.audit.store.consumers := by
  refine audit_run env calls jobs (fun store => ConsumersKept now.audit.store.consumers store.consumers)
    (fun _ _ _ lasts => lasts)
    (fun i statement store before response next after life careful answer lasts => ?_) now later reached
      onward (consumers_kept_refl _)
  exact consumers_kept_trans _ _ _ lasts
    (consumer_step_kept _ _ _ (respond_consumer_step i statement store before response next after
      careful answer) life.filed.consumers)

end

section

variable {κ : Type} (store : AuditStore κ) (cursors : Cursors store)

include cursors

theorem cursor_last (n : Nat) :
    (acknowledgedBy store.acknowledged n).getLast? = (cursorOf store n).map Checkpoint.checkpointId ∧
      ∀ checkpoint, cursorOf store n = some checkpoint → checkpoint ∈ store.ledger.checkpoints := by
  rw [cursorOf]
  cases last : (acknowledgedBy store.acknowledged n).getLast? with
  | none => exact ⟨rfl, fun _ none => by cases none⟩
  | some checkpointId =>
      have listed := (cursors.followed n).subset (List.mem_of_getLast? last)
      obtain ⟨checkpoint, member, rfl⟩ := List.mem_map.mp listed
      have stored : store.ledger.checkpoint checkpoint.checkpointId = some checkpoint :=
        distinct_found store.ledger.checkpoints cursors.chain.distinct checkpoint member
      rw [Option.bind_some, stored]
      exact ⟨rfl, fun other same => by rw [← Option.some.inj same]; exact member⟩

end

theorem chain_ranked (checkpoints : List Checkpoint) (chain : OneChain checkpoints) :
    checkpoints.Pairwise fun a b => a.leafCount < b.leafCount := by
  have ranked : (checkpoints.map Checkpoint.leafCount).IsChain (· < ·) :=
    (List.isChain_map _).mpr (chain.linked.imp fun _ _ step => step.counts)
  exact List.pairwise_map.mp (List.isChain_iff_pairwise.mp ranked)

theorem listed_at (checkpoints : List Checkpoint) (chain : OneChain checkpoints) (ids : List Uuid)
    (followed : ids <+: checkpoints.map Checkpoint.checkpointId) (row : Checkpoint)
    (member : row ∈ checkpoints) (isLast : ids.getLast? = some row.checkpointId) :
    0 < ids.length ∧ checkpoints[ids.length - 1]? = some row := by
  obtain ⟨rest, whole⟩ := followed
  have nonempty : 0 < ids.length := List.length_pos_of_mem (List.mem_of_getLast? isLast)
  rw [List.getLast?_eq_getElem?] at isLast
  have there : (checkpoints.map Checkpoint.checkpointId)[ids.length - 1]? = some row.checkpointId := by
    rw [← whole, List.getElem?_append_left (by omega), isLast]
  rw [List.getElem?_map] at there
  obtain ⟨other, found, named⟩ := Option.map_eq_some_iff.mp there
  rw [found, List.inj_on_of_nodup_map (chain_nodup checkpoints chain)
    (List.mem_of_getElem? found) member named]
  exact ⟨nonempty, rfl⟩

theorem positions_advance (checkpoints : List Checkpoint) (chain : OneChain checkpoints)
    (early late : List Uuid) (longer : early <+: late)
    (followed : late <+: checkpoints.map Checkpoint.checkpointId) (first last : Checkpoint)
    (stands : first ∈ checkpoints) (ends : last ∈ checkpoints)
    (isFirst : early.getLast? = some first.checkpointId)
    (isLast : late.getLast? = some last.checkpointId) : first.leafCount ≤ last.leafCount := by
  obtain ⟨_, early_at⟩ := listed_at checkpoints chain early (longer.trans followed) first stands isFirst
  obtain ⟨_, late_at⟩ := listed_at checkpoints chain late followed last ends isLast
  obtain ⟨belowEarly, rfl⟩ := List.getElem?_eq_some_iff.mp early_at
  obtain ⟨belowLate, rfl⟩ := List.getElem?_eq_some_iff.mp late_at
  have shorter := longer.length_le
  rcases Nat.lt_or_eq_of_le (Nat.sub_le_sub_right shorter 1) with less | same
  · exact le_of_lt
      (List.pairwise_iff_getElem.mp (chain_ranked checkpoints chain) _ _ belowEarly belowLate less)
  · simp only [same, le_refl]

theorem cursor_advances {κ : Type} (before after : AuditStore κ) (early : Cursors before)
    (late : Cursors after) (onward : Onward before after) (n : Nat) :
    leafCountOf (cursorOf before n) ≤ leafCountOf (cursorOf after n) := by
  obtain ⟨endsEarly, thereEarly⟩ := cursor_last before early n
  obtain ⟨endsLate, thereLate⟩ := cursor_last after late n
  have longer : acknowledgedBy before.acknowledged n <+: acknowledgedBy after.acknowledged n :=
    (onward.acknowledged.filter _).map _
  cases first : cursorOf before n with
  | none => exact Nat.zero_le _
  | some previous =>
      cases last : cursorOf after n with
      | none =>
          rw [last, Option.map_none, List.getLast?_eq_none_iff] at endsLate
          rw [endsLate, List.prefix_nil] at longer
          rw [longer, first] at endsEarly
          cases endsEarly
      | some next =>
          rw [first, Option.map_some] at endsEarly
          rw [last, Option.map_some] at endsLate
          obtain ⟨more, appended⟩ := onward.ledger.appended
          have stands : previous ∈ after.ledger.checkpoints := by
            rw [appended]
            exact List.mem_append_left _ (thereEarly previous first)
          exact positions_advance _ late.chain _ _ longer (late.followed n) previous next stands
            (thereLate next last) endsEarly endsLate

theorem consumer_view_shown (consumer : AuditConsumer) (checkpoint : Option Checkpoint)
    (named : consumer.lastCheckpointId = checkpoint.map Checkpoint.checkpointId)
    (stamped : consumer.lastCheckpointId.isSome = true → consumer.lastAcknowledgedAt.isSome = true) :
    ∃ view, auditConsumerView consumer checkpoint = .ok view ∧ ShowsCursor checkpoint view := by
  cases checkpoint with
  | none =>
      have current : consumer.cursorView none = .ok .null := by
        rw [AuditConsumer.cursorView, named]
        rfl
      refine ⟨_, (bind_ok _ _ _).mpr
        ⟨.null, current,
          (bind_ok _ _ _).mpr ⟨_, iso_column _, (bind_ok _ _ _).mpr ⟨_, iso_column _, rfl⟩⟩⟩, ?_⟩
      rw [ShowsCursor, get_item_dict]
      rfl
  | some checkpoint =>
      rw [Option.map_some] at named
      obtain ⟨acknowledgedAt, moved⟩ := Option.isSome_iff_exists.mp (stamped (by rw [named]; rfl))
      have current : consumer.cursorView (some checkpoint) = .ok (.obj (dict [
          ("checkpoint_id", string checkpoint.checkpointId.toText),
          ("leaf_count", .int checkpoint.leafCount),
          ("last_event_sequence", .int checkpoint.lastEventSequence),
          ("acknowledged_at", .str (utcText acknowledgedAt))])) := by
        rw [AuditConsumer.cursorView, named, moved]
        dsimp only
        rw [iso_column]
        rfl
      refine ⟨_, (bind_ok _ _ _).mpr
        ⟨_, current, (bind_ok _ _ _).mpr ⟨_, iso_column _, (bind_ok _ _ _).mpr ⟨_, iso_column _, rfl⟩⟩⟩,
        acknowledgedAt, ?_⟩
      rw [get_item_dict]
      rfl

section

variable {κ : Type} (stores : Nat → AuditStore κ)

theorem package_reply (packageId : Uuid) : reply (getAuditPackage packageId) stores =
    match (stores 0).byPackageId packageId with
    | none => .error (notFoundError "audit_package" packageId.toText)
    | some package => do
        let view ← auditPackageView package
        return dict [("package", .obj view)] := by
  rw [getAuditPackage, getPackage, LawfulMonad.bind_assoc, reply_look]
  have answer : (stores 0).lookUp (.selectPackage packageId) = (stores 0).byPackageId packageId := rfl
  rw [answer]
  cases (stores 0).byPackageId packageId with
  | none => rfl
  | some package =>
      dsimp only
      rw [LawfulMonad.pure_bind]
      cases auditPackageView package <;> rfl

theorem consumer_reply (consumerId : Uuid) : reply (getAuditConsumer consumerId) stores =
    match (stores 0).byConsumerId consumerId with
    | none => .error (notFoundError "audit_consumer" consumerId.toText)
    | some consumer => do
        let view ← auditConsumerView consumer (consumer.lastCheckpointId.bind (stores 1).ledger.checkpoint)
        return dict [("consumer", .obj view)] := by
  rw [getAuditConsumer, getConsumer, LawfulMonad.bind_assoc, reply_look]
  have answer : (stores 0).lookUp (.selectConsumer consumerId) = (stores 0).byConsumerId consumerId := rfl
  rw [answer]
  cases (stores 0).byConsumerId consumerId with
  | none => rfl
  | some consumer =>
      dsimp only
      rw [LawfulMonad.pure_bind, currentCheckpoint]
      cases consumer.lastCheckpointId with
      | none =>
          dsimp only
          rw [LawfulMonad.pure_bind, Option.bind_none]
          cases auditConsumerView consumer none <;> rfl
      | some checkpointId =>
          dsimp only
          have stored : (stores 1).lookUp (.getCheckpoint checkpointId) =
            (stores 1).ledger.checkpoint checkpointId := rfl
          rw [reply_look, stored, Option.bind_some]
          cases auditConsumerView consumer ((stores 1).ledger.checkpoint checkpointId) <;> rfl

variable (store : AuditStore κ) (filed : Filed store) (cursors : Cursors store)

include filed

theorem by_consumer_found (consumerId : Uuid) (row : AuditConsumer)
    (found : store.byConsumerId consumerId = some row) :
    store.consumers row.id = some row ∧ row.consumerId = consumerId :=
  ⟨(mem_consumer_rows store filed row).mp
    (List.mem_of_find?_eq_some found), by simpa using List.find?_some found⟩

include cursors

theorem by_consumer_kept (n : Nat) (row : AuditConsumer) (held : store.consumers n = some row) :
    store.byConsumerId row.consumerId = some row := by
  have own := (filed.consumers n row held).1
  subst own
  have present : (store.byConsumerId row.consumerId).isSome := by
    rw [AuditStore.byConsumerId, List.find?_isSome]
    exact ⟨row, (mem_consumer_rows store filed row).mpr held, by simp⟩
  obtain ⟨other, is⟩ := Option.isSome_iff_exists.mp present
  obtain ⟨there, named⟩ := by_consumer_found store filed row.consumerId other is
  rw [cursors.distinct other.id row.id other row there held named, held] at there
  rw [is, Option.some.inj there]

end

section

variable {ι κ : Type} [DecidableEq ι] [Fintype ι] [DecidableEq κ] (env : Exporting) (calls : ι → Call)
  (jobs : κ → AuditCall) (moments : Nat → Deployment ι κ)
  (reached : (deploy env calls jobs).Reaches (moments 0))
  (onward : ∀ turn, (moments turn).Reaches (moments (turn + 1)))

include reached onward

-- Polling a package or a consumer never fails once it is there, whatever commits between
-- the statements. What is shown of a package is what its status says, for good once it is
-- ready; what is shown of a consumer is the checkpoint it has read up to, and never an
-- earlier one later on.
theorem displays_are_truthful :
    (∀ packageId, (moments 0).audit.store.byPackageId packageId = none ∧
        reply (getAuditPackage packageId) (fun turn => (moments turn).audit.store) =
          .error (notFoundError "audit_package" packageId.toText) ∨
      ∃ row view, (moments 0).audit.store.byPackageId packageId = some row ∧
        reply (getAuditPackage packageId) (fun turn => (moments turn).audit.store) =
          .ok (dict [("package", .obj view)]) ∧
        getItem "status" view = string row.status.name ∧
        (getItem "artifact" view = .null ↔ row.status ≠ .ready) ∧
        (getItem "failure" view = .null ↔ row.status ≠ .failed) ∧
        (getItem "cancellation" view = .null ↔ row.status ≠ .cancelling ∧ row.status ≠ .cancelled) ∧
        (row.status = .ready → ∀ later : Nat → Deployment ι κ, (moments 0).Reaches (later 0) →
          reply (getAuditPackage packageId) (fun turn => (later turn).audit.store) =
            .ok (dict [("package", .obj view)]))) ∧
    ∀ consumerId, (moments 0).audit.store.byConsumerId consumerId = none ∧
        reply (getAuditConsumer consumerId) (fun turn => (moments turn).audit.store) =
          .error (notFoundError "audit_consumer" consumerId.toText) ∨
      ∃ row view, (moments 0).audit.store.byConsumerId consumerId = some row ∧
        reply (getAuditConsumer consumerId) (fun turn => (moments turn).audit.store) =
          .ok (dict [("consumer", .obj view)]) ∧
        ShowsCursor (cursorOf (moments 0).audit.store row.id) view ∧
        ∀ later : Deployment ι κ, (moments 0).Reaches later →
        ∃ after, later.audit.store.byConsumerId consumerId = some after ∧
          after.id = row.id ∧ leafCountOf (cursorOf (moments 0).audit.store row.id) ≤
            leafCountOf (cursorOf later.audit.store row.id) := by
  have inv := (free_deployed env calls jobs _ reached).disciplined.inv
  refine ⟨fun packageId => ?_, fun consumerId => ?_⟩
  · rw [package_reply]
    cases found : (moments 0).audit.store.byPackageId packageId with
    | none => exact .inl ⟨rfl, rfl⟩
    | some row =>
        obtain ⟨held, rfl⟩ := by_package_found _ inv.life packageId row found
        obtain ⟨view, shown, status, artifact, failure, cancellation⟩ :=
          package_view_shown row (inv.life.order row.id row held)
        refine .inr ⟨row, view, rfl, ?_, status, artifact, failure, cancellation,
          fun ready later further => ?_⟩
        · dsimp only
          rw [shown]
          rfl
        · have forward := forward_run env calls jobs _ _ reached further
          obtain ⟨same, at_later, evolves⟩ := forward.onward.rows row.id row held
          rw [evolves.ready ready] at at_later
          have lives := (free_deployed env calls jobs _ (reached.trans further)).disciplined.inv.life
          rw [package_reply, by_package_kept _ lives row.id row at_later]
          dsimp only
          rw [shown]
          rfl
  · rw [consumer_reply]
    cases found : (moments 0).audit.store.byConsumerId consumerId with
    | none => exact .inl ⟨rfl, rfl⟩
    | some row =>
        obtain ⟨held, rfl⟩ := by_consumer_found _ inv.life.filed consumerId row found
        obtain ⟨ends, listed⟩ := cursor_last _ inv.cursors row.id
        have named := (inv.cursors.cursor row.id row held).trans ends
        have grows := (free_onward env calls jobs _ _ reached (onward 0)).ledger
        have still : row.lastCheckpointId.bind (moments 1).audit.store.ledger.checkpoint =
            cursorOf (moments 0).audit.store row.id := by
          rw [named]
          cases position : cursorOf (moments 0).audit.store row.id with
          | none => rfl
          | some checkpoint =>
              exact grown_checkpoint _ _ grows _ checkpoint
                (distinct_found _ inv.cursors.chain.distinct checkpoint (listed checkpoint position))
        obtain ⟨view, shown, cursor⟩ :=
          consumer_view_shown row (cursorOf (moments 0).audit.store row.id) named
          (stamped_run env calls jobs _ reached row.id row held)
        refine .inr ⟨row, view, rfl, ?_, cursor, fun later further => ?_⟩
        · dsimp only
          rw [still, shown]
          rfl
        · have invLater := (free_deployed env calls jobs _ (reached.trans further)).disciplined.inv
          obtain ⟨after, there, sameId, sameName⟩ :=
            consumers_kept_run env calls jobs _ later reached further row.id row held
          refine ⟨after, ?_, sameId, ?_⟩
          · rw [← sameName]
            exact by_consumer_kept _ invLater.life.filed invLater.cursors row.id after there
          · exact cursor_advances _ _ inv.cursors invLater.cursors
              (free_onward env calls jobs _ later reached further) row.id

end

-- A consumer of the sample that has acknowledged its checkpoint.
theorem sample_display : ∃ (now : Deployment Bool (Fin 3)) (row : AuditConsumer) (view : Dict),
    (deploy sampleExporting sampleCalls sampleConsumer).Reaches now ∧ now.audit.store.consumers 1 = some row ∧
      reply (getAuditConsumer row.consumerId) (fun _ => now.audit.store) =
        .ok (dict [("consumer", .obj view)]) ∧
      ShowsCursor (some sampleCheckpoint) view := by
  obtain ⟨⟨final, rest⟩, run, ⟨row, held, _⟩, own⟩ := sample_acknowledged
  obtain ⟨ledger, reached, sealed⟩ := sample_deployment sampleConsumer _ final rest run
  have deployed := free_deployed sampleExporting sampleCalls sampleConsumer ⟨ledger, final⟩ reached
  have inv := deployed.disciplined.inv
  have seen : final.store.ledger = sampleLedger := deployed.seen.trans sealed
  have found := by_consumer_kept final.store inv.life.filed inv.cursors 1 row held
  have position : cursorOf final.store row.id = some sampleCheckpoint := by
    rw [(inv.life.filed.consumers 1 row held).1, cursorOf, own, seen]
    rfl
  obtain ⟨_, consumers⟩ :=
    displays_are_truthful sampleExporting sampleCalls sampleConsumer
      (fun _ => ⟨ledger, final⟩) reached fun _ => .refl
  rcases consumers row.consumerId with ⟨missing, _⟩ | ⟨other, view, same, shown, cursor, _⟩
  · rw [found] at missing
    cases missing
  · obtain rfl : row = other := Option.some.inj (found.symm.trans same)
    rw [position] at cursor
    exact ⟨_, row, view, reached, held, shown, cursor⟩

end CalibrationLedger
