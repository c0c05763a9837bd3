import CalibrationLedger.Audit.Acknowledgements

set_option autoImplicit false

-- The reasons an acknowledgement is refused for, and the position on the chain each
-- of them means.
namespace CalibrationLedger

open JsonText Digest Interleaving

section

variable (checkpoints : List Checkpoint) (chain : OneChain checkpoints) (n m : Nat) (a b : Checkpoint)

include chain

theorem chain_ids (at_n : checkpoints[n]? = some a) (at_m : checkpoints[m]? = some b) :
    a.checkpointId = b.checkpointId ↔ n = m := by
  constructor
  · intro same
    have bound : n < checkpoints.length := (List.getElem?_eq_some_iff.mp at_n).1
    have inside : n < (checkpoints.map Checkpoint.checkpointId).length := by simpa using bound
    refine (List.getElem?_inj inside (chain_nodup checkpoints chain)).mp ?_
    rw [List.getElem?_map, List.getElem?_map, at_n, at_m]
    exact congrArg some same
  · rintro rfl
    rw [at_n] at at_m
    rw [Option.some.inj at_m]

theorem chain_counts (at_n : checkpoints[n]? = some a) (at_m : checkpoints[m]? = some b) (less : n < m) :
    a.leafCount < b.leafCount := by
  have counted : checkpoints.Pairwise fun previous next => previous.leafCount < next.leafCount := by
    have linked := chain.linked.imp fun previous next follows => follows.counts
    have _ : Trans (fun previous next : Checkpoint => previous.leafCount < next.leafCount)
        (fun previous next : Checkpoint => previous.leafCount < next.leafCount)
        (fun previous next : Checkpoint => previous.leafCount < next.leafCount) :=
          ⟨fun first second => Nat.lt_trans first second⟩
    exact linked.pairwise
  obtain ⟨bound, rfl⟩ := List.getElem?_eq_some_iff.mp at_n
  obtain ⟨limit, rfl⟩ := List.getElem?_eq_some_iff.mp at_m
  exact List.pairwise_iff_getElem.mp counted n m bound limit less

theorem first_link (at_first : checkpoints[0]? = some a) : a.previousCheckpointId = none :=
  (chain.genesis a (by rw [List.head?_eq_getElem?, at_first])).1

theorem next_link (at_next : checkpoints[n + 1]? = some a) : ∃ previous, checkpoints[n]? = some previous ∧
    a.previousCheckpointId = some previous.checkpointId := by
  obtain ⟨bound, rfl⟩ := List.getElem?_eq_some_iff.mp at_next
  exact ⟨checkpoints[n], List.getElem?_eq_getElem (by omega),
    ((List.isChain_iff_getElem.mp chain.linked) n bound).link⟩

theorem classify_first (submitted : Checkpoint) (at_n : checkpoints[n]? = some submitted) :
    classify none submitted = if n = 0 then none else some .notFirst := by
  rw [classify]
  cases n with
  | zero => rw [if_pos (first_link checkpoints chain submitted at_n), if_pos rfl]
  | succ k =>
      obtain ⟨previous, _, link⟩ := next_link checkpoints chain k submitted at_n
      rw [if_neg (by rw [link]; simp), if_neg (by omega)]

theorem classify_position (submitted current : Checkpoint) (at_n : checkpoints[n]? = some submitted)
    (at_m : checkpoints[m]? = some current) : classify (some current) submitted =
      if n = m + 1 then none else if n = m then some .duplicate else if n <
          m then some .regressed else some .skipped := by
  rw [classify]
  rcases Nat.lt_trichotomy n m with before | rfl | after
  · rw [if_neg (by rw [chain_ids checkpoints chain n m submitted current at_n at_m]; omega),
      if_pos (chain_counts checkpoints chain n m submitted current at_n at_m before), if_neg (by omega),
      if_neg (by omega), if_pos before]
  · rw [if_pos ((chain_ids checkpoints chain n n submitted current at_n at_m).mpr rfl),
      if_neg (by omega), if_pos rfl]
  · have later := chain_counts checkpoints chain m n current submitted at_m at_n after
    obtain ⟨k, rfl⟩ : ∃ k, n = k + 1 := ⟨n - 1, by omega⟩
    obtain ⟨previous, at_k, link⟩ := next_link checkpoints chain k submitted at_n
    rw [if_neg (by rw [chain_ids checkpoints chain (k + 1) m submitted current at_n at_m]; omega),
      if_neg (by omega), link]
    by_cases next : k = m
    · have named := (chain_ids checkpoints chain k m previous current at_k at_m).mpr next
      rw [named, if_neg (by simp), if_pos (by omega)]
    · have apart : previous.checkpointId ≠ current.checkpointId := by
        rw [Ne, chain_ids checkpoints chain k m previous current at_k at_m]
        exact next
      rw [if_pos (by simpa using apart), if_neg (by omega), if_neg (by omega), if_neg (by omega)]

end

theorem passed_reason (checkpoints : List Checkpoint) (chain : OneChain checkpoints) (ids : List Uuid)
    (followed : ids <+: checkpoints.map Checkpoint.checkpointId) (current : Option Checkpoint)
    (known : ∀ checkpoint, current = some checkpoint → checkpoint ∈ checkpoints)
    (cursor : current.map Checkpoint.checkpointId = ids.getLast?) (submitted : Checkpoint)
    (member : submitted ∈ checkpoints) (passed : submitted.checkpointId ∈ ids) :
    ∃ reason, classify current submitted = some reason ∧ (reason = .duplicate ∨ reason = .regressed) := by
  have nodup := chain_nodup checkpoints chain
  obtain ⟨more, whole⟩ := followed
  obtain ⟨earlier, later, split, rfl, rfl⟩ := List.map_eq_append_iff.mp whole.symm
  obtain ⟨found, early, named⟩ := List.mem_map.mp passed
  have same : found = submitted :=
    List.inj_on_of_nodup_map nodup (by rw [split]; exact List.mem_append_left _ early) member named
  subst same
  obtain ⟨n, bound, at_n⟩ := List.mem_iff_getElem.mp early
  have last : earlier.getLast? = some (earlier[earlier.length - 1]) := by
    rw [List.getLast?_eq_getElem?, List.getElem?_eq_getElem]
  rw [List.getLast?_map, last] at cursor
  obtain ⟨checkpoint, rfl, names⟩ := Option.map_eq_some_iff.mp cursor
  have isLast : earlier[earlier.length - 1] = checkpoint :=
    List.inj_on_of_nodup_map nodup (by rw [split]; exact List.mem_append_left _ (List.getElem_mem _))
      (known checkpoint rfl) names.symm
  have placed := classify_position checkpoints chain n (earlier.length - 1) found checkpoint
    (by rw [split, List.getElem?_append_left bound, List.getElem?_eq_getElem bound, at_n])
    (by rw [split, List.getElem?_append_left (by omega), List.getElem?_eq_getElem (by omega), isLast])
  rw [placed, if_neg (by omega)]
  by_cases here : n = earlier.length - 1
  · exact ⟨.duplicate, by rw [if_pos here], .inl rfl⟩
  · exact ⟨.regressed, by rw [if_neg here, if_pos (by omega)], .inr rfl⟩

section

variable {κ : Type}

-- The cursor of the consumer was once there.
def CursorWasAt (n : Nat) (cursor : Option Uuid) (store : AuditStore κ) : Prop :=
  ∃ ids, ids <+: acknowledgedBy store.acknowledged n ∧ ids.getLast? = cursor

-- It was there, and the checkpoint acknowledged by then.
def CursorWasPast (n : Nat) (checkpointId : Uuid) (cursor : Option Uuid) (store : AuditStore κ) : Prop :=
  ∃ ids, ids <+: acknowledgedBy store.acknowledged n ∧ ids.getLast? = cursor ∧ checkpointId ∈ ids

-- What is read for a cursor.
def ReadForCursor (cursor : Option Uuid) (current : Option Checkpoint) (store : AuditStore κ) : Prop :=
  current.map Checkpoint.checkpointId = cursor ∧ ∀ checkpoint, current = some checkpoint →
    checkpoint ∈ store.ledger.checkpoints

theorem acknowledged_by_grows (before after : List (Acknowledgement κ)) (n : Nat) (grows : before <+: after) :
    acknowledgedBy before n <+: acknowledgedBy after n := (grows.filter _).map _

theorem cursor_once (store : AuditStore κ) (cursors : Cursors store) (n : Nat) (row : AuditConsumer)
    (found : store.consumers n = some row) : CursorWasAt n row.lastCheckpointId store :=
  ⟨acknowledgedBy store.acknowledged n, List.prefix_rfl, (cursors.cursor n row found).symm⟩

theorem cursor_was_at_stored (store : AuditStore κ) (cursors : Cursors store) (n : Nat)
    (checkpointId : Uuid) (once : CursorWasAt n (some checkpointId) store) :
    ∃ checkpoint, store.ledger.checkpoint checkpointId = some checkpoint := by
  obtain ⟨ids, followed, last⟩ := once
  have member : checkpointId ∈ store.ledger.checkpoints.map Checkpoint.checkpointId :=
    (followed.trans (cursors.followed n)).subset (List.mem_of_getLast? last)
  obtain ⟨checkpoint, inside, named⟩ := List.mem_map.mp member
  refine ⟨checkpoint, ?_⟩
  rw [← named]
  exact distinct_found _ cursors.chain.distinct checkpoint inside

-- The cursor moved on from the predecessor, so past what follows it.
theorem lost_passed (store : AuditStore κ) (cursors : Cursors store) (n : Nat) (row : AuditConsumer)
    (found : store.consumers n = some row) (cursor : Option Uuid) (once : CursorWasAt n cursor store)
    (moved : row.lastCheckpointId ≠ cursor) (submitted : Checkpoint)
    (member : submitted ∈ store.ledger.checkpoints) (follows : submitted.previousCheckpointId = cursor) :
    submitted.checkpointId ∈ acknowledgedBy store.acknowledged n := by
  obtain ⟨ids, early, last⟩ := once
  have followed := cursors.followed n
  have next := followed_next _ cursors.chain ids (early.trans followed) submitted member
    (follows.trans last.symm)
  obtain ⟨more, whole⟩ := early
  have longer : more ≠ [] := by
    rintro rfl
    rw [List.append_nil] at whole
    exact moved ((cursors.cursor n row found).trans (by rw [← whole, last]))
  have reaches : (ids ++ [submitted.checkpointId]).length ≤ (acknowledgedBy store.acknowledged n).length := by
    rw [← whole]
    have := List.length_pos_iff.mpr longer
    simp
    omega
  exact (List.prefix_of_prefix_length_le next followed reaches).subset (by simp)

end

section

variable {κ : Type} [DecidableEq κ] {i : κ}

theorem lasts_cursor_was_at (n : Nat) (cursor : Option Uuid) :
    Lasts (onwardDiscipline κ) i (CursorWasAt n cursor) := by
  rintro store now inv rely ⟨ids, early, last⟩
  exact ⟨ids, early.trans (acknowledged_by_grows _ _ n rely.2.acknowledged), last⟩

theorem lasts_cursor_was_past (n : Nat) (checkpointId : Uuid) (cursor : Option Uuid) :
    Lasts (onwardDiscipline κ) i (CursorWasPast n checkpointId cursor) := by
  rintro store now inv rely ⟨ids, early, last, passed⟩
  exact ⟨ids, early.trans (acknowledged_by_grows _ _ n rely.2.acknowledged), last, passed⟩

theorem lasts_passed (n : Nat) (checkpointId : Uuid) :
    Lasts (onwardDiscipline κ) i fun store => checkpointId ∈ acknowledgedBy store.acknowledged n :=
  fun _ _ _ rely passed => (acknowledged_by_grows _ _ n rely.2.acknowledged).subset passed

theorem lasts_read_for_cursor (cursor : Option Uuid) (current : Option Checkpoint) :
    Lasts (onwardDiscipline κ) i (ReadForCursor cursor current) := by
  rintro store now inv rely ⟨named, known⟩
  obtain ⟨more, appended⟩ := rely.1.ledger.appended
  refine ⟨named, fun checkpoint is => ?_⟩
  rw [appended]
  exact List.mem_append_left _ (known checkpoint is)

theorem learns_read_for_cursor (bad : AuditError → AuditStore κ → Prop)
    (lastsBad : ∀ error, Lasts (onwardDiscipline κ) i (bad error)) (gone : ∀ now, bad .database now)
    (kept : AuditStore κ → Prop) (lasts : Lasts (onwardDiscipline κ) i kept) (n : Nat)
    (cursor : Option Uuid) (store : AuditStore κ) (holds : kept store)
    (once : CursorWasAt n cursor store) :
    Learns (onwardDiscipline κ) i (fun current now => kept now ∧ ReadForCursor cursor current now) bad
      (cursorCheckpoint cursor) store := by
  cases cursor with
  | none =>
      refine learns_pure (onwardDiscipline κ) i bad store
        (fun current now => kept now ∧ ReadForCursor none current now) none ?_ ?_
      · exact lasts_and _ i _ _ lasts (lasts_read_for_cursor none none)
      · exact ⟨holds, rfl, fun _ is => by cases is⟩
  | some checkpointId =>
      refine learns_query bad store
        (.getCheckpoint checkpointId) _ (fun _ => lasts_and _ i _ _ lasts
          (lasts_read_for_cursor _ _)) lastsBad
        fun now inv rely => ⟨gone now, fun choice => ⟨lasts store now inv rely holds, ?_⟩⟩
      obtain ⟨checkpoint, found⟩ :=
        cursor_was_at_stored now inv.cursors n checkpointId (lasts_cursor_was_at n _ store now inv rely once)
      change ReadForCursor (some checkpointId) (now.ledger.checkpoint checkpointId) now
      rw [found]
      refine ⟨congrArg some (found_boundary_read checkpointId now checkpoint found).1, ?_⟩
      rintro _ ⟨⟩
      exact List.mem_of_find?_eq_some found

-- What a call that lost its compare-and-set raises.
def LostRaceAnswer {α : Type} (checkpointId : Uuid) (outcome : Except AuditError α) : Prop :=
  outcome = .error .database ∨ ∃ row reason current submitted,
    outcome = .error (.raised (acknowledgementConflict row reason current submitted)) ∧
    submitted.checkpointId = checkpointId ∧
    row.lastCheckpointId = current.map Checkpoint.checkpointId ∧ classify current submitted = some reason ∧
    (reason = .duplicate ∨ reason = .regressed)

-- The cursor is only reloaded once the compare-and-set is lost.
def LostRaceAnswered {α : Type} (i : κ) (checkpointId : Uuid) (statement : AuditStatement)
    (resume : AuditResponse statement → Program AuditSql (Except AuditError α)) (store : AuditStore κ) :
    Prop :=
  ∀ n, statement = .sql (.reloadConsumer n) →
    Ensures (onwardDiscipline κ) i (fun outcome _ => LostRaceAnswer checkpointId outcome)
      (.call statement resume) store

def AuditStatement.Unraced (statement : AuditStatement) : Prop := ∀ n, statement ≠ .sql (.reloadConsumer n)

theorem unraced_lost_race_answered {α : Type} (checkpointId : Uuid) (statement : AuditStatement)
    (resume : AuditResponse statement → Program AuditSql (Except AuditError α)) (store : AuditStore κ)
    (unraced : statement.Unraced) : LostRaceAnswered i checkpointId statement resume store :=
  fun n is => absurd is (unraced n)

omit [DecidableEq κ] in
theorem query_run {α : Type} (request : AuditQuery) (next : Reply request → AuditTx α) :
    (query request >>= next).run =
      .call (.sql request) fun reply => reply.elim (.done (.error .database)) fun reply =>
        (next reply).run := by
  refine congrArg (Program.call (S := AuditSql) (.sql request)) (funext fun reply => ?_)
  cases reply <;> rfl

theorem learns_lost_race_answer (n : Nat) (consumerId checkpointId : Uuid) (submitted : Checkpoint)
    (next : Option AuditConsumer → AuditTx (AuditConsumer × Checkpoint))
    (present : ∀ reloaded, next (some reloaded) = cursorCheckpoint reloaded.lastCheckpointId >>= fun cursor =>
      raising (.error (acknowledgementConflict reloaded
          ((classify cursor submitted).getD .skipped) cursor submitted)))
    (store : AuditStore κ) (known : Submitted checkpointId submitted store)
    (registered : Registered consumerId n store)
    (passed : submitted.checkpointId ∈ acknowledgedBy store.acknowledged n) :
    Learns (onwardDiscipline κ) i (fun (_ : AuditConsumer × Checkpoint) _ => False)
      (fun error _ => LostRaceAnswer checkpointId
        (.error error : Except AuditError (AuditConsumer × Checkpoint)))
      (query (.reloadConsumer n) >>= next) store := by
  have lastsBad : ∀ error : AuditError, Lasts (onwardDiscipline κ) i
      fun _ => LostRaceAnswer checkpointId
        (.error error : Except AuditError (AuditConsumer × Checkpoint)) := fun _ _ _ _ _ held => held
  have lastsKnown : Lasts (onwardDiscipline κ) i (Submitted checkpointId submitted) :=
    fun store now inv rely => lasts_submitted checkpointId submitted store now inv rely.1
  refine learns_bind _ i _ store (fun found (now : AuditStore κ) => Submitted checkpointId submitted now ∧
      ∃ reloaded, found = some reloaded ∧
      CursorWasPast n submitted.checkpointId reloaded.lastCheckpointId now) _ lastsBad _ _
    (learns_query _ store (.reloadConsumer n) _ (fun found => ?_) lastsBad fun now inv rely => ?_)
      fun found now inv held => ?_
  · refine lasts_and _ i _ _ lastsKnown ?_
    rintro before later inv rely ⟨reloaded, is, beyond⟩
    exact ⟨reloaded, is, lasts_cursor_was_past n _ _ before later inv rely beyond⟩
  · refine ⟨.inl rfl, fun choice => ⟨lastsKnown store now inv rely known, ?_⟩⟩
    obtain ⟨row, found, _⟩ := lasts_registered consumerId n store now inv rely.1 registered
    exact ⟨row, found, acknowledgedBy now.acknowledged n, List.prefix_rfl,
      (inv.cursors.cursor n row found).symm,
      lasts_passed n _ store now inv rely passed⟩
  · obtain ⟨known, reloaded, rfl, beyond⟩ := held
    have once : CursorWasAt n reloaded.lastCheckpointId now := by
      obtain ⟨ids, early, last, _⟩ := beyond
      exact ⟨ids, early, last⟩
    rw [present]
    refine learns_bind _ i _ now _ _ lastsBad _ _ (learns_read_for_cursor _ lastsBad (fun _ => .inl rfl) _
      (lasts_and _ i _ _ lastsKnown
        (lasts_cursor_was_past n submitted.checkpointId reloaded.lastCheckpointId)) n _ now
        ⟨known, beyond⟩ once)
      fun cursor later inv held => ?_
    obtain ⟨⟨⟨named, member⟩, ids, early, last, inside⟩, is, standing⟩ := held
    obtain ⟨reason, classified, truthful⟩ :=
      passed_reason _ inv.cursors.chain ids (early.trans (inv.cursors.followed n)) cursor standing
      (is.trans last.symm) submitted member inside
    refine learns_throw _ i _ later _ _ (lastsBad _)
      (.inr ⟨reloaded, reason, cursor, submitted, ?_, named, is.symm, classified, truthful⟩)
    rw [classified]
    rfl

theorem along_lost_race_answered (n : Nat) (consumerId checkpointId : Uuid) (submitted : Checkpoint)
    (next : Option AuditConsumer → AuditTx (AuditConsumer × Checkpoint))
    (absent : next none = raising (.error .attributeError))
    (present : ∀ reloaded, next (some reloaded) = cursorCheckpoint reloaded.lastCheckpointId >>= fun cursor =>
      raising (.error (acknowledgementConflict reloaded
          ((classify cursor submitted).getD .skipped) cursor submitted)))
    (store : AuditStore κ) (known : Submitted checkpointId submitted store)
    (registered : Registered consumerId n store)
    (passed : submitted.checkpointId ∈ acknowledgedBy store.acknowledged n) :
    Along (onwardDiscipline κ) i (LostRaceAnswered i checkpointId)
        (query (.reloadConsumer n) >>= next).run store := by
  have raced := learns_lost_race_answer
    (i := i) n consumerId checkpointId submitted next present store known registered passed
  rw [Learns, query_run] at raced
  rw [query_run]
  intro later inv rely pre
  refine ⟨fun _ _ => ?_, fun response after before left answer => ?_⟩
  · refine ensures_mono _ i _ _ _ later (fun outcome _ found => ?_)
      (ensures_stable _ i _ _ store later rely raced)
    cases outcome with
    | ok value => exact found.elim
    | error error => exact found
  · refine along_confined _ i _ AuditStatement.Unraced (unraced_lost_race_answered checkpointId) _ after ?_
    rcases response with _ | _ | reloaded
    · trivial
    · change Confined AuditStatement.Unraced (next none).run
      rw [absent]
      trivial
    · change Confined AuditStatement.Unraced (next (some reloaded)).run
      rw [present]
      refine issues_only_bind (S := AuditSql) _ _ _ ?_ fun cursor => issues_only_raising _ _
      cases reloaded.lastCheckpointId with
      | none => trivial
      | some cursor => exact issues_only_query _ (.getCheckpoint cursor) (by rintro n ⟨⟩)

theorem along_advance (consumerId checkpointId : Uuid) (consumer : AuditConsumer)
    (current : Option Checkpoint) (submitted : Checkpoint) (store : AuditStore κ)
    (follows : classify current submitted = none) (registered : Registered consumerId consumer.id store)
    (once : CursorWasAt consumer.id (current.map Checkpoint.checkpointId) store)
    (known : Submitted checkpointId submitted store) :
    Along (onwardDiscipline κ) i (LostRaceAnswered i checkpointId) (do
        let now ← issue .clock
        let expected := current.map Checkpoint.checkpointId
        match ← committed (← query (.advanceCursor consumer.id expected submitted.checkpointId now)) with
        | some advanced => return (advanced, submitted)
        | none =>
            match ← query (.reloadConsumer consumer.id) with
            | none => raising (.error .attributeError)
            | some reloaded =>
                let cursor ← cursorCheckpoint reloaded.lastCheckpointId
                let reason := (classify cursor submitted).getD .skipped
                raising (.error (acknowledgementConflict reloaded reason cursor submitted)) :
          AuditTx (AuditConsumer × Checkpoint)).run store := by
  have free : ∀ error : AuditError, Lasts (onwardDiscipline κ) i fun _ => True := fun _ _ _ _ _ _ => trivial
  have lasts : Lasts (onwardDiscipline κ) i fun now => Registered consumerId consumer.id now ∧
      Submitted checkpointId submitted now :=
    lasts_and _ i _ _ (fun store now inv rely => lasts_registered consumerId consumer.id store now inv rely.1)
      fun store now inv rely => lasts_submitted checkpointId submitted store now inv rely.1
  have lastsOnce :=
    lasts_and _ i _ _ lasts (lasts_cursor_was_at consumer.id (current.map Checkpoint.checkpointId))
  refine along_after AuditStatement.Unraced
      (onwardDiscipline κ) i _ (unraced_lost_race_answered checkpointId) (fun _ now =>
      (Registered consumerId consumer.id now ∧ Submitted checkpointId submitted now) ∧
        CursorWasAt consumer.id (current.map Checkpoint.checkpointId) now) _ _ store
          (issues_only_issue _ .clock (by rintro n ⟨⟩)) ?_
    fun moment read inv all => ?_
  · refine learns_statement _ i _ store _ _ (fun _ => lastsOnce) fun now inv rely _ response next before
      after answer => ?_
    cases answer
    exact lastsOnce store now inv rely ⟨⟨registered, known⟩, once⟩
  -- a refused update moved past the checkpoint
  refine along_after AuditStatement.Unraced
      (onwardDiscipline κ) i _ (unraced_lost_race_answered checkpointId) (fun reply (now : AuditStore κ) =>
      reply = .ok none → (Registered consumerId consumer.id now ∧ Submitted checkpointId submitted now) ∧
        submitted.checkpointId ∈ acknowledgedBy now.acknowledged consumer.id) _ _ read
    (issues_only_query _ (.advanceCursor consumer.id _ submitted.checkpointId moment) (by rintro n ⟨⟩))
    (learns_query _ read _ _ (fun reply => ?_) free fun now inv rely => ?_) fun reply now inv lost => ?_
  · exact fun before later inv rely held is =>
      lasts_and _ i _ _ lasts
        (lasts_passed consumer.id submitted.checkpointId) before later inv rely (held is)
  · refine ⟨trivial, fun choice refused => ?_⟩
    obtain ⟨⟨registered, known⟩, once⟩ := lastsOnce read now inv rely all
    obtain ⟨row, found, named⟩ := registered
    unfold AuditStore.answer AuditStore.advanceCursor at refused ⊢
    dsimp only at refused ⊢
    rw [found] at refused ⊢
    dsimp only at refused ⊢
    by_cases moved : row.lastCheckpointId = current.map Checkpoint.checkpointId
    · rw [if_neg (by simp [moved])] at refused
      split at refused <;> cases refused
    · rw [if_pos moved]
      exact ⟨⟨⟨row, found, named⟩, known⟩,
        lost_passed now inv.cursors consumer.id row found _ once moved submitted known.2
        (classify_follows current submitted follows)⟩
  · rcases reply with rejection | _ | advanced
    · trivial
    · obtain ⟨⟨registered, known⟩, passed⟩ := lost rfl
      change Along _ i _ (query (.reloadConsumer consumer.id) >>= _).run now
      exact along_lost_race_answered consumer.id consumerId checkpointId submitted _ rfl (fun _ => rfl)
        now known registered passed
    · trivial

theorem along_acknowledge (consumerId checkpointId : Uuid) (store : AuditStore κ) :
    Along (onwardDiscipline κ) i (LostRaceAnswered i checkpointId)
      (acknowledgeCheckpoint consumerId checkpointId).run store := by
  have free : ∀ error : AuditError, Lasts (onwardDiscipline κ) i fun _ => True := fun _ _ _ _ _ _ => trivial
  have lastsOnce : ∀ consumer : AuditConsumer, Lasts (onwardDiscipline κ) i fun now =>
      Registered consumerId consumer.id now ∧ CursorWasAt consumer.id consumer.lastCheckpointId now :=
        fun consumer =>
    lasts_and _ i _ _ (fun store now inv rely =>
        lasts_registered consumerId consumer.id store now inv rely.1) (lasts_cursor_was_at _ _)
  refine along_after AuditStatement.Unraced
    (onwardDiscipline κ) i _ (unraced_lost_race_answered checkpointId)
    (fun found now => ∀ consumer, found = some consumer →
      Registered consumerId consumer.id now ∧ CursorWasAt consumer.id consumer.lastCheckpointId now) _ _ store
    (issues_only_query _ (.selectConsumer consumerId) (by rintro n ⟨⟩))
    (learns_query _ store _ _ (fun found => ?_) free fun now inv rely => ?_) fun found now inv held => ?_
  · exact fun before later inv rely known consumer is =>
      lastsOnce consumer before later inv rely (known consumer is)
  · refine ⟨trivial, fun choice consumer found => ?_⟩
    have stored := (mem_consumer_rows now inv.life.filed consumer).mp (List.mem_of_find?_eq_some found)
    exact ⟨⟨consumer, stored, by simpa using List.find?_some found⟩,
      cursor_once now inv.cursors consumer.id consumer stored⟩
  cases found with
  | none => trivial
  | some consumer =>
      have held := held consumer rfl
      have lastsKnown : ∀ submitted, Lasts (onwardDiscipline κ) i fun now =>
          (Registered consumerId consumer.id now ∧
                CursorWasAt consumer.id consumer.lastCheckpointId now) ∧
              Submitted checkpointId submitted now :=
        fun submitted => lasts_and _ i _ _ (lastsOnce consumer) fun store now inv rely =>
          lasts_submitted checkpointId submitted store now inv rely.1
      refine along_after AuditStatement.Unraced
        (onwardDiscipline κ) i _ (unraced_lost_race_answered checkpointId)
        (fun found now => ∀ submitted, found = some submitted →
          (Registered consumerId consumer.id now ∧
            CursorWasAt consumer.id consumer.lastCheckpointId now) ∧
            Submitted checkpointId submitted now) _ _ now
        (issues_only_query _ (.getCheckpoint checkpointId) (by rintro n ⟨⟩))
        (learns_query _ now _ _ (fun found => ?_) free fun later inv rely => ?_) fun found later
          inv known => ?_
      · exact fun before later inv rely known submitted is =>
          lastsKnown submitted before later inv rely (known submitted is)
      · refine ⟨trivial, fun choice submitted found => ⟨lastsOnce consumer now later inv rely held, ?_⟩⟩
        exact ⟨(found_boundary_read checkpointId later submitted found).1, List.mem_of_find?_eq_some found⟩
      cases found with
      | none => trivial
      | some submitted =>
          refine along_after AuditStatement.Unraced
            (onwardDiscipline κ) i _ (unraced_lost_race_answered checkpointId) _ _ _ later ?_
              (learns_read_for_cursor _ free (fun _ => trivial) _
            (lastsKnown submitted) consumer.id consumer.lastCheckpointId later (known submitted rfl)
            (known submitted rfl).1.2)
            fun current read inv all => ?_
          · cases consumer.lastCheckpointId with
            | none => trivial
            | some cursor => exact issues_only_query _ (.getCheckpoint cursor) (by rintro n ⟨⟩)
          cases follows : classify current submitted with
          | some reason => trivial
          | none =>
              exact along_advance consumerId checkpointId consumer current submitted read follows
                all.1.1.1 (by rw [all.2.1]; exact all.1.1.2) all.1.2

end

section

variable {ι κ : Type} [DecidableEq ι] [Fintype ι] [DecidableEq κ] (env : Exporting) (calls : ι → Call)
  (jobs : κ → AuditCall)

theorem acknowledge_lost_race_answered (now : Deployment ι κ)
    (reached : (deploy env calls jobs).Reaches now) (i : κ) (consumerId checkpointId : Uuid)
    (asks : jobs i = .acknowledge consumerId checkpointId)
    (program : Program AuditSql (Except AuditError AuditOutcome))
    (session : now.audit.sessions i = some program) :
    Along (onwardDiscipline κ) i (LostRaceAnswered i checkpointId) program now.audit.store := by
  refine session_run env calls jobs i (Along (onwardDiscipline κ) i (LostRaceAnswered i checkpointId))
    (fun program store later _ rely => along_stable _ i _ program store later rely)
    (fun query resume store before response next after inv owed answer along =>
      (along store inv ((onwardDiscipline κ).rely_refl i store) owed).2 response next before after answer)
    _ now .refl reached ?_ program session
  rintro _ ⟨⟩
  rw [asks]
  refine along_before _ i
    (LostRaceAnswered i checkpointId) _ _ _ _ (fun query resume later races n is => ?_)
    (fun outcome later => ?_)
    (along_acknowledge consumerId checkpointId _)
  · refine ensures_bind _ i _ _ (.call query resume) _ later (races n is) fun outcome last inv raced => ?_
    obtain rfl | ⟨row, reason, current, submitted, rfl, truthful⟩ := raced
    · exact fun _ _ _ => .inl rfl
    · exact fun _ _ _ => .inr ⟨row, reason, current, submitted, rfl, truthful⟩
  · cases outcome <;> trivial

theorem conflicts_are_truthful (now : Deployment ι κ) (reached : (deploy env calls jobs).Reaches now) :
    (∀ n submitted, now.ledger.store.checkpoints[n]? = some submitted →
      classify none submitted = if n = 0 then none else some .notFirst) ∧
    (∀ n m submitted current, now.ledger.store.checkpoints[n]? = some submitted →
      now.ledger.store.checkpoints[m]? = some current →
      classify (some current) submitted =
        if n = m + 1 then none else if n = m then some .duplicate else if n <
          m then some .regressed else some .skipped) ∧
    ∀ i consumerId checkpointId, jobs i = .acknowledge consumerId checkpointId →
      ∀ n resume, now.audit.sessions i = some (.call (.sql (.reloadConsumer n)) resume) →
      ∀ later : Deployment ι κ, now.Reaches later →
      ∀ outcome, finished (auditing κ) later.audit i = some outcome →
        LostRaceAnswer checkpointId outcome := by
  have deployed := free_deployed env calls jobs now reached
  have chain : OneChain now.ledger.store.checkpoints :=
    sound_one_chain env.toRuntime _ _ (history_sound env.toRuntime calls now.ledger deployed.ledger)
  refine ⟨fun n submitted at_n => classify_first _ chain n submitted at_n,
    fun n m submitted current at_n at_m => classify_position _ chain n m submitted current at_n at_m,
    fun i consumerId checkpointId asks n resume active later onward outcome ended => ?_⟩
  have races := acknowledge_lost_race_answered env calls jobs now reached i consumerId checkpointId
    asks _ active
  have inv : (onwardDiscipline κ).Inv now.audit.store := deployed.disciplined.inv
  have owed := (deployed.disciplined.verified i _ active _ inv (audit_rely_refl False nameless i _)).1
  have lost := (races now.audit.store inv ((onwardDiscipline κ).rely_refl i _) owed).1 n rfl
  have ensures := session_run env calls jobs i
    (Ensures (onwardDiscipline κ) i fun outcome _ => LostRaceAnswer checkpointId outcome)
    (fun program store later _ rely => ensures_stable _ i _ program store later rely)
    (fun query resume store before response next after inv owed answer ensures =>
      ensures store inv ((onwardDiscipline κ).rely_refl i store) owed response next before after answer)
    now later reached onward
      (fun program session => by rw [active] at session; cases session; exact lost) (.done outcome)
    ((finished_done (auditing κ) later.audit i outcome).mp ended)
  have last := free_deployed env calls jobs later (reached.trans onward)
  exact ensures later.audit.store last.disciplined.inv ((onwardDiscipline κ).rely_refl i _)

end

def refusal : Except AuditError AuditOutcome → Option AuditError
  | .ok _ => none
  | .error error => some error

-- The second of two calls that both read an unset cursor comes to reload it.
def reloads : Option (Program AuditSql (Except AuditError AuditOutcome)) → Bool
  | some (.call (.sql (.reloadConsumer _)) _) => true
  | _ => false

theorem reloads_active (session : Option (Program AuditSql (Except AuditError AuditOutcome)))
    (comes : reloads session = true) :
    ∃ n resume, session = some (.call (.sql (.reloadConsumer n)) resume) := by
  unfold reloads at comes
  split at comes
  · exact ⟨_, _, rfl⟩
  · cases comes

theorem sample_conflict_raced :
    ∃ now later : Deployment Bool (Fin 3), (deploy sampleExporting sampleCalls sampleConsumer).Reaches now ∧
    now.Reaches later ∧ reloads (now.audit.sessions 2) = true ∧
    ∃ error, finished (auditing (Fin 3)) later.audit 2 = some (.error error) ∧ error ≠ .database ∧
      LostRaceAnswer (sampleUuid 2) (.error error : Except AuditError AuditOutcome) := by
  have ran : ∃ mid ∈ runSchedule (auditing (Fin 3)) ([0, 0, 0, 0] ++ [1, 2, 1, 2, 1, 2, 1, 2])
    (sampleSessions sampleConsumer) sampleChoices,
      reloads (mid.1.sessions 2) = true ∧ ∃ final ∈ runSchedule (auditing (Fin 3)) [2, 2] mid.1 mid.2,
        ∃ outcome ∈ finished (auditing (Fin 3)) final.1 2, ∃ error ∈ refusal outcome,
        error ≠ AuditError.database := by decide +kernel
  obtain ⟨⟨mid, left⟩, run, comes, ⟨final, rest⟩, onward, outcome, ended, error, refused, served⟩ := ran
  obtain ⟨ledger, reached, _⟩ := sample_deployment sampleConsumer _ mid left run
  obtain ⟨n, resume, active⟩ := reloads_active _ comes
  have later := audit_reaches (ι := Bool) ⟨ledger, mid⟩ final
    (run_schedule_reaches (auditing (Fin 3)) _ _ _ _ _ onward)
  have raced := (conflicts_are_truthful sampleExporting sampleCalls sampleConsumer _ reached).2.2
    2 _ _ rfl n resume active _ later outcome ended
  cases outcome with
  | ok value => cases refused
  | error found =>
      cases refused
      exact ⟨_, _, reached, later, comes, error, ended, served, raced⟩

end CalibrationLedger
