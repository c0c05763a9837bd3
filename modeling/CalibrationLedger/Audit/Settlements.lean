import CalibrationLedger.Audit.Reports

set_option autoImplicit false

-- Who settles a cancellation, and what becomes of the row then.
namespace CalibrationLedger

open JsonText Digest Interleaving Histories

section

variable {κ : Type}

-- The transaction reports its package as settled or CANCELLED.
def Entry.settles (entry : Entry κ) : Bool :=
  match entry.action with
  | .settle _ => true
  | .terminal _ _ (.status .cancelled) => true
  | _ => false

-- Somebody has settled the row since this one read it, and it does not look again:
-- the UPDATE of settle_stale_cancelling and the last branch of _fail_or_cancel.
def Entry.late (entry : Entry κ) : Bool :=
  match entry.action, entry.before with
  | .settle _, some old => old.status = .cancelled
  | .terminal .failOrCancel _ _, some old => old.status = .cancelled
  | _, _ => false

theorem settles_moves (entry : Entry κ) (lawful : LawfulEntry entry) (settles : entry.settles = true)
    (prompt : entry.late = false) :
    entry.movesTo .cancelled := by
  cases lawful with
  | created caller row pending uncounted => cases settles
  | declined caller action id found declines =>
      cases declines with
      | missing exit claimed => cases settles
      | superseded exit claimed old early done => cases settles
      | lost exit claimed old lost =>
          have done : old.status = .cancelled := by
            cases status : old.status <;> simp [Entry.settles, status] at settles ⊢
          cases exit with
          | finalWrite => exact absurd done lost.2.1
          | finishCancelled => exact absurd done lost.1
          | failOrCancel => simp [Entry.late, done] at prompt
      | retry old => cases settles
      | cancel old => cases settles
  | moved caller action id old new moves =>
      cases moves with
      | settle old moment due =>
          rcases due with done | stale
          · simp [Entry.late, done] at prompt
          · exact ⟨old, _, rfl, rfl, by simp [(stale_status old moment stale).1], rfl⟩
      | confirm exit claimed old now asked owned => exact ⟨old, _, rfl, rfl, by simp [asked], rfl⟩
      | claim old workerId moment expires eligible => cases settles
      | retry old now failed => cases settles
      | withdraw old now pending => cases settles
      | requestCancel old now building => cases settles
      | complete claimed old archive now building owned => cases settles
      | fail claimed old code reason now building owned => cases settles

theorem settle_locked_prompt (store : AuditStore κ) (caller : κ) (choice : Choice) (moment : Instant)
    (entry : Entry κ)
    (added : entry ∈ (store.answer caller choice (.settleSkipLocked moment)).2.journal) :
    entry ∈ store.journal ∨ entry.late = false := by
  have settling : ∀ (candidates : List AuditPackage) (start : AuditStore κ),
    (∀ row ∈ candidates, row.stale moment = true) →
      ∀ entry ∈ (candidates.foldl (AuditStore.settleRow caller moment) start).journal,
      entry ∈ start.journal ∨ entry.late = false := by
    intro candidates
    induction candidates with
    | nil => exact fun start _ entry inside => .inl inside
    | cons row rest ih =>
        intro start stale entry inside
        rcases ih (start.settleRow caller moment row)
            (fun other later => stale other (List.mem_cons_of_mem _ later)) entry inside with
          before | prompt
        · rcases List.mem_append.mp before with earlier | new
          · exact .inl earlier
          · rw [List.mem_singleton.mp new]
            exact .inr (by simp [Entry.late, (stale_status row moment (stale row List.mem_cons_self)).1])
        · exact .inr prompt
  unfold AuditStore.answer AuditStore.settleAll at added
  dsimp only at added
  split at added
  · refine settling _ store (fun row inside => ?_) entry added
    exact (Bool.and_eq_true_iff.mp (List.mem_filter.mp inside).2).1
  · exact .inl added

theorem cancelled_stays (entry : Entry κ) (lawful : LawfulEntry entry) (old : AuditPackage)
    (before : entry.before = some old) (done : old.status = .cancelled) :
    (∃ new, entry.after = some new ∧ new.status = .cancelled) ∧
    (entry.late = false → entry.after = some old) := by
  cases lawful with
  | created caller row pending uncounted => cases before
  | declined caller action id found declines =>
      cases before
      exact ⟨⟨old, rfl, done⟩, fun _ => rfl⟩
  | moved caller action id row new moves =>
      cases before
      cases moves with
      | settle old moment due => exact ⟨⟨_, rfl, rfl⟩, fun prompt => by simp [Entry.late, done] at prompt⟩
      | claim old workerId moment expires eligible =>
          rcases eligible_status old moment eligible with pending | ⟨building, _⟩
          · simp [done] at pending
          · simp [done] at building
      | retry old now failed => simp [done] at failed
      | withdraw old now pending => simp [done] at pending
      | requestCancel old now building => simp [done] at building
      | confirm exit claimed old now asked owned => simp [done] at asked
      | complete claimed old archive now building owned => simp [done] at building
      | fail claimed old code reason now building owned => simp [done] at building

theorem entered_cancelled (journal : List (Entry κ)) (faithful : Throughout Faithful journal)
    (entry : Entry κ) (member : entry ∈ journal) (moves : entry.movesTo .cancelled) :
    ∃ row, rowsAfter journal entry.id = some row ∧ row.status = .cancelled := by
  induction journal using List.reverseRecOn with
  | nil => cases member
  | append_singleton earlier newest ih =>
      obtain ⟨before, held, lawful, _⟩ := (throughout_snoc _ _ _).mp faithful
      rw [rows_after_snoc]
      rcases List.mem_append.mp member with old | new
      · obtain ⟨row, found, done⟩ := ih before old
        by_cases same : entry.id = newest.id
        · rw [same] at found ⊢
          rw [Function.update_self]
          exact (cancelled_stays newest lawful row (held.trans found) done).1
        · rw [Function.update_of_ne same]
          exact ⟨row, found, done⟩
      · rw [List.mem_singleton] at new
        subst new
        obtain ⟨_, row, _, after, _, done⟩ := moves
        exact ⟨row, by rw [Function.update_self]; exact after, done⟩

theorem enters_once (journal : List (Entry κ)) (faithful : Throughout Faithful journal) :
    journal.Pairwise fun a b => a.id = b.id → a.movesTo .cancelled → ¬b.movesTo .cancelled := by
  induction journal using List.reverseRecOn with
  | nil => exact List.Pairwise.nil
  | append_singleton earlier newest ih =>
      obtain ⟨before, held, _⟩ := (throughout_snoc _ _ _).mp faithful
      refine List.pairwise_append.mpr
        ⟨ih before, List.pairwise_singleton _ _, fun a inside b last same first second => ?_⟩
      rw [List.mem_singleton] at last
      subst last
      obtain ⟨row, found, done⟩ := entered_cancelled earlier before a inside first
      obtain ⟨old, _, was, _, differs, _⟩ := second
      rw [same, ← held, was] at found
      cases found
      exact differs done

theorem settles_once (journal : List (Entry κ)) (faithful : Throughout Faithful journal)
    (prompt : ∀ entry ∈ journal, entry.late = false) :
    journal.Pairwise fun a b => a.id = b.id → a.settles = true → b.settles = false := by
  refine (enters_once journal faithful).imp_of_mem fun {a b} first second once same settles => ?_
  obtain ⟨_, _, _, _, lawful, _⟩ := throughout_member _ _ faithful a first
  obtain ⟨_, _, _, _, lawfulToo, _⟩ := throughout_member _ _ faithful b second
  by_contra again
  exact once same (settles_moves a lawful settles (prompt a first))
    (settles_moves b lawfulToo (by simpa using again) (prompt b second))

theorem cancelled_kept (journal more : List (Entry κ))
    (faithful : Throughout Faithful (journal ++ more)) (prompt : ∀ entry ∈ more, entry.late = false)
    (id : Nat) (row : AuditPackage) (found : rowsAfter journal id = some row)
    (done : row.status = .cancelled) : rowsAfter (journal ++ more) id = some row := by
  induction more using List.reverseRecOn with
  | nil =>
      rw [List.append_nil]
      exact found
  | append_singleton others newest ih =>
      rw [← List.append_assoc] at faithful ⊢
      obtain ⟨before, held, lawful, _⟩ := (throughout_snoc _ _ _).mp faithful
      have still := ih before fun entry inside => prompt entry (List.mem_append_left _ inside)
      rw [rows_after_snoc]
      by_cases same : id = newest.id
      · subst same
        rw [Function.update_self]
        exact (cancelled_stays newest lawful row (held.trans still) done).2 (prompt newest (by simp))
      · rw [Function.update_of_ne same]
        exact still

end

section

variable {κ : Type} [DecidableEq κ] {fenced : Prop} {names : κ → Option String}
variable {unique : ∀ i j owner, names i = some owner → names j = some owner → i = j} {i : κ}

-- One settling transaction for every row returned, and nothing else.
def Returned (i : κ) (rows : List AuditPackage) (store : AuditStore κ) : Prop :=
  List.Forall₂ (fun row entry => entry.settles = true ∧ entry.id = row.id ∧ entry.after = some row) rows
    (entriesOf store.journal i)

theorem returned_same (rows : List AuditPackage) (store now : AuditStore κ)
    (same : entriesOf now.journal i = entriesOf store.journal i) (returned : Returned i rows store) :
    Returned i rows now := by
  unfold Returned
  rw [same]
  exact returned

theorem returned_row (rows : List AuditPackage) (store : AuditStore κ)
    (returned : Returned i rows store) (row : AuditPackage) (inside : row ∈ rows) :
    ∃ entry ∈ entriesOf store.journal i, entry.settles = true ∧ entry.id = row.id := by
  unfold Returned at returned
  generalize entriesOf store.journal i = entries at returned ⊢
  induction returned with
  | nil => cases inside
  | cons head _ ih =>
      rcases List.mem_cons.mp inside with rfl | later
      · exact ⟨_, List.mem_cons_self, head.1, head.2.1⟩
      · obtain ⟨entry, member, settles⟩ := ih later
        exact ⟨entry, List.mem_cons_of_mem _ member, settles⟩

theorem lasts_returned (rows : List AuditPackage) :
    Lasts (auditDiscipline fenced names unique) i (Returned i rows) :=
  fun store now _ beside => returned_same rows store now beside.journal

theorem returned_snoc (rows : List AuditPackage) (store after : AuditStore κ) (row : AuditPackage)
    (entry : Entry κ) (returned : Returned i rows store)
    (journal : after.journal = store.journal ++ [entry]) (own : entry.caller = i)
    (settles : entry.settles = true) (named : entry.id = row.id) (left : entry.after = some row) :
    Returned i (rows ++ [row]) after := by
  unfold Returned
  rw [journal, entries_snoc, if_pos own]
  exact List.rel_append returned (.cons ⟨settles, named, left⟩ .nil)

theorem settle_by_id_returns (moment : Instant) (rows : List AuditPackage) (store : AuditStore κ)
    (filed : Filed store) (returned : Returned i rows store) (choice : Choice) (id : Nat)
    (found : Option AuditPackage)
    (answer : (store.answer i choice (.settleById id moment)).1 = .ok found) :
    Returned i (rows ++ found.toList) (store.answer i choice (.settleById id moment)).2 := by
  unfold AuditStore.answer at answer ⊢
  cases held : store.packages id with
  | none =>
      simp only [held] at answer ⊢
      cases answer
      rw [Option.toList_none, List.append_nil]
      exact returned
  | some row =>
      simp only [held, AuditStore.transact] at answer ⊢
      split at answer
      · cases answer
      · rename_i shaped
        cases answer
        rw [if_neg shaped]
        exact returned_snoc rows store _ _ _ returned rfl rfl rfl (filed.packages id row held).1.symm rfl

theorem settle_row_returns (moment : Instant) (candidates rows : List AuditPackage) (store : AuditStore κ)
    (returned : Returned i rows store) :
    Returned i (rows ++ candidates.map fun row => row.applyCancelled moment)
      (candidates.foldl (AuditStore.settleRow i moment) store) := by
  induction candidates generalizing rows store with
  | nil =>
      rw [List.map_nil, List.append_nil]
      exact returned
  | cons row rest ih =>
      have onward := ih (rows ++ [row.applyCancelled moment]) (store.settleRow i moment row)
        (returned_snoc rows store _ _ _ returned rfl rfl rfl rfl rfl)
      rw [List.append_assoc] at onward
      exact onward

theorem returns_settle_each (moment : Instant) (ids : List Nat) (rows : List AuditPackage)
    (store : AuditStore κ) (returned : Returned i rows store) (due : DueToSettle moment ids store) :
    Upholds (auditDiscipline fenced names unique) i (fun more => Returned i (rows ++ more)) (fun _ _ => True)
      (settleEach moment ids) store := by
  induction ids generalizing rows store with
  | nil => exact upholds_pure _ _ _ _ _ _ (lasts_returned _) (by rw [List.append_nil]; exact returned)
  | cons id rest ih =>
      rw [settleEach]
      refine upholds_bind _ _ _ _ (fun reply now => DueToSettle moment rest now ∧ ∀ found, reply = .ok found →
        Returned i (rows ++ found.toList) now) _ (fun _ => lasts_true _) _ _ ?_ fun reply now _ held => ?_
      · refine upholds_query _ store _ _ (fun reply => ?_) (fun _ => lasts_true _) fun now inv beside => ?_
        · rintro early late inv beside ⟨remaining, answered⟩
          exact ⟨lasts_due_to_settle moment rest early late inv beside remaining, fun found is =>
            returned_same _ early late beside.journal (answered found is)⟩
        · have still := due_to_settle_evolves moment (id :: rest) store now due beside.rows
          have careful : CheckedBefore (.settleById id moment) now := by
            intro row found
            obtain ⟨held, at_id, ready⟩ := still id List.mem_cons_self
            rw [found] at at_id
            cases at_id
            exact ready
          refine ⟨⟨careful, fun _ => trivial⟩, trivial, fun choice => ⟨due_to_settle_evolves moment rest now _
            (fun n inside => still n (List.mem_cons_of_mem id inside)) fun n row found =>
              ?_, fun found answer => ?_⟩⟩
          · exact (evolves_effects i now _ _ (answer_effects i now _ choice inv.life.filed careful)
                inv.life n row found).2
          · exact settle_by_id_returns moment rows now inv.life.filed
              (returned_same rows store now beside.journal returned) choice id
              found answer
      · cases reply with
        | error rejection => exact upholds_throw _ _ _ _ _ _ (lasts_true _) trivial
        | ok found =>
            change Upholds _ i _ _ (settleEach moment rest >>= fun more => pure (found.toList ++ more)) now
            refine upholds_bind _ _ _ _ _ _ (fun _ => lasts_true _) _ _ (ih (rows ++ found.toList) now
                (held.2 found rfl) held.1)
              fun more later _ whole => upholds_pure _ _ _ _ _ _ (lasts_returned _) ?_
            rw [← List.append_assoc]
            exact whole

theorem returns_settle_locked (moment : Instant) (store : AuditStore κ) (returned : Returned i [] store) :
    Upholds (auditDiscipline fenced names unique) i (fun reply now => ∀ rows, reply = .ok rows →
      Returned i rows now) (fun _ _ => True)
      (query (.settleSkipLocked moment)) store := by
  refine upholds_query _ store _ _ (fun reply early late inv beside held rows is => ?_)
    (fun _ => lasts_true _)
    fun now inv beside => ⟨⟨trivial, fun _ => trivial⟩, trivial, fun choice rows answer => ?_⟩
  · exact returned_same rows early late beside.journal (held rows is)
  · have still := returned_same [] store now beside.journal returned
    simp only [AuditStore.answer, AuditStore.settleAll] at answer ⊢
    split at answer
    · rename_i shaped
      cases answer
      rw [if_pos shaped]
      exact settle_row_returns moment _ [] now still
    · cases answer

theorem returns_select_stale (moment : Instant) (store : AuditStore κ) (returned : Returned i [] store) :
    Upholds (auditDiscipline fenced names unique) i
      (fun ids now => Returned i [] now ∧ DueToSettle moment ids now) (fun _ _ => True)
      (query (.selectStale moment)) store := by
  refine upholds_read _ store
    (.selectStale moment) rfl _ (fun ids => lasts_and _ i _ _ (lasts_returned [])
      (lasts_due_to_settle moment ids))
    (fun _ => lasts_true _) fun now inv beside =>
      ⟨trivial, fun choice => ⟨returned_same [] store now beside.journal returned, fun id inside => ?_⟩⟩
  obtain ⟨row, member, rfl⟩ := List.mem_map.mp inside
  obtain ⟨listed, stale⟩ := List.mem_filter.mp member
  exact ⟨row, (mem_rows now inv.life.filed row).mp listed, .inr stale⟩

theorem returns_settle (postgresql : Bool) (now : Option Instant) (store : AuditStore κ)
    (returned : Returned i [] store) :
    Upholds (auditDiscipline fenced names unique) i (fun rows => Returned i rows) (fun _ _ => True)
      (settleStaleCancelling postgresql now) store := by
  refine upholds_keeping _ _ _ _ (Returned i []) _ (fun _ =>
      lasts_true _) _ _ (keeps_clock _ (lasts_returned []) now) returned
    (fun _ _ _ => trivial) fun moment later _ started => ?_
  cases postgresql with
  | true =>
      refine upholds_bind _ _ _ _ _ _ (fun _ =>
          lasts_true _) _ _ (returns_settle_locked moment later started) fun reply last _ held => ?_
      cases reply with
      | error rejection => exact upholds_throw _ _ _ _ _ _ (lasts_true _) trivial
      | ok rows => exact upholds_pure _ _ _ _ _ _ (lasts_returned rows) (held rows rfl)
  | false =>
      exact upholds_bind _ _ _ _ _ _ (fun _ => lasts_true _) _ _ (returns_select_stale moment later started)
        fun ids last _ held => returns_settle_each moment ids [] last held.1 held.2

-- What a call of settle_stale_cancelling returns.
def Converged (i : κ) (call : AuditCall) (outcome : Except AuditError AuditOutcome)
    (store : AuditStore κ) : Prop :=
  match call, outcome with
  | .settle _ _, .ok (.settled rows) => Returned i rows store
  | _, _ => True

theorem call_converged (env : Exporting) (call : AuditCall) (ledger : Ledger)
    (verified : Verified (auditDiscipline fenced names unique) i
    (CallConcluded i call) (call.program env).run (AuditStore.empty κ ledger)) :
    Verified (auditDiscipline fenced names unique) i (Converged i call) (call.program env).run
      (AuditStore.empty κ ledger) := by
  cases call with
  | settle postgresql now =>
      refine verified_mono _ _ _ (Post
          (fun value => Converged i (.settle postgresql now) (.ok value)) fun _ _ => True) _ _ ?_ ?_
      · rintro (error | value) store held
        · trivial
        · exact held
      · exact upholds_bind _ _ _ _ _ _ (fun _ => lasts_true _) _ _ (returns_settle postgresql now _ .nil)
          fun rows later _ held => upholds_pure _ _ _ _ _ _ (lasts_returned rows) held
  | _ => exact verified_mono _ _ _ _ _ _ (fun _ _ _ => trivial) verified

end

section

variable {ι κ : Type} [DecidableEq ι] [Fintype ι] [DecidableEq κ] (env : Exporting) (calls : ι → Call)
  (jobs : κ → AuditCall)

-- The calls that say they settled the package, or that it is CANCELLED.
def AuditCall.reports (call : AuditCall) (outcome : Except AuditError AuditOutcome) (id : Nat) : Bool :=
  match call, outcome with
  | .settle _ _, .ok (.settled rows) => rows.any fun row => row.id = id
  | .build claimed _, .ok (.built result) => claimed.id = id ∧ result = .status .cancelled
  | _, _ => false

theorem deployed_converged (now : Deployment ι κ) (reached : (deploy env calls jobs).Reaches now) (i : κ)
    (outcome : Except AuditError AuditOutcome) (ended : finished (auditing κ) now.audit i = some outcome) :
    Converged i (jobs i) outcome now.audit.store :=
  free_concluded env calls jobs (fun j => Converged j (jobs j))
    (fun j => call_converged env (jobs j) _) now reached i outcome ended

theorem reports_entry (now : Deployment ι κ) (reached : (deploy env calls jobs).Reaches now) (i : κ)
    (outcome : Except AuditError AuditOutcome)
    (ended : finished (auditing κ) now.audit i = some outcome) (id : Nat)
    (reports : (jobs i).reports outcome id = true) :
    ∃ entry ∈ now.audit.store.journal, entry.caller = i ∧ entry.id = id ∧ entry.settles = true := by
  unfold AuditCall.reports at reports
  split at reports
  · rename_i rows asks
    have settled := deployed_converged env calls jobs now reached i _ ended
    rw [asks] at settled
    obtain ⟨row, inside, named⟩ := List.any_eq_true.mp reports
    rw [decide_eq_true_eq] at named
    subst named
    obtain ⟨entry, own, settles, named⟩ := returned_row rows _ settled row inside
    obtain ⟨member, caller⟩ := List.mem_filter.mp own
    exact ⟨entry, member, by simpa using caller, named, settles⟩
  · rename_i claimed keyring result asks
    have concluded :=
      deployed_concluded False nameless nameless_unique env calls jobs now
        (free_deployed env calls jobs now reached) i _ ended
    rw [asks] at concluded
    obtain ⟨entry, exit, own, named, is⟩ := concluded
    obtain ⟨rfl, rfl⟩ := of_decide_eq_true reports
    have inside : entry ∈
      entriesOf now.audit.store.journal i := by rw [own]; exact List.mem_singleton_self entry
    obtain ⟨member, caller⟩ := List.mem_filter.mp inside
    exact ⟨entry, member, by simpa using caller, named, by rw [Entry.settles, is]⟩
  · cases reports

theorem cancellations_settle_once (earlier now : Deployment ι κ)
    (reached : (deploy env calls jobs).Reaches earlier) (run : earlier.Reaches now)
    (prompt : ∀ entry ∈ now.audit.store.journal, entry.late = false) :
    (now.audit.store.journal.Pairwise fun a b => a.id = b.id → a.movesTo .cancelled → ¬b.movesTo .cancelled) ∧
    (∀ id row, earlier.audit.store.packages id = some row → row.status = .cancelled →
      now.audit.store.packages id = some row) ∧
    (now.audit.store.journal.Pairwise fun a b => a.id = b.id → a.settles = true → b.settles = false) ∧
    ∀ i j first second id, finished (auditing κ) now.audit i = some first →
    finished (auditing κ) now.audit j = some second →
      (jobs i).reports first id = true → (jobs j).reports second id = true → i = j := by
  have onward := free_onward env calls jobs earlier now reached run
  have before := (free_deployed env calls jobs earlier reached).disciplined.inv.life
  have life := (free_deployed env calls jobs now (reached.trans run)).disciplined.inv.life
  have faithful : Throughout Faithful now.audit.store.journal := life.faithful
  have once := settles_once _ faithful prompt
  refine ⟨enters_once _ faithful, fun id row found done => ?_, once,
    fun i j first second id ended endedToo left right => ?_⟩
  · obtain ⟨more, extended⟩ := onward.journal
    rw [before.replayed] at found
    rw [life.replayed, ← extended]
    exact cancelled_kept _ more (by rw [extended]; exact faithful)
      (fun entry inside => prompt entry (by rw [← extended]; exact List.mem_append_right _ inside)) id
        row found done
  · obtain ⟨a, inside, rfl, same, settles⟩ :=
      reports_entry env calls jobs now (reached.trans run) i first ended id left
    obtain ⟨b, insideToo, rfl, sameToo, settlesToo⟩ :=
      reports_entry env calls jobs now (reached.trans run) j second endedToo id right
    have symmetric : Std.Symm fun a b : Entry κ => a.id = b.id → a.settles = true → b.settles = false := by
      refine ⟨fun a b once same settles => ?_⟩
      by_contra again
      rw [once same.symm (by simpa using again)] at settles
      cases settles
    by_contra apart
    have unsettled := once.forall inside insideToo (fun equal => apart (congrArg Entry.caller equal))
      (same.trans sameToo.symm) settles
    rw [settlesToo] at unsettled
    cases unsettled

end

-- A package with its build given up, and two workers that settle what is stale.
def sampleSettlers : Fin 5 → AuditCall
  | 0 => .create "scale-7" "export-1" none
  | 1 => .claim true "a" 1 none
  | 2 => .cancel (sampleUuid 9)
  | 3 => .settle false none
  | 4 => .settle false none

-- The second worker looks for stale rows once the first one has settled them.
theorem sample_settled_once : ∃ (earlier now : Deployment Bool (Fin 5)),
    (deploy sampleExporting sampleCalls sampleSettlers).Reaches earlier ∧ earlier.Reaches now ∧
    (∃ row ∈ earlier.audit.store.packages 1, row.status = .cancelled ∧
      now.audit.store.packages 1 = some row) ∧
    ∃ first ∈ finished (auditing (Fin 5)) now.audit 3, (sampleSettlers 3).reports first 1 = true ∧
      ∃ second ∈ finished (auditing (Fin 5)) now.audit 4, (sampleSettlers 4).reports second 1 = false := by
  have ran : ∃ early ∈ runSchedule (auditing (Fin 5)) (List.replicate 6 0 ++ [1, 1, 2, 3, 3, 3])
    (sampleSessions sampleSettlers) sampleChoices,
      (∃ row ∈ early.1.store.packages 1, row.status = .cancelled) ∧
      ∃ final ∈ runSchedule (auditing (Fin 5)) [4, 4] early.1 early.2,
        (∀ entry ∈ final.1.store.journal, entry.late = false) ∧
        (∃ first ∈ finished (auditing (Fin 5)) final.1 3, (sampleSettlers 3).reports first 1 = true) ∧
        ∃ second ∈ finished (auditing (Fin 5)) final.1 4, True := by decide +kernel
  obtain ⟨⟨early, rest⟩, run, ⟨row, found, done⟩, ⟨final, others⟩, onward, prompt,
    ⟨first, ended, reported⟩, second, endedToo, _⟩ := ran
  obtain ⟨ledger, reached, _⟩ := sample_deployment sampleSettlers _ early rest run
  have further := audit_reaches ⟨ledger, early⟩ final
    (run_schedule_reaches (auditing (Fin 5)) _ _ _ _ _ onward)
  obtain ⟨_, kept, _, single⟩ :=
    cancellations_settle_once sampleExporting sampleCalls sampleSettlers _ _ reached further prompt
  refine ⟨_, _, reached, further, ⟨row, found, done, kept 1 row found done⟩, first, ended, reported,
    second, endedToo, ?_⟩
  by_contra again
  have same := single 3 4 first second 1 ended endedToo reported (by simpa using again)
  cases same

-- Both workers look before either has settled the row; the second UPDATE writes the
-- row again, and both return it.
theorem stale_row_settled_twice : ∃ (earlier now : Deployment Bool (Fin 5)),
    (deploy sampleExporting sampleCalls sampleSettlers).Reaches earlier ∧ earlier.Reaches now ∧
    (∃ row ∈ earlier.audit.store.packages 1, row.status = .cancelled ∧
      ∃ new ∈ now.audit.store.packages 1, new.cancelledAt ≠ row.cancelledAt) ∧
    (∃ first ∈ finished (auditing (Fin 5)) now.audit 3, (sampleSettlers 3).reports first 1 = true) ∧
    ∃ second ∈ finished (auditing (Fin 5)) now.audit 4, (sampleSettlers 4).reports second 1 = true := by
  have ran : ∃ early ∈ runSchedule (auditing (Fin 5)) (List.replicate 6 0 ++ [1, 1, 2, 3, 3, 4, 4, 3])
    (sampleSessions sampleSettlers) sampleChoices,
      ∃ final ∈ runSchedule (auditing (Fin 5)) [4] early.1 early.2,
        (∃ row ∈ early.1.store.packages 1, row.status = .cancelled ∧ ∃ new ∈ final.1.store.packages 1,
          new.cancelledAt ≠ row.cancelledAt) ∧
        (∃ first ∈ finished (auditing (Fin 5)) final.1 3, (sampleSettlers 3).reports first 1 = true) ∧
        ∃ second ∈ finished (auditing (Fin 5)) final.1 4,
        (sampleSettlers 4).reports second 1 = true := by decide +kernel
  obtain ⟨⟨early, rest⟩, run, ⟨final, others⟩, onward, overwritten, reports⟩ := ran
  obtain ⟨ledger, reached, _⟩ := sample_deployment sampleSettlers _ early rest run
  exact ⟨_, _, reached, audit_reaches ⟨ledger, early⟩ final
    (run_schedule_reaches (auditing (Fin 5)) _ _ _ _ _ onward), overwritten, reports⟩

end CalibrationLedger
