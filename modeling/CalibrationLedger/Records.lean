import CalibrationLedger.History
import CalibrationLedger.Library.Succession

set_option autoImplicit false

-- The events of a record and what get_record shows of them.
namespace CalibrationLedger

open JsonText Digest Interleaving Succession

-- where record_id = ... order by sequence
def EventTable.record (table : EventTable) (recordId : Uuid) : List Event :=
  table.rows.filter fun row => row.recordId = recordId

theorem mem_record (table : EventTable) (recordId : Uuid) (row : Event) :
    row ∈ table.record recordId ↔ row ∈ table.rows ∧ row.recordId = recordId := by
  simp [EventTable.record]

theorem record_sorted (table : EventTable) (recordId : Uuid) :
    (table.record recordId).Pairwise fun a b => a.sequence < b.sequence := List.Pairwise.filter _ table.sorted

structure RecordView where
  recordId : Text
  currentState : EventType
  events : List Dict

def recordNotFound (recordId : Uuid) : PyError :=
  .ledger ⟨"NOT_FOUND", text "record was not found", 404, [("record_id", string recordId.toText)]⟩

def getRecord (rt : Runtime) (table : EventTable) (recordId : Uuid) : Py RecordView :=
  let events := table.record recordId
  match events.getLast? with
  | none => throw (recordNotFound recordId)
  | some newest => do
      let views ← events.mapM (eventView rt)
      return ⟨text recordId.toText, newest.eventType, views⟩

-- A record in sequence order: a report of that id, revisions, at most one
-- revocation at the end, each event naming the one before it.
structure RecordChain (recordId : Uuid) (events : List Event) : Prop where
  root : ∃ first, events.head? = some first ∧ first.eventType = .report ∧ first.eventId = recordId ∧
    first.previousEventId = none
  onlyReport : ∀ row ∈ events.tail, row.eventType ≠ .report
  revocationLast : ∀ row ∈ events, row.eventType = .revocation → events.getLast? = some row
  linked : events.IsChain fun a b => b.previousEventId = some a.eventId
  increasing : events.Pairwise fun a b => a.sequence < b.sequence
  instrument : ∀ a ∈ events, ∀ b ∈ events, a.instrumentId = b.instrumentId

theorem event_view_row (rt : Runtime) (event : Event) : ∃ view, eventView rt event = .ok view := by
  rw [eventView, event_commitment_row]
  exact ⟨_, rfl⟩

theorem event_views (rt : Runtime) (events : List Event) : ∃ views, events.mapM (eventView rt) = .ok views :=
  map_ok events _ fun event _ => event_view_row rt event

section

variable (rt : Runtime) (signing : Text → Bytes → Prop) {ι : Type} (store : Store ι)

theorem row_descends (row : Event) (inside : row ∈ store.events.rows) (sound : Sound rt signing store) :
    (row.eventType = .report ∧ row.previousEventId = none ∧ row.recordId = row.eventId) ∨
      row.eventType ≠ .report ∧ ∃ parent ∈ store.events.record row.recordId, Succeeds parent row := by
  have lineage := (sound.rows row (.inl inside)).2
  unfold Lineage at lineage
  have found : ∀ parent ∈ store.events.rows, Succeeds parent row →
      parent ∈ store.events.record row.recordId :=
    fun parent member step => (mem_record _ _ _).mpr ⟨member, step.record.symm⟩
  split at lineage
  · rename_i type
    exact .inl ⟨type, lineage⟩
  · rename_i type
    obtain ⟨parent, member, step⟩ := lineage
    exact .inr ⟨by simp [type], parent, found parent member step, step⟩
  · rename_i type
    obtain ⟨parent, member, step⟩ := lineage
    exact .inr ⟨by simp [type], parent, found parent member step, step⟩

theorem no_fork (a b c : Event) (left : b ∈ store.events.rows) (right : c ∈ store.events.rows)
    (first : Succeeds a b) (second : Succeeds a c) (sound : Sound rt signing store) : b = c :=
  sound.apart b c (.inl left) (.inl right) (by simp [Event.clashes, first.names, second.names])

-- Whatever stands first is a root, since a parent would stand before it.
theorem record_root (recordId : Uuid) (first : Event)
    (head : (store.events.record recordId).head? = some first) (sound : Sound rt signing store) :
    first.eventType = .report ∧ first.previousEventId = none ∧ first.eventId = recordId := by
  obtain ⟨rest, whole⟩ := List.head?_eq_some_iff.mp head
  have firstIn : first ∈ store.events.record recordId := by
    rw [whole]
    exact List.mem_cons_self
  obtain ⟨committed, named⟩ := (mem_record _ _ _).mp firstIn
  rcases row_descends rt signing store first committed sound with ⟨type, none, own⟩ | ⟨_, parent,
    inside, step⟩
  · exact ⟨type, none, own.symm.trans named⟩
  · have sorted := record_sorted store.events recordId
    rw [named, whole] at inside
    rw [whole] at sorted
    have less := step.later
    rcases List.mem_cons.mp inside with same | later
    · rw [same] at less
      exact absurd less (lt_irrefl _)
    · exact absurd less (lt_asymm ((List.pairwise_cons.mp sorted).1 parent later))

theorem report_is_root (recordId : Uuid) (first row : Event)
    (head : (store.events.record recordId).head? = some first)
    (member : row ∈ store.events.record recordId) (report : row.eventType = .report)
    (sound : Sound rt signing store) :
    first = row := by
  obtain ⟨committed, named⟩ := (mem_record _ _ _).mp member
  have firstIn := ((mem_record _ _ _).mp (List.mem_of_mem_head? head)).1
  obtain ⟨_, _, root⟩ := record_root rt signing store recordId first head sound
  rcases row_descends rt signing store row committed sound with ⟨_, _, own⟩ | ⟨other, _⟩
  · exact same_id_same_row rt signing store first row firstIn committed (by rw [root, ← own, named]) sound
  · exact absurd report other

theorem record_succession (recordId : Uuid) (sound : Sound rt signing store) :
    (store.events.record recordId).IsChain Succeeds := by
  refine chain_of_no_fork Succeeds (fun a b => a.sequence < b.sequence) (fun a b => lt_asymm) _
    (record_sorted store.events recordId) (fun row member => ?_) fun a _ b inB c inC first second => ?_
  · obtain ⟨committed, named⟩ := (mem_record _ _ _).mp member
    rcases row_descends rt signing store row committed sound with ⟨report, _, _⟩ | ⟨_, parent, inside, step⟩
    · obtain ⟨first, head⟩ : ∃ first, (store.events.record recordId).head? = some first := by
        cases whole : store.events.record recordId with
        | nil =>
            rw [whole] at member
            cases member
        | cons first rest => exact ⟨first, rfl⟩
      rw [← report_is_root rt signing store recordId first row head member report sound]
      exact .inl head
    · rw [named] at inside
      exact .inr ⟨parent, inside, step, step.later⟩
  · exact no_fork rt signing store a b c ((mem_record _ _ _).mp inB).1
      ((mem_record _ _ _).mp inC).1 first second sound

theorem record_chain (recordId : Uuid) (nonempty : store.events.record recordId ≠ [])
    (sound : Sound rt signing store) :
    RecordChain recordId (store.events.record recordId) := by
  have chain := record_succession rt signing store recordId sound
  have sorted := record_sorted store.events recordId
  obtain ⟨first, rest, whole⟩ := List.exists_cons_of_ne_nil nonempty
  have head : (store.events.record recordId).head? = some first := by rw [whole, List.head?_cons]
  obtain ⟨report, none, root⟩ := record_root rt signing store recordId first head sound
  refine ⟨⟨first, head, report, root, none⟩, fun row member report => ?_, fun row member revoked => ?_,
    chain.imp fun a b step => step.names, sorted, fun a inA b inB => ?_⟩
  · rw [whole, List.tail_cons] at member
    have inside : row ∈ store.events.record recordId := by
      rw [whole]
      exact List.mem_cons_of_mem first member
    have same := report_is_root rt signing store recordId first row head inside report sound
    rw [whole] at sorted
    have less := (List.pairwise_cons.mp sorted).1 row member
    rw [same] at less
    exact lt_irrefl _ less
  · rcases chain_next Succeeds _ chain row member with last | ⟨next, _, step⟩
    · exact last
    · exact absurd revoked step.standing
  · have constant :=
      chain_constant Succeeds _ chain Event.instrumentId (fun _ _ step => step.instrument) first head
    exact (constant a inA).trans (constant b inB).symm

theorem record_tail (recordId : Uuid) (newest : Event)
    (last : (store.events.record recordId).getLast? = some newest) (sound : Sound rt signing store) :
    ∀ row ∈ store.events.rows, row.previousEventId ≠ some newest.eventId := by
  intro row member names
  obtain ⟨committed, named⟩ := (mem_record _ _ _).mp (List.mem_of_getLast? last)
  rcases row_descends rt signing store row member sound with ⟨_, none, _⟩ | ⟨_, parent, inside, step⟩
  · rw [none] at names
    cases names
  · have parents := step.names
    rw [names] at parents
    have same := same_id_same_row rt signing store newest parent committed ((mem_record _ _ _).mp inside).1
      (Option.some.inj parents) sound
    subst same
    have kept : row ∈ store.events.record recordId := (mem_record _ _ _).mpr ⟨member, step.record.trans named⟩
    have sorted := record_sorted store.events recordId
    obtain ⟨earlier, split⟩ := List.getLast?_eq_some_iff.mp last
    rw [split] at kept sorted
    have less := step.later
    rcases List.mem_append.mp kept with before | same
    · exact absurd less
        (lt_asymm ((List.pairwise_append.mp sorted).2.2 row before newest (List.mem_singleton_self _)))
    · rw [List.mem_singleton.mp same] at less
      exact lt_irrefl _ less

variable [DecidableEq ι] [Fintype ι]

-- In every reachable state a record id names nothing, or one chain whose tail is
-- the state get_record reports.
theorem records_are_chains (calls : ι → Call) (config : Config (postgres ι) (Py Outcome))
    (reached : Reaches (postgres ι) (start rt calls) config) (recordId : Uuid) :
    config.store.events.record recordId = [] ∧
        getRecord rt config.store.events recordId = .error (recordNotFound recordId) ∨
      RecordChain recordId (config.store.events.record recordId) ∧ ∃ newest views,
        (config.store.events.record recordId).getLast? = some newest ∧
        (∀ row ∈ config.store.events.rows, row.previousEventId ≠ some newest.eventId) ∧
        getRecord rt config.store.events recordId = .ok ⟨text recordId.toText, newest.eventType, views⟩ := by
  have sound := history_sound rt calls config reached
  cases last : (config.store.events.record recordId).getLast? with
  | none =>
      refine .inl ⟨List.getLast?_eq_none_iff.mp last, ?_⟩
      simp only [getRecord, last]
      rfl
  | some newest =>
      have nonempty : config.store.events.record recordId ≠ [] := by
        intro none
        rw [none] at last
        cases last
      obtain ⟨views, shown⟩ := event_views rt (config.store.events.record recordId)
      refine .inr ⟨record_chain rt _ config.store recordId nonempty sound, newest, views, rfl,
        record_tail rt _ config.store recordId newest last sound, ?_⟩
      simp only [getRecord, last, shown]
      rfl

end

theorem sample_record :
    ∃ now : Config (postgres (Fin 5)) (Py Outcome),
    Reaches (postgres (Fin 5)) (start reference chronicle) now ∧
    now.store.events.record (sampleUuid 1) = [sampleEvent, revisedEvent] ∧
    RecordChain (sampleUuid 1) (now.store.events.record (sampleUuid 1)) ∧
    ∃ views, getRecord reference now.store.events (sampleUuid 1) =
      .ok ⟨text (sampleUuid 1).toText, .revision, views⟩ := by
  obtain ⟨mid, now, first, onward, _, rows, _⟩ := chronicle_run
  have reached := reaches_trans (postgres (Fin 5)) _ _ _ first onward
  have two : now.store.events.record (sampleUuid 1) = [sampleEvent, revisedEvent] := by
    rw [EventTable.record, rows]
    decide
  refine ⟨now, reached, two, ?_⟩
  rcases records_are_chains reference chronicle now reached
    (sampleUuid 1) with ⟨none, _⟩ | ⟨chain, newest, views, last, _, shown⟩
  · rw [two] at none
    cases none
  · rw [two] at last
    cases last
    exact ⟨chain, views, shown⟩

end CalibrationLedger
