import CalibrationLedger.Paging
import CalibrationLedger.Requests

set_option autoImplicit false

-- A request answers as if all its statements had found the ledger of one moment.
namespace CalibrationLedger

open JsonText Digest HashTree Interleaving Moments

section

variable (rt : Runtime) (base : Ledger)

variable {α β : Type}

-- Whatever the ledger has grown to at each statement.
abbrev ServesOn (request : ReadTx α) (outcome : Py α) : Prop :=
  Serves Ledger.answer (LedgerGrows base) request outcome

theorem serves_raise (error : PyError) : ServesOn base (throw error : ReadTx α) (.error error) :=
  always_returns_done _ _ _

theorem serves_return (value : α) : ServesOn base (pure value : ReadTx α) (.ok value) :=
  always_returns_done _ _ _

theorem serves_select (query : LedgerQuery) (response : LedgerReply query)
    (next : LedgerReply query → ReadTx α) (outcome : Py α)
    (alike : ∀ now, LedgerGrows base now → Ledger.answer query now = response)
    (onward : ServesOn base (next response) outcome) :
    ServesOn base (select query >>= next) outcome :=
  serves_ask (S := LedgerSql) Ledger.answer (LedgerGrows base) query response next outcome alike onward

variable (checkpoint : Checkpoint) (member : checkpoint ∈ base.checkpoints) (keyring : Keyring)

include member

theorem prefix_served : ServesOn base (Requests.validatedPrefix rt checkpoint keyring)
    (validatedPrefix rt base.events checkpoint keyring) := by
  refine serves_select base
    (.eventsUpTo checkpoint.lastEventSequence) _ _ _ (fun now grows => grows.sealed checkpoint member) ?_
  rw [validatedPrefix]
  split
  · exact serves_raise base _
  · refine serves_bind _ _ _ _ _ _ (serves_lift _ _ _) fun leaves _ => ?_
    split
    · exact serves_raise base _
    · refine serves_bind _ _ _ _ _ _ (serves_lift _ _ _) fun key _ => ?_
      exact serves_bind _ _ _ _ _ _ (serves_lift _ _ _) fun _ _ => serves_return base _

variable (chain : OneChain base.checkpoints)

include chain

theorem bundle_served (leaves : List Bytes) :
    ServesOn base (Requests.buildConsistencyBundle rt checkpoint leaves keyring)
    (buildConsistencyBundle rt base checkpoint leaves keyring) := by
  rw [Requests.buildConsistencyBundle, buildConsistencyBundle]
  cases link : checkpoint.previousCheckpointId with
  | none => exact serves_return base _
  | some previousId =>
      obtain ⟨previous, inside, _, found⟩ :=
        chain_previous base.checkpoints chain checkpoint member previousId link
      have served : base.checkpoint previousId = some previous := found
      simp only [served]
      refine serves_select base (.getCheckpoint previousId)
        (some previous) _ _ (fun now grows => grown_checkpoint base now grows previousId previous served) ?_
      refine serves_bind _ _ _ _ _ _ (prefix_served rt base previous inside keyring) fun _ _ => ?_
      split
      · exact serves_raise base _
      · refine serves_bind _ _ _ _ _ _ (serves_lift _ _ _) fun oldView _ => ?_
        exact serves_bind _ _ _ _ _ _ (serves_lift _ _ _) fun hashes _ => serves_return base _

theorem receipt_served (event : Event) :
    ServesOn base (Requests.buildReceiptAtCheckpoint rt event checkpoint keyring)
    (buildReceiptAtCheckpoint rt base event checkpoint keyring) := by
  refine serves_bind _ _ _ _ _ _ (prefix_served rt base checkpoint member keyring) fun found _ => ?_
  obtain ⟨events, leaves⟩ := found
  dsimp only
  cases events.findIdx? fun item => item.eventId = event.eventId with
  | none => exact serves_raise base _
  | some index =>
      exact serves_bind _ _ _ _ _ _ (bundle_served rt base checkpoint member keyring chain leaves)
        fun consistency _ => serves_lift _ _ _

theorem view_served : ServesOn base (Requests.buildCheckpointView rt checkpoint.checkpointId keyring)
    (buildCheckpointView rt base checkpoint.checkpointId keyring) := by
  have found : base.checkpoint checkpoint.checkpointId = some checkpoint :=
    distinct_found base.checkpoints chain.distinct checkpoint member
  rw [buildCheckpointView, found]
  refine serves_select base (.getCheckpoint checkpoint.checkpointId)
    (some checkpoint) _ _ (fun now grows => grown_checkpoint base now grows _ checkpoint found) ?_
  refine serves_bind _ _ _ _ _ _ (prefix_served rt base checkpoint member keyring) fun pair _ => ?_
  obtain ⟨_, leaves⟩ := pair
  refine serves_bind _ _ _ _ _ _ (bundle_served rt base checkpoint member keyring chain leaves)
    fun consistency _ => ?_
  exact serves_bind _ _ _ _ _ _ (serves_lift _ _ _) fun view _ => serves_return base _

theorem start_served :
    ServesOn base (Requests.incrementStart checkpoint) (incrementStart base checkpoint) := by
  rw [Requests.incrementStart, incrementStart]
  cases link : checkpoint.previousCheckpointId with
  | none => exact serves_return base _
  | some previousId =>
      obtain ⟨previous, _, _, found⟩ :=
        chain_previous base.checkpoints chain checkpoint member previousId link
      have served : base.checkpoint previousId = some previous := found
      simp only [served]
      exact serves_select base (.getCheckpoint previousId)
        (some previous) _ _ (fun now grows => grown_checkpoint base now grows previousId previous served)
        (serves_return base _)

theorem page_served (afterSequence : Option Int) (limit : Nat) :
    ServesOn base (Requests.buildCheckpointEventPage rt checkpoint.checkpointId afterSequence limit keyring)
      (buildCheckpointEventPage rt base checkpoint.checkpointId afterSequence limit keyring) := by
  have found : base.checkpoint checkpoint.checkpointId = some checkpoint :=
    distinct_found base.checkpoints chain.distinct checkpoint member
  rw [buildCheckpointEventPage, found]
  refine serves_select base (.getCheckpoint checkpoint.checkpointId)
    (some checkpoint) _ _ (fun now grows => grown_checkpoint base now grows _ checkpoint found) ?_
  refine serves_bind _ _ _ _ _ _ (start_served base checkpoint member chain) fun start _ => ?_
  dsimp only
  split
  · exact serves_raise base _
  · split
    · exact serves_raise base _
    · refine serves_bind _ _ _ _ _ _ (prefix_served rt base checkpoint member keyring) fun pair _ => ?_
      obtain ⟨events, leaves⟩ := pair
      refine serves_bind _ _ _ _ _ _ (bundle_served rt base checkpoint member keyring chain leaves)
        fun consistency _ => ?_
      refine serves_bind _ _ _ _ _ _ (serves_lift _ _ _) fun items _ => ?_
      exact serves_bind _ _ _ _ _ _ (serves_lift _ _ _) fun next _ => serves_return base _

end

section

variable (rt : Runtime) {ι : Type} [DecidableEq ι] [Fintype ι] (calls : ι → Call)
  (moments : Nat → Config (postgres ι) (Py Outcome))

theorem serve_select {α : Type} (query : LedgerQuery) (next : LedgerReply query → ReadTx α)
    (ledgers : Nat → Ledger) :
    serve (select query >>= next) ledgers = serve (next (Ledger.answer query (ledgers 0))) fun turn =>
      ledgers (turn + 1) := rfl

variable (reached : Reaches (postgres ι) (start rt calls) (moments 0))
  (onward : ∀ turn, Reaches (postgres ι) (moments turn) (moments (turn + 1)))

include reached onward

theorem moments_grow (early late : Nat) (order : early ≤ late) :
    Sound rt (SigningKey calls) (moments early).store ∧ Grows (moments early).store (moments late).store := by
  have here := reaches_trans (postgres ι) _ _ _ reached (moments_reached moments onward early)
  obtain ⟨more, rfl⟩ := Nat.exists_eq_add_of_le order
  have there := moments_reached (fun turn => moments (early + turn)) (fun turn => onward (early + turn)) more
  exact ⟨history_sound rt calls _ here, history_grows rt calls _ _ here there⟩

theorem served_from {α : Type} (request : ReadTx α) (outcome : Py α) (first : Nat)
    (served : ServesOn (moments first).store.toLedger request outcome) :
    serve request (fun turn => (moments (first + turn)).store.toLedger) = outcome := by
  refine served _ fun turn => ?_
  exact grows_ledger _ _ (moments_grow rt calls moments reached onward first (first + turn)
      (Nat.le_add_right _ _)).2

theorem checkpoint_request {α : Type} (request : Uuid → ReadTx α) (answer : Ledger → Uuid → Py α)
    (checkpointId : Uuid)
    (missing : ∀ ledgers : Nat → Ledger, (ledgers 0).checkpoint checkpointId = none →
      serve (request checkpointId) ledgers = answer (ledgers 0) checkpointId)
    (served : ∀ base checkpoint, checkpoint ∈ base.checkpoints → OneChain base.checkpoints →
      ServesOn base (request checkpoint.checkpointId) (answer base checkpoint.checkpointId)) :
    serve (request checkpointId) (fun turn => (moments turn).store.toLedger) =
        answer (moments 0).store.toLedger checkpointId := by
  cases found : (moments 0).store.toLedger.checkpoint checkpointId with
  | none => exact missing _ found
  | some checkpoint =>
      have member : checkpoint ∈ (moments 0).store.checkpoints := List.mem_of_find?_eq_some found
      have named : checkpoint.checkpointId = checkpointId := by simpa using List.find?_some found
      have chain := sound_one_chain rt _ _ (moments_grow rt calls moments reached onward 0 0 (le_refl 0)).1
      subst named
      have whole := served_from rt calls moments reached onward _ _ 0 (served _ checkpoint member chain)
      simpa using whole

theorem event_still_found (eventId : Uuid) (event : Event)
    (found : (moments 0).store.events.byId eventId = some event) :
    (moments 1).store.events.byId eventId = some event ∧ event ∈ (moments 1).store.events.rows := by
  obtain ⟨_, grows⟩ := moments_grow rt calls moments reached onward 0 1 (by decide)
  obtain ⟨sound, _⟩ := moments_grow rt calls moments reached onward 1 1 (le_refl 1)
  obtain ⟨inside, named⟩ := by_id_found _ eventId event found
  have committed := grows.rows event inside
  have present : ((moments 1).store.events.byId eventId).isSome := by
    rw [EventTable.byId, List.find?_isSome]
    exact ⟨event, committed, by simp [named]⟩
  obtain ⟨other, is⟩ := Option.isSome_iff_exists.mp present
  obtain ⟨insideToo, namedToo⟩ := by_id_found _ eventId other is
  rw [is, same_id_same_row rt _ _ other event insideToo committed (namedToo.trans named.symm) sound]
  exact ⟨rfl, committed⟩

theorem receipt_request (eventId : Uuid) (keyring : Keyring) :
    ∃ turn ≤ 1, serve (Requests.buildReceipt rt eventId keyring) (fun turn => (moments turn).store.toLedger) =
      buildReceipt rt (moments turn).store.toLedger eventId keyring := by
  rw [Requests.buildReceipt, serve_select]
  cases found : (moments 0).store.events.byId eventId with
  | none =>
      have absent : Ledger.answer (.eventById eventId) (moments 0).store.toLedger = none := found
      refine ⟨0, by decide, ?_⟩
      rw [absent, buildReceipt, show (moments 0).store.toLedger.events.byId eventId = none from found]
      rfl
  | some event =>
      have present : Ledger.answer (.eventById eventId) (moments 0).store.toLedger = some event := found
      obtain ⟨still, committed⟩ := event_still_found rt calls moments reached onward eventId event found
      refine ⟨1, le_refl 1, ?_⟩
      rw [present, buildReceipt, show (moments 1).store.toLedger.events.byId eventId = some event from still]
      dsimp only
      rw [event_bytes]
      change serve (if hex (leafHash rt.toHashFunction (event.bytes rt)) ≠
          event.leafHash then throw (nodeCorrupt event)
        else select (.coveringCheckpoint event.sequence) >>= _) _ = (if _ then _ else _)
      by_cases corrupt : hex (leafHash rt.toHashFunction (event.bytes rt)) ≠ event.leafHash
      · rw [if_pos corrupt, if_pos corrupt]
        rfl
      · rw [if_neg corrupt, if_neg corrupt, serve_select]
        cases covering : latest ((moments 1).store.checkpoints.filter fun row => event.sequence ≤
              row.lastEventSequence) with
        | none =>
            have absent : Ledger.answer (.coveringCheckpoint event.sequence)
              (moments 1).store.toLedger = none := covering
            rw [absent]
            dsimp only
            rw [event_view_shown]
            rfl
        | some checkpoint =>
            have latest_there : Ledger.answer (.coveringCheckpoint event.sequence)
              (moments 1).store.toLedger = some checkpoint := covering
            have member : checkpoint ∈ (moments 1).store.checkpoints :=
              List.mem_of_mem_filter (latest_some _ checkpoint covering).1
            have chain := sound_one_chain rt _ _ (moments_grow rt calls moments reached onward 1 1
                (le_refl 1)).1
            have growing (turn : Nat) : LedgerGrows (moments 1).store.toLedger
                (moments (turn + 1 + 1)).store.toLedger :=
              grows_ledger _ _ (moments_grow rt calls moments reached onward 1 (turn + 1 + 1) (by omega)).2
            rw [latest_there]
            exact receipt_served rt _ checkpoint member keyring chain event _ growing

theorem view_request (checkpointId : Uuid) (keyring : Keyring) :
    serve (Requests.buildCheckpointView rt checkpointId keyring) (fun turn => (moments turn).store.toLedger) =
      buildCheckpointView rt (moments 0).store.toLedger checkpointId keyring := by
  refine checkpoint_request rt calls moments reached onward
    (fun checkpointId => Requests.buildCheckpointView rt checkpointId keyring)
    (fun ledger checkpointId => buildCheckpointView rt ledger checkpointId keyring) checkpointId ?_ ?_
  · intro ledgers missing
    have absent : Ledger.answer (.getCheckpoint checkpointId) (ledgers 0) = none := missing
    rw [Requests.buildCheckpointView, serve_select, absent, buildCheckpointView, missing]
    rfl
  · exact fun base checkpoint member chain => view_served rt base checkpoint member keyring chain

theorem page_request (checkpointId : Uuid) (afterSequence : Option Int) (limit : Nat) (keyring : Keyring) :
    serve (Requests.buildCheckpointEventPage rt checkpointId afterSequence limit keyring)
      (fun turn => (moments turn).store.toLedger) =
      buildCheckpointEventPage rt (moments 0).store.toLedger checkpointId afterSequence limit keyring := by
  refine checkpoint_request rt calls moments reached onward
    (fun checkpointId => Requests.buildCheckpointEventPage rt checkpointId afterSequence limit keyring)
    (fun ledger checkpointId =>
      buildCheckpointEventPage rt ledger checkpointId afterSequence limit keyring) checkpointId ?_ ?_
  · intro ledgers missing
    have absent : Ledger.answer (.getCheckpoint checkpointId) (ledgers 0) = none := missing
    rw [Requests.buildCheckpointEventPage, serve_select, absent, buildCheckpointEventPage, missing]
    rfl
  · exact fun base checkpoint member chain =>
      page_served rt base checkpoint member keyring chain afterSequence limit

-- Whatever writers and sealers commit between the statements of a request, it answers
-- as one read of the ledger would: a receipt at its first or its second statement, a
-- checkpoint and a page of its events at the first one.
theorem reads_are_linearizable (keyring : Keyring) :
    (∀ eventId, ∃ turn ≤ 1, serve (Requests.buildReceipt rt eventId keyring)
      (fun turn => (moments turn).store.toLedger) =
      buildReceipt rt (moments turn).store.toLedger eventId keyring) ∧
    (∀ checkpointId, serve (Requests.buildCheckpointView rt checkpointId keyring)
        (fun turn => (moments turn).store.toLedger) =
      buildCheckpointView rt (moments 0).store.toLedger checkpointId keyring) ∧
    ∀ checkpointId afterSequence limit,
      serve (Requests.buildCheckpointEventPage rt checkpointId afterSequence limit keyring)
        (fun turn => (moments turn).store.toLedger) =
        buildCheckpointEventPage rt (moments 0).store.toLedger checkpointId afterSequence limit keyring :=
  ⟨fun eventId => receipt_request rt calls moments reached onward eventId keyring,
    fun checkpointId => view_request rt calls moments reached onward checkpointId keyring,
    fun checkpointId afterSequence limit =>
      page_request rt calls moments reached onward checkpointId afterSequence limit keyring⟩

end

-- The report of the sample run, and its seal between two statements of a request.
theorem sample_stages :
    ∃ mid ∈ runSchedule (postgres Bool) (List.replicate 7 false) (start reference sampleCalls) sampleSupply,
    ∃ final ∈ runSchedule (postgres Bool) (List.replicate 8 true) mid.1 mid.2,
      mid.1.store.events.rows = [sampleEvent] ∧ mid.1.store.checkpoints = [] ∧
      final.1.store.checkpoints = [sampleCheckpoint] := by
  decide +kernel

theorem sample_reads_linearized :
    ∃ early late : Ledger, early.events.rows = [sampleEvent] ∧ early.checkpoints = [] ∧
    late.checkpoints = [sampleCheckpoint] ∧
    (∃ now ∈ [early, late], serve (Requests.buildReceipt reference (sampleUuid 1) sampleKeyring)
      (fun turn => if turn = 0 then early else late) =
      buildReceipt reference now (sampleUuid 1) sampleKeyring) ∧
    serve (Requests.buildCheckpointView reference (sampleUuid 2) sampleKeyring)
      (fun turn => if turn = 0 then early else late) =
      buildCheckpointView reference early (sampleUuid 2) sampleKeyring := by
  obtain ⟨⟨mid, supply⟩, ranMid, ⟨final, rest⟩, ranFinal, rows, unsealed, sealed⟩ := sample_stages
  have reached := run_schedule_reaches (postgres Bool) _ _ _ _ _ ranMid
  have onward := run_schedule_reaches (postgres Bool) _ _ _ _ _ ranFinal
  obtain ⟨receipts, views, _⟩ :=
    reads_are_linearizable reference sampleCalls (fun turn => if turn = 0 then mid else final) reached
    (fun turn => by
      cases turn with
      | zero => exact onward
      | succ turn => exact reaches_refl (postgres Bool) final) sampleKeyring
  have moments (turn : Nat) : (if turn = 0 then mid else final).store.toLedger = if turn =
      0 then mid.store.toLedger else final.store.toLedger := by
    split <;> rfl
  simp only [moments] at receipts views
  refine ⟨mid.store.toLedger, final.store.toLedger, rows, unsealed, sealed, ?_, views (sampleUuid 2)⟩
  obtain ⟨turn, _, answer⟩ := receipts (sampleUuid 1)
  refine ⟨_, ?_, answer⟩
  split
  · exact List.mem_cons_self
  · exact List.mem_cons_of_mem _ List.mem_cons_self

end CalibrationLedger
