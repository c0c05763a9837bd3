import CalibrationLedger.Paging
import CalibrationLedger.Races

set_option autoImplicit false

-- What a seal adds once it has the lock, and that none of its checks fails.
namespace CalibrationLedger

open JsonText Digest HashTree Interleaving

-- The rows no checkpoint covers yet.
def uncovered (ledger : Ledger) : List Event := ledger.events.after (boundaryOf (latest ledger.checkpoints))

theorem signing_key_returns (keyring : Keyring) (version : String) (key : Bytes)
    (held : keyring.lookup (text version) = some key) : signingKey keyring version = .ok key := by
  rw [signingKey, requireKey, held]

section

variable (rt : Runtime) (signing : Text → Bytes → Prop) {ι : Type} (store : Store ι)
  (sound : Sound rt signing store)

include sound

theorem sound_boundary_count :
    (store.events.upTo (boundaryOf (latest store.checkpoints))).length =
      leafCountOf (latest store.checkpoints) := by
  cases last : latest store.checkpoints with
  | none =>
      refine List.length_eq_zero_iff.mpr (List.filter_eq_nil_iff.mpr fun row inside => ?_)
      have positive := (sound.sequences row (.inl inside)).1
      exact fun covered => absurd (of_decide_eq_true covered) (not_le.mpr positive)
  | some previous => exact (sound_covers rt signing store sound previous (latest_some _ _ last).1).count

theorem previous_accepted (keyring : Keyring)
    (holds : HoldsKeys signing keyring (latest store.checkpoints).toList) (boundary : Int)
    (further : boundaryOf (latest store.checkpoints) ≤ boundary) :
    checkPrevious rt keyring (latest store.checkpoints)
      ((store.events.upTo boundary).map (rowLeaf rt)) = .ok () := by
  cases last : latest store.checkpoints with
  | none => rfl
  | some previous =>
      rw [last] at holds further
      have member := (latest_some _ _ last).1
      have covered := sound_covers rt signing store sound previous member
      obtain ⟨key, held, signature⟩ := sound_keyed rt signing store sound keyring previous member holds
      have taken : ((store.events.upTo boundary).map (rowLeaf rt)).take previous.leafCount =
          leavesOf rt store.events previous := by
        rw [leavesOf, ← List.map_take, ← covered.count]
        exact congrArg _ (up_to_take store.events _ _ further)
      rw [checkPrevious, taken,
        if_neg (not_not.mpr (sound_rooted rt signing store sound previous member).root.symm)]
      exact (bind_ok _ _ _).mpr
        ⟨key, signing_key_returns keyring _ key held, check_signature_passes rt previous key _ signature⟩

theorem seal_checks_pass (keyring : Keyring)
    (holds : HoldsKeys signing keyring (latest store.checkpoints).toList) (limit : Nat) (newest : Event)
    (ends : ((uncovered store.toLedger).take limit).getLast? = some newest) :
    checkPrefix rt keyring (latest store.checkpoints) ((uncovered store.toLedger).take limit)
      (store.events.upTo newest.sequence) =
      .ok ((store.events.upTo newest.sequence).map (rowLeaf rt)) := by
  have beyond := (List.mem_filter.mp (List.mem_of_mem_take (List.mem_of_getLast? ends))).2
  have continued := up_to_batch store.events _ limit newest ends
  have counted : (store.events.upTo newest.sequence).length =
      leafCountOf (latest store.checkpoints) + ((uncovered store.toLedger).take limit).length := by
    rw [continued, List.length_append, sound_boundary_count rt signing store sound]
    rfl
  have stored : ∀ row ∈ store.events.upTo newest.sequence, row.leafHash = hex (rowLeaf rt row) :=
    fun row inside =>
    (sound.rows row (.inl (List.mem_of_mem_filter inside))).1.leaf
  exact check_prefix_returns rt keyring _ _ _ counted stored
    (previous_accepted rt signing store sound keyring holds newest.sequence
      (le_of_lt (by simpa using beyond)))

end

section

variable {ι : Type}

-- Inside the transaction of a sealer that may have drafted its checkpoint already.
structure Drafting (i : ι) (read : Store ι) (drafts : List Checkpoint) (now : Store ι) : Prop where
  exclusive : (now.transactions i).exclusive = true
  noRows : (now.transactions i).events = []
  drafted : (now.transactions i).checkpoints = drafts
  events : now.events = read.events
  checkpoints : now.checkpoints = read.checkpoints

theorem drafting_stable (i : ι) (read : Store ι) (drafts : List Checkpoint) (store now : Store ι)
    (others : LedgerRely i store now) (drafting : Drafting i read drafts store) :
    Drafting i read drafts now := by
  obtain ⟨exclusive, noRows, drafted, events, checkpoints⟩ := drafting
  obtain ⟨sameEvents, sameCheckpoints⟩ := others.frozen exclusive
  rw [← others.own] at exclusive noRows drafted
  exact ⟨exclusive, noRows, drafted, sameEvents.trans events, sameCheckpoints.trans checkpoints⟩

theorem sound_boundary_last (rt : Runtime) (signing : Text → Bytes → Prop) (store : Store ι)
    (sound : Sound rt signing store) (last other : Checkpoint)
    (found : latest store.checkpoints = some last) (member : other ∈ store.checkpoints) :
    other.lastEventSequence ≤ last.lastEventSequence := by
  obtain ⟨inside, above⟩ := latest_some _ _ found
  have counts : (store.events.upTo other.lastEventSequence).length ≤
      (store.events.upTo last.lastEventSequence).length := by
    rw [(sound_covers rt signing store sound other member).count,
      (sound_covers rt signing store sound last inside).count]
    exact above other member
  by_contra beyond
  obtain ⟨_, extended, _⟩ :=
    chained_member rt signing store.events none store.checkpoints sound.chain other member
  obtain ⟨row, committed, reaches⟩ := extended.reaches
  have shorter := up_to_take store.events _ _ (le_of_lt (not_le.mp beyond))
  rw [List.take_of_length_le counts] at shorter
  have listed : row ∈ store.events.upTo other.lastEventSequence :=
    List.mem_filter.mpr ⟨committed, by simp [reaches]⟩
  rw [shorter] at listed
  have below := (List.mem_filter.mp listed).2
  simp only [decide_eq_true_eq, reaches] at below
  exact beyond below

theorem extension_apart (rt : Runtime) (signing : Text → Bytes → Prop) (store : Store ι)
    (sound : Sound rt signing store) (checkpoint other : Checkpoint)
    (extended : Extends rt signing store.events store.checkpoints.getLast? checkpoint)
    (member : other ∈ store.checkpoints) (fresh : other.checkpointId ≠ checkpoint.checkpointId) :
    checkpoint.clashes other = false := by
  rw [← (chained_latest rt signing store.events none store.checkpoints sound.chain).1] at extended
  obtain ⟨last, found⟩ : ∃ last, latest store.checkpoints = some last := by
    cases found : latest store.checkpoints with
    | none =>
        rw [latest_none _ found] at member
        cases member
    | some last => exact ⟨last, rfl⟩
  rw [found] at extended
  obtain ⟨inside, above⟩ := latest_some _ _ found
  have fewer : other.leafCount < checkpoint.leafCount :=
    Nat.lt_of_le_of_lt (above other member) extended.grows
  have before : other.lastEventSequence < checkpoint.lastEventSequence :=
    lt_of_le_of_lt (sound_boundary_last rt signing store sound last other found member) extended.advances
  have unlinked : other.previousCheckpointId ≠ checkpoint.previousCheckpointId := by
    intro same
    rw [extended.link, Option.map_some] at same
    obtain ⟨_, own, origin⟩ :=
      chained_member rt signing store.events none store.checkpoints sound.chain other member
    rcases origin with rfl | ⟨earlier, listed, rfl⟩
    · rw [own.link] at same
      cases same
    · rw [own.link] at same
      have equal : earlier = last := by
        have first := distinct_found store.checkpoints sound.distinct earlier listed
        have second := distinct_found store.checkpoints sound.distinct last inside
        rw [Option.some.inj same] at first
        exact Option.some.inj (first.symm.trans second)
      have more := own.grows
      rw [equal] at more
      exact absurd (above other member) (not_le.mpr more)
  simp [Checkpoint.clashes, fresh.symm, ne_of_gt fewer, ne_of_gt before, unlinked.symm]

theorem extension_admitted (rt : Runtime) (signing : Text → Bytes → Prop) (store : Store ι)
    (sound : Sound rt signing store) (i : ι) (checkpoint : Checkpoint)
    (allowed : Allowed rt signing i (.insertCheckpoint checkpoint) store)
    (fresh : ∀ other ∈ store.checkpoints, other.checkpointId ≠ checkpoint.checkpointId) :
    store.admitsCheckpoint i checkpoint = true := by
  obtain ⟨_, _, _, undrafted, extended⟩ := allowed
  have visible : store.visibleCheckpoints i = store.checkpoints := by
    rw [Store.visibleCheckpoints, undrafted, List.append_nil]
  have positive : 0 < checkpoint.leafCount := Nat.lt_of_le_of_lt (Nat.zero_le _) extended.grows
  have apart : store.checkpoints.all (fun row => !checkpoint.clashes row) = true :=
    List.all_eq_true.mpr fun other member => by
    rw [extension_apart rt signing store sound checkpoint other extended member (fresh other member)]
    rfl
  rw [Store.admitsCheckpoint, visible, apart, decide_eq_true positive]
  have link := extended.link
  cases last : store.checkpoints.getLast? with
  | none =>
      rw [last, Option.map_none] at link
      rw [link]
      rfl
  | some previous =>
      rw [last, Option.map_some] at link
      rw [link]
      exact List.any_eq_true.mpr ⟨previous, List.mem_of_getLast? last, by simp⟩

variable [DecidableEq ι] [Fintype ι]

theorem lock_holder_answered (rt : Runtime) (signing : Text → Bytes → Prop) (store : Store ι)
    (sound : Sound rt signing store) (i : ι) (checkpoint : Checkpoint)
    (held : (store.transactions i).exclusive = true) (supply : Supply) :
    ∃ answer, respond i (.insertCheckpoint checkpoint) store supply = some answer := by
  have uncontested : store.contestedCheckpoint i checkpoint = false := by
    refine decide_eq_false ?_
    rintro ⟨j, other, clash⟩
    rw [(alone_in_flight rt signing store i j sound held other).2.2] at clash
    cases clash
  rw [respond, uncontested]
  cases store.admitsCheckpoint i checkpoint with
  | true => exact ⟨_, rfl⟩
  | false => exact ⟨_, rfl⟩

end

-- What a new checkpoint covers: the lowest of the rows that were uncovered.
structure Advances (sealer : CheckpointSealer) (before : Ledger) (checkpoint : Checkpoint) : Prop where
  link : checkpoint.previousCheckpointId = (latest before.checkpoints).map Checkpoint.checkpointId
  newest : ((uncovered before).take sealer.batchSize).getLast?.map Event.sequence =
    some checkpoint.lastEventSequence

-- An insert no checkpoint has the id of.
def UnusedCheckpointId {ι : Type} (_ : ι) (query : Statement) (store : Store ι) : Prop :=
  match query with
  | .insertCheckpoint checkpoint => ∀ other ∈ store.checkpoints, other.checkpointId ≠ checkpoint.checkpointId
  | _ => True

-- What seal_once does with the lock.
def sealLocked (rt : Runtime) (sealer : CheckpointSealer) : Tx SealResult := do
  let previous ← ask .selectLatest
  let batch ← ask (.selectAfter (boundaryOf previous) sealer.batchSize)
  match batch.getLast? with
  | none => return .idle
  | some newest =>
      let events ← ask (.selectUpTo newest.sequence)
      let leaves ← checkPrefix rt sealer.keyring previous batch events
      let checkpoint ← newCheckpoint rt sealer previous newest.sequence events leaves
      return .sealed (← flushCheckpoint checkpoint)

section

variable (rt : Runtime) (signing : Text → Bytes → Prop) {ι : Type} [DecidableEq ι] [Fintype ι]
  (more : ι → Statement → Store ι → Prop)

-- Every checkpoint the session inserts has a fresh id.
def FreshIds (i : ι) : Prop := ∀ query store, more i query store → UnusedCheckpointId i query store

-- A statement of the body: it is answered, and it does not end the transaction.
def AnsweredInBody (i : ι) (query : Statement) (store : Store ι) : Prop :=
  (∀ supply, ∃ answer, respond i query store supply = some answer) ∧ query ≠ .commit ∧ query ≠ .rollback

-- What a seal is about to commit.
def Draws (i : ι) (sealer : CheckpointSealer) (held : Store ι) : SealResult → Store ι → Prop
  | .busy, _ => False
  | .idle, now => Drafting i held [] now ∧ uncovered held.toLedger = []
  | .sealed checkpoint, now => Drafting i held [checkpoint] now ∧ Advances sealer held.toLedger checkpoint

-- Why a seal raises.
def Redraws (i : ι) (held : Store ι) (error : PyError) (_ : Store ι) : Prop :=
  error = .integrityError ∧ uncovered held.toLedger ≠ [] ∧ ¬ FreshIds more i

abbrev Advancing {α : Type} (i : ι) (held : Store ι) (good : α → Store ι → Prop) (body : Tx α)
    (store : Store ι) : Prop :=
  Passes ((discipline ι rt signing).given more) i (AnsweredInBody i) good (Redraws more i held) body store

theorem advancing_ask {α : Type} (i : ι) (held : Store ι) (good : α → Store ι → Prop)
    (query : Statement) (next : Response query → Tx α) (drafts : List Checkpoint) (store : Store ι)
    (drafting : Drafting i held drafts store)
    (step : ∀ now, Sound rt signing now → Drafting i held drafts now → Allowed rt signing i query now →
      more i query now →
      AnsweredInBody i query now ∧
      ∀ response after supply left, respond i query now supply = some (response, after, left) →
        Advancing rt signing more i held good (next response) after) :
    Advancing rt signing more i held good (ask query >>= next) store :=
  fun now inv others pre => step now inv (drafting_stable i held drafts store now others drafting) pre.1 pre.2

theorem advancing_return {α : Type} (i : ι) (held : Store ι) (good : α → Store ι → Prop) (value : α)
    (store : Store ι) (holds : ∀ now, LedgerRely i store now → good value now) :
    Advancing rt signing more i held good (return value) store :=
  fun now _ others => holds now others

omit [DecidableEq ι] [Fintype ι] in
theorem drafting_visible (i : ι) (held now : Store ι) (drafting : Drafting i held [] now) :
    now.visible i = held.events ∧ now.visibleCheckpoints i = held.checkpoints := by
  constructor
  · rw [Store.visible, drafting.noRows, drafting.events]
    rfl
  · rw [Store.visibleCheckpoints, drafting.drafted, drafting.checkpoints, List.append_nil]

theorem advancing_flush (i : ι) (sealer : CheckpointSealer) (held : Store ι) (checkpoint : Checkpoint)
    (store : Store ι) (drafting : Drafting i held [] store) (left : uncovered held.toLedger ≠ [])
    (advances : Advances sealer held.toLedger checkpoint) :
    Advancing rt signing more i held (fun result now => Draws i sealer held result now)
      (do return SealResult.sealed (← flushCheckpoint checkpoint)) store := by
  refine advancing_ask rt signing more i held _ (.insertCheckpoint checkpoint) _ [] store drafting
      fun now sound here allowed given =>
    ⟨⟨lock_holder_answered rt signing now sound i checkpoint here.exclusive, nofun, nofun⟩,
      fun inserted after supply rest answer => ?_⟩
  rw [respond] at answer
  split at answer
  · rename_i refused
    cases answer
    -- refused for its id and nothing else
    refine fun later _ _ => ⟨rfl, left, fun fresh => ?_⟩
    rw [extension_admitted rt signing now sound i checkpoint allowed (fresh _ _ given)] at refused
    cases refused
  · split at answer
    · cases answer
    · cases answer
      refine fun later _ others =>
        ⟨drafting_stable i held [checkpoint] _ later others
          ⟨?_, ?_, ?_, here.events, here.checkpoints⟩, advances⟩
      · rw [update_same]
        exact here.exclusive
      · rw [update_same]
        exact here.noRows
      · rw [update_same]
        show (now.transactions i).checkpoints ++ [checkpoint] = [checkpoint]
        rw [here.drafted, List.nil_append]

theorem advancing_locked (i : ι) (sealer : CheckpointSealer) (held : Store ι)
    (sound : Sound rt signing held) (drafting : Drafting i held [] held)
    (holds : HoldsKeys signing sealer.keyring (latest held.checkpoints).toList) (key : Bytes)
    (current : sealer.keyring.lookup (text sealer.currentKeyVersion) = some key) :
    Advancing rt signing more i held (fun result now => Draws i sealer held result now)
      (sealLocked rt sealer) held := by
  refine advancing_ask rt signing more i held _ .selectLatest _ [] held drafting fun first _ here _ _ =>
    ⟨⟨fun _ => ⟨_, rfl⟩, nofun, nofun⟩, fun previous after supply rest answer => ?_⟩
  cases answer
  rw [(drafting_visible i held first here).2]
  refine advancing_ask rt signing more i held _ (.selectAfter _ sealer.batchSize) _ [] first here
      fun second _ here _ _ =>
    ⟨⟨fun _ => ⟨_, rfl⟩, nofun, nofun⟩, fun batch after supply rest answer => ?_⟩
  cases answer
  rw [(drafting_visible i held second here).1]
  cases ends : ((held.events.after (boundaryOf (latest held.checkpoints))).take
        sealer.batchSize).getLast? with
  | none =>
      refine advancing_return rt signing more i held _ SealResult.idle second fun now others =>
        ⟨drafting_stable i held [] second now others here, ?_⟩
      rcases List.take_eq_nil_iff.mp (List.getLast?_eq_none_iff.mp ends) with none | nothing
      · exact absurd none (ne_of_gt sealer.positive)
      · exact nothing
  | some newest =>
      have left : uncovered held.toLedger ≠ [] :=
        List.ne_nil_of_mem (List.mem_of_mem_take (List.mem_of_getLast? ends))
      refine advancing_ask rt signing more i held _ (.selectUpTo newest.sequence) _ [] second here
          fun third _ here _ _ =>
        ⟨⟨fun _ => ⟨_, rfl⟩, nofun, nofun⟩, fun events after supply rest answer => ?_⟩
      cases answer
      have checked : checkPrefix rt sealer.keyring (latest held.checkpoints)
          ((held.events.after (boundaryOf (latest held.checkpoints))).take sealer.batchSize)
          (held.events.upTo newest.sequence) = .ok _ :=
        seal_checks_pass rt signing held sound sealer.keyring holds sealer.batchSize newest ends
      rw [(drafting_visible i held third here).1, checked, lift_ok_bind, new_checkpoint_draws]
      refine advancing_ask rt signing more i held _ .uuidFactory _ [] third here fun fourth _ here _ _ =>
        ⟨⟨fun _ => ⟨_, rfl⟩, nofun, nofun⟩, fun checkpointId after supply rest answer => ?_⟩
      cases answer
      refine advancing_ask rt signing more i held _ .clock _ [] fourth here fun fifth _ here _ _ =>
        ⟨⟨fun _ => ⟨_, rfl⟩, nofun, nofun⟩, fun createdAt after supply rest answer => ?_⟩
      cases answer
      rw [signing_key_returns sealer.keyring _ key current]
      refine advancing_flush rt signing more i sealer held
        (sealedRow rt sealer (latest held.checkpoints) newest.sequence
        (held.events.upTo newest.sequence) _ _ _ key) fifth here left ⟨rfl, ?_⟩
      rw [uncovered, ends]
      rfl

end

-- How a seal ends, once its body has.
def endSeal : Py SealResult → Program Sql (Py Outcome)
  | .ok result => .call .commit fun _ => .done (.ok (.sealing result))
  | .error error => .call .rollback fun _ => .done (.error error)

def resumeSeal (rt : Runtime) (sealer : CheckpointSealer) (acquired : Bool) : Program Sql (Py Outcome) :=
  (if acquired then sealLocked rt sealer else return .busy : Tx SealResult).run >>= endSeal

theorem seal_call_run (rt : Runtime) (sealer : CheckpointSealer) :
    ((Call.sealing sealer).program rt).run = .call .tryLockExclusive (resumeSeal rt sealer) := by
  refine congrArg (Program.call _) (funext fun acquired => ?_)
  refine (bind_assoc _ _ _).trans (congrArg (Program.bind _) (funext fun outcome => ?_))
  cases outcome <;> rfl

-- The lock is asked for first, and a commit comes last.
def SealShape (rt : Runtime) (sealer : CheckpointSealer) (query : Statement)
    (resume : Response query → Program Sql (Py Outcome)) : Prop :=
  match query, resume with
  | .tryLockExclusive, resume => resume = resumeSeal rt sealer
  | .commit, resume => ∃ result, resume () = .done (.ok (.sealing result))
  | _, _ => True

def InBody (query : Statement) : Prop := query ≠ .tryLockExclusive ∧ query ≠ .commit

theorem issues_only_ask (allowed : Statement → Prop) (query : Statement) (kind : allowed query) :
    IssuesOnly (S := Sql) allowed (ask query) :=
  issues_only_statement (S := Sql) allowed query kind

theorem issues_only_lift {α : Type} (allowed : Statement → Prop) (outcome : Py α) :
    IssuesOnly (S := Sql) allowed (liftM outcome : Tx α) := by
  cases outcome <;> trivial

theorem issues_only_locked (rt : Runtime) (sealer : CheckpointSealer) :
    IssuesOnly (S := Sql) InBody (sealLocked rt sealer) := by
  refine issues_only_bind _ _ _ (issues_only_ask _ .selectLatest ⟨nofun, nofun⟩) fun previous => ?_
  refine issues_only_bind _ _ _ (issues_only_ask _ (.selectAfter _ _) ⟨nofun, nofun⟩) fun batch => ?_
  cases List.getLast? batch with
  | none => trivial
  | some newest =>
      refine issues_only_bind _ _ _ (issues_only_ask _ (.selectUpTo _) ⟨nofun, nofun⟩) fun events => ?_
      refine issues_only_bind _ _ _ (issues_only_lift _ _) fun leaves => ?_
      rw [new_checkpoint_draws]
      refine issues_only_bind
          _ _ _ (issues_only_bind _ _ _ (issues_only_ask _ .uuidFactory ⟨nofun, nofun⟩) fun checkpointId =>
        issues_only_bind _ _ _ (issues_only_ask _ .clock ⟨nofun, nofun⟩) fun createdAt =>
        issues_only_bind _ _ _ (issues_only_lift _ _) fun key => trivial) fun checkpoint => ?_
      refine issues_only_bind
        _ _ _ (issues_only_bind _ _ _ (issues_only_ask _ (.insertCheckpoint _) ⟨nofun, nofun⟩)
          fun inserted => ?_) fun _ => trivial
      cases inserted <;> trivial

theorem seal_call_shape (rt : Runtime) (sealer : CheckpointSealer) :
    Everywhere (SealShape rt sealer) ((Call.sealing sealer).program rt).run := by
  rw [seal_call_run]
  refine ⟨rfl, fun acquired => ?_⟩
  rw [resumeSeal]
  refine everywhere_bind (S := Sql) (SealShape rt sealer) InBody
    (fun query resume inside => ?_) _ _ ?_ fun outcome => ?_
  · obtain ⟨unlocking, going⟩ := inside
    cases query <;> trivial
  · cases acquired with
    | true => exact issues_only_locked rt sealer
    | false => trivial
  · cases outcome with
    | ok result => exact ⟨⟨result, rfl⟩, fun _ => trivial⟩
    | error error => exact ⟨trivial, fun _ => trivial⟩

section

variable (rt : Runtime) {ι : Type} [DecidableEq ι] [Fintype ι]

-- The session asks for the exclusive lock and gets it.
structure Obtains (i : ι) (before held : Config (postgres ι) (Py Outcome)) : Prop where
  answered : ∃ resume supply rest, before.sessions i = some (.call .tryLockExclusive resume) ∧
    respond i .tryLockExclusive before.store supply = some (true, held.store, rest) ∧
    held.sessions = Function.update before.sessions i (some (resume true))

theorem obtains_reaches (i : ι) (before held : Config (postgres ι) (Py Outcome))
    (obtains : Obtains i before held) :
    Reaches (postgres ι) before held := by
  obtain ⟨resume, supply, rest, active, answer, sessions⟩ := obtains.answered
  obtain ⟨store, others⟩ := held
  subst sessions
  exact .single ⟨i, .inl (.step before .tryLockExclusive resume true store supply rest active answer)⟩

omit rt in
theorem lock_drafting (i : ι) (store held : Store ι) (supply rest : Supply) (idle : Idle i store)
    (answer : respond i .tryLockExclusive store supply = some (true, held, rest)) :
    Drafting i held [] held ∧ held.toLedger = store.toLedger := by
  rw [respond] at answer
  split at answer
  · cases answer
  · cases answer
    refine ⟨⟨?_, ?_, ?_, rfl, rfl⟩, rfl⟩
    · rw [update_same]
    · rw [update_same, idle]
      rfl
    · rw [update_same, idle]
      rfl

variable (calls : ι → Call) (before held : Config (postgres ι) (Py Outcome))
  (reached : Reaches (postgres ι) (start rt calls) before)
variable (i : ι) (sealer : CheckpointSealer) (call : calls i = .sealing sealer)
  (obtains : Obtains i before held)

include reached call obtains

theorem obtains_begins :
    held.sessions i = some (resumeSeal rt sealer true) ∧ Drafting i held.store [] held.store ∧
    (held.store : Store ι).toLedger = (before.store : Store ι).toLedger := by
  obtain ⟨resume, supply, rest, active, answer, sessions⟩ := obtains.answered
  have shape := everywhere_run (postgres ι) (SealShape rt sealer) _ before reached i (fun program began => by
    have same := Option.some.inj began
    rw [call] at same
    rw [← same]
    exact seal_call_shape rt sealer) _ active
  have resumed : resume = resumeSeal rt sealer := shape.1
  have unstarted : before.sessions i = some ((calls i).program rt).run := by
    rw [active, call, seal_call_run, resumed]
  have idle := unstarted_idle rt calls before reached i unstarted
  refine ⟨by rw [sessions, Function.update_self, resumed], lock_drafting i _ _ _ _ idle answer⟩

end

section

variable (rt : Runtime) (signing : Text → Bytes → Prop) {ι : Type} [DecidableEq ι] [Fintype ι]
  (more : ι → Statement → Store ι → Prop)

-- Where a seal is that has the lock: what it commits it has drawn, and till then it goes on.
def SealsOn (i : ι) (sealer : CheckpointSealer) (held : Store ι) (query : Statement)
    (resume : Response query → Program Sql (Py Outcome)) (store : Store ι) : Prop :=
  (∀ supply, ∃ answer, respond i query store supply = some answer) ∧
    match query, resume with
    | .commit, resume => ∃ result, resume () = .done (.ok (.sealing result)) ∧
        Draws i sealer held result store
    | .rollback, resume => ∃ error, resume () = .done (.error error) ∧ Redraws more i held error store
    | _, resume => ∀ response value, resume response ≠ .done value

omit [DecidableEq ι] [Fintype ι] in
theorem draws_stable (i : ι) (sealer : CheckpointSealer) (held : Store ι) (result : SealResult)
    (store now : Store ι) (others : LedgerRely i store now) (draws : Draws i sealer held result store) :
    Draws i sealer held result now := by
  cases result with
  | busy => exact draws
  | idle => exact ⟨drafting_stable i held [] store now others draws.1, draws.2⟩
  | sealed checkpoint => exact ⟨drafting_stable i held [checkpoint] store now others draws.1, draws.2⟩

theorem answered_in_body_seals_on (i : ι) (sealer : CheckpointSealer) (held : Store ι)
    (query : Statement) (resume : Response query → Program Sql (Py SealResult)) (store : Store ι)
    (prompt : AnsweredInBody i query store) :
    SealsOn more i sealer held query (fun response => resume response >>= endSeal) store := by
  obtain ⟨answered, goesOn, standing⟩ := prompt
  -- after the body a commit or a rollback is still to come
  have unfinished : ∀ response value, (resume response >>= endSeal) ≠ .done value := fun response value => by
    cases resume response with
    | call query onward => exact nofun
    | done outcome => cases outcome <;> exact nofun
  refine ⟨answered, ?_⟩
  cases query with
  | commit => exact absurd rfl goesOn
  | rollback => exact absurd rfl standing
  | _ => exact unfinished

theorem seals_on (i : ι) (sealer : CheckpointSealer) (held : Store ι) (sound : Sound rt signing held)
    (drafting : Drafting i held [] held)
    (holds : HoldsKeys signing sealer.keyring (latest held.checkpoints).toList) (key : Bytes)
    (current : sealer.keyring.lookup (text sealer.currentKeyVersion) = some key) :
    Through ((discipline ι rt signing).given more) i (SealsOn more i sealer held) (fun _ _ => True)
      (resumeSeal rt sealer true) held := by
  refine through_bind ((discipline ι rt signing).given more) i (fun query _ now => AnsweredInBody i query now)
    (Post (fun result now => Draws i sealer held result now)
      (Redraws more i held)) _ _ (sealLocked rt sealer).run _ held
    (fun query resume now _ prompt => answered_in_body_seals_on more i sealer held query resume now prompt)
    (advancing_locked rt signing more i sealer held sound drafting holds key current) fun outcome
      now _ found => ?_
  cases outcome with
  | ok result =>
      refine fun later _ others _ =>
        ⟨⟨fun _ => ⟨_, rfl⟩, result, rfl, draws_stable i sealer held result now later others found⟩, ?_⟩
      exact fun _ _ _ _ _ _ _ _ => trivial
  | error error =>
      refine fun later _ others _ => ⟨⟨fun _ => ⟨_, rfl⟩, error, rfl, found⟩, ?_⟩
      exact fun _ _ _ _ _ _ _ _ => trivial

end

section

variable {ι : Type} [DecidableEq ι] [Fintype ι]

-- The session left the ledger as it was.
def Unwritten (i : ι) (deeds : List (Deed (postgres ι))) : Prop :=
  ∀ deed ∈ deeds, deed.session = i → (deed.after : Store ι).toLedger = (deed.before : Store ι).toLedger

-- The session appended one checkpoint to the ledger it had found, and did nothing else to it.
def Appends (i : ι) (found : Ledger) (deeds : List (Deed (postgres ι))) (checkpoint : Checkpoint) : Prop :=
  ∃ earlier deed rest, deeds = earlier ++ deed :: rest ∧ Unwritten i earlier ∧ Unwritten i rest ∧
    deed.session = i ∧
    (deed.before : Store ι).toLedger = found ∧
    (deed.after : Store ι).toLedger = ⟨found.events, found.checkpoints ++ [checkpoint]⟩

theorem unwritten_last (i : ι) (deeds : List (Deed (postgres ι))) (deed : Deed (postgres ι))
    (unwritten : Unwritten i deeds)
    (still : deed.session = i → (deed.after : Store ι).toLedger = (deed.before : Store ι).toLedger) :
    Unwritten i (deeds ++ [deed]) := by
  intro other member own
  rcases List.mem_append.mp member with old | new
  · exact unwritten other old own
  · rw [List.mem_singleton.mp new] at own ⊢
    exact still own

omit [Fintype ι] in
theorem drafting_commit (i : ι) (held now : Store ι) (drafts : List Checkpoint)
    (drafting : Drafting i held drafts now) :
    now.toLedger = held.toLedger ∧ (now.commit i).toLedger = ⟨held.events, held.checkpoints ++ drafts⟩ := by
  have events : now.visible i = held.events := by
    rw [Store.visible, drafting.noRows, drafting.events]
    rfl
  have checkpoints : now.visibleCheckpoints i = held.checkpoints ++ drafts := by
    rw [Store.visibleCheckpoints, drafting.drafted, drafting.checkpoints]
  constructor
  · rw [show now.toLedger = ⟨now.events, now.checkpoints⟩ from rfl, drafting.events, drafting.checkpoints]
  · rw [show (now.commit i).toLedger = ⟨now.visible i, now.visibleCheckpoints i⟩ from rfl,
      events, checkpoints]

variable (more : ι → Statement → Store ι → Prop)

-- What a seal that had the lock has done when it ends.
def Concludes (i : ι) (sealer : CheckpointSealer) (held : Store ι) (deeds : List (Deed (postgres ι)))
    (now : Store ι) : Py Outcome → Prop
  | .ok (.sealing .idle) => uncovered held.toLedger = [] ∧ Unwritten i deeds
  | .ok (.sealing (.sealed checkpoint)) => Advances sealer held.toLedger checkpoint ∧
      Appends i held.toLedger deeds checkpoint ∧
      ∃ others, now.checkpoints = held.checkpoints ++ checkpoint :: others
  | .error error => Redraws more i held error now ∧ Unwritten i deeds
  | _ => False

theorem concludes_others (i : ι) (sealer : CheckpointSealer) (held : Store ι)
    (deeds : List (Deed (postgres ι))) (deed : Deed (postgres ι)) (now next : Store ι)
    (outcome : Py Outcome) (other : deed.session ≠ i) (grows : Grows now next)
    (concludes : Concludes more i sealer held deeds now outcome) :
    Concludes more i sealer held (deeds ++ [deed]) next outcome := by
  have unwritten : ∀ done, Unwritten i done → Unwritten i (done ++ [deed]) := fun done still =>
    unwritten_last i done deed still fun own => absurd own other
  match outcome, concludes with
  | .ok (.sealing .idle), ⟨nothing, still⟩ => exact ⟨nothing, unwritten deeds still⟩
  | .ok (.sealing (.sealed checkpoint)),
        ⟨advances, ⟨earlier, commit, rest, split, before, after, own, found, left⟩, others, appended⟩ =>
      obtain ⟨further, grown⟩ := grows.appended
      refine ⟨advances,
        ⟨earlier, commit, rest ++ [deed], ?_, before, unwritten rest after, own, found, left⟩,
        others ++ further, ?_⟩
      · rw [split, List.append_assoc, List.cons_append]
      · rw [grown, appended, List.append_assoc, List.cons_append]
  | .error error, ⟨redraws, still⟩ => exact ⟨redraws, unwritten deeds still⟩

theorem seals_on_step (i : ι) (sealer : CheckpointSealer) (held : Store ι) (query : Statement)
    (resume : Response query → Program Sql (Py Outcome)) (now : Store ι) (supply : Supply)
    (response : Response query) (next : Store ι) (rest : Supply)
    (seals : SealsOn more i sealer held query resume now)
    (answer : respond i query now supply = some (response, next, rest))
    (deeds : List (Deed (postgres ι))) (nothing : Unwritten i deeds) :
    (∀ outcome, resume response = .done outcome →
      Concludes more i sealer held (deeds ++ [⟨i, now, next, some ⟨query, response⟩⟩]) next outcome) ∧
    ((∀ outcome, resume response ≠ .done outcome) →
          Unwritten i (deeds ++ [⟨i, now, next, some ⟨query, response⟩⟩])) := by
  obtain ⟨_, going⟩ := seals
  by_cases commits : query = .commit
  · subst commits
    cases answer
    obtain ⟨result, done, draws⟩ := going
    refine ⟨fun outcome ended => ?_, fun goesOn => absurd done (goesOn _)⟩
    rw [done] at ended
    cases ended
    cases result with
    | busy => exact draws
    | idle =>
        obtain ⟨drafting, none⟩ := draws
        obtain ⟨found, left⟩ := drafting_commit i held now [] drafting
        refine ⟨none, unwritten_last i deeds _ nothing fun _ => ?_⟩
        rw [List.append_nil] at left
        exact left.trans found.symm
    | sealed checkpoint =>
        obtain ⟨drafting, advances⟩ := draws
        obtain ⟨found, left⟩ := drafting_commit i held now [checkpoint] drafting
        exact ⟨advances, ⟨deeds, _, [], rfl, nothing, fun deed none => (nomatch none), rfl, found, left⟩, [],
          congrArg Ledger.checkpoints left⟩
  · have still := unwritten_last i deeds ⟨i, now, next, some ⟨query, response⟩⟩ nothing fun _ =>
      respond_unwritten i query now supply response next rest commits answer
    refine ⟨fun outcome ended => ?_, fun _ => still⟩
    cases query with
    | commit => exact absurd rfl commits
    | rollback =>
        obtain ⟨error, done, redraws⟩ := going
        rw [done] at ended
        cases ended
        exact ⟨redraws, still⟩
    | _ => exact absurd ended (going response outcome)

section

variable (rt : Runtime) (calls : ι → Call) (before held : Config (postgres ι) (Py Outcome))
  (reached : Reaches (postgres ι) (start rt calls) before)
variable (i : ι) (sealer : CheckpointSealer) (call : calls i = .sealing sealer)
  (obtains : Obtains i before held)
variable (holds : HoldsKeys (SigningKey calls) sealer.keyring (latest before.store.checkpoints).toList)
  (key : Bytes)
variable (current : sealer.keyring.lookup (text sealer.currentKeyVersion) = some key)

include reached call obtains holds current

theorem holder_seals_on (deeds : List (Deed (postgres ι))) (later : Config (postgres ι) (Py Outcome))
    (logged : Logged (postgres ι) held deeds later) (given : GivenOfDeeds (postgres ι) i more deeds)
    (query : Statement) (resume : Response query → Program Sql (Py Outcome))
    (active : later.sessions i = some (.call query resume)) (allows : more i query later.store) :
    SealsOn more i sealer held.store query resume later.store := by
  have reachedHeld := reaches_trans (postgres ι) _ _ _ reached (obtains_reaches i before held obtains)
  obtain ⟨session, drafting, same⟩ := obtains_begins rt calls before held reached i sealer call obtains
  have checkpoints : (held.store : Store ι).checkpoints = before.store.checkpoints :=
    congrArg Ledger.checkpoints same
  rw [← checkpoints] at holds
  have disciplined :=
    history_disciplined rt calls later
      (reaches_trans (postgres ι) _ _ _ reachedHeld (logged_reaches (postgres ι) _ _ _ logged))
  obtain ⟨allowed, _⟩ := disciplined.verified i _ active _ disciplined.inv (ledger_rely_refl i _)
  have through := logged_through (discipline ι rt (SigningKey calls)) (answered rt calls) i more
    (SealsOn more i sealer held.store)
    (fun _ _ => True) held later deeds (history_disciplined rt calls held reachedHeld) logged given
      (fun program began => by
      rw [session] at began
      rw [← Option.some.inj began]
      exact seals_on rt (SigningKey calls) more i sealer held.store
        (history_sound rt calls held reachedHeld) drafting holds key current)
    _ active
  exact (through later.store disciplined.inv (ledger_rely_refl i _) ⟨allowed, allows⟩).1

theorem seal_concludes (deeds : List (Deed (postgres ι))) (later : Config (postgres ι) (Py Outcome))
    (logged : Logged (postgres ι) held deeds later) (given : GivenOfDeeds (postgres ι) i more deeds) :
    (∀ outcome, later.sessions i = some (.done outcome) →
      Concludes more i sealer held.store deeds later.store outcome) ∧
      ((∀ outcome, later.sessions i ≠ some (.done outcome)) → Unwritten i deeds) := by
  have begins := (obtains_begins rt calls before held reached i sealer call obtains).1
  have reachedHeld := reaches_trans (postgres ι) _ _ _ reached (obtains_reaches i before held obtains)
  induction logged with
  | nothing =>
      refine ⟨fun outcome ended => ?_, fun _ deed none => nomatch none⟩
      rw [begins] at ended
      cases ended
  | answer deeds config j query resume response store supply rest logged active answer ih =>
      obtain ⟨concluded, unfinished⟩ := ih fun deed inside => given deed (List.mem_append_left _ inside)
      by_cases own : j = i
      · subst j
        have allows := given _ (List.mem_append_right _ (List.mem_singleton_self _)) rfl query response rfl
        have going := holder_seals_on more rt calls before held reached i sealer call obtains holds key
          current deeds config logged
          (fun deed inside => given deed (List.mem_append_left _ inside)) query resume active allows
        have nothing := unfinished fun outcome ended => by
          rw [active] at ended
          cases ended
        have step := seals_on_step more i sealer held.store query resume config.store supply response
          store rest going answer deeds nothing
        simp only [Function.update_self, ne_eq, Option.some.injEq]
        exact step
      · have reachedNow :=
          reaches_trans (postgres ι) _ _ _ reachedHeld (logged_reaches (postgres ι) _ _ _ logged)
        have grows := respond_grows rt _ j query config.store supply response store rest
          (history_sound rt calls config reachedNow) answer
        simp only [Function.update_of_ne (Ne.symm own)]
        refine ⟨fun outcome ended => concludes_others more i sealer _ deeds _ _ store outcome own grows
          (concluded outcome ended), fun goesOn => ?_⟩
        exact unwritten_last i deeds _ (unfinished goesOn) fun same => absurd same own
  | lose deeds config j query resume logged active ih =>
      obtain ⟨concluded, unfinished⟩ := ih fun deed inside => given deed (List.mem_append_left _ inside)
      by_cases own : j = i
      · subst j
        refine ⟨fun outcome ended => by simp at ended, fun _ => ?_⟩
        refine unwritten_last i deeds _ (unfinished fun outcome ended => ?_) fun _ => rfl
        rw [active] at ended
        cases ended
      · simp only [Function.update_of_ne (Ne.symm own)]
        refine ⟨fun outcome ended => concludes_others more i sealer _ deeds _ _ _ outcome own
          (grows_same _ _ rfl) (concluded outcome ended),
          fun goesOn => ?_⟩
        exact unwritten_last i deeds _ (unfinished goesOn) fun same => absurd same own

end

end

theorem advances_increment (sealer : CheckpointSealer) (before : Ledger) (checkpoint : Checkpoint)
    (advances : Advances sealer before checkpoint) :
    increment before.events checkpoint (boundaryOf (latest before.checkpoints)) =
      (uncovered before).take sealer.batchSize ∧
      before.events.after checkpoint.lastEventSequence = (uncovered before).drop sealer.batchSize := by
  obtain ⟨newest, ends, reaches⟩ := Option.map_eq_some_iff.mp advances.newest
  have beyond : ∀ row ∈ (uncovered before).take sealer.batchSize,
      boundaryOf (latest before.checkpoints) < row.sequence :=
    fun row inside => of_decide_eq_true (List.mem_filter.mp (List.mem_of_mem_take inside)).2
  have further := beyond newest (List.mem_of_getLast? ends)
  constructor
  · have covered : (before.events.upTo (boundaryOf (latest before.checkpoints))).filter
        (fun row => boundaryOf (latest before.checkpoints) < row.sequence) = [] :=
          List.filter_eq_nil_iff.mpr fun row inside => by
      have below : row.sequence ≤ boundaryOf (latest before.checkpoints) :=
        of_decide_eq_true (List.mem_filter.mp inside).2
      simpa using below
    have fresh := List.filter_eq_self.mpr fun row inside => decide_eq_true (beyond row inside)
    rw [increment, ← reaches, up_to_batch before.events _ sealer.batchSize newest ends,
      List.filter_append, covered, List.nil_append]
    exact fresh
  · rw [← filter_past_page Event.sequence (uncovered before) sealer.batchSize newest
      (before.events.sorted.filter _) ends,
      ← reaches, uncovered, EventTable.after, EventTable.after, List.filter_filter]
    refine List.filter_congr fun row _ => ?_
    by_cases later : newest.sequence < row.sequence
    · simp [later, lt_trans further later]
    · simp [later]

section

variable (rt : Runtime) (signing : Text → Bytes → Prop) {ι : Type}

theorem sound_boundary_reached (store : Store ι) (sound : Sound rt signing store)
    (checkpoint : Checkpoint) (member : checkpoint ∈ store.checkpoints) :
    0 < checkpoint.lastEventSequence ∧
    checkpoint.lastEventSequence ≤ boundaryOf (latest store.checkpoints) := by
  obtain ⟨_, extended, _⟩ :=
    chained_member rt signing store.events none store.checkpoints sound.chain checkpoint member
  obtain ⟨row, committed, reaches⟩ := extended.reaches
  refine ⟨by rw [← reaches]; exact (sound.sequences row (.inl committed)).1, ?_⟩
  cases found : latest store.checkpoints with
  | none =>
      rw [latest_none _ found] at member
      cases member
  | some last => exact sound_boundary_last rt signing store sound last checkpoint found member

theorem uncovered_past (store : Store ι) (sound : Sound rt signing store) (checkpoint : Checkpoint)
    (member : checkpoint ∈ store.checkpoints) :
    (uncovered store.toLedger).length ≤ (store.events.after checkpoint.lastEventSequence).length := by
  have further := (sound_boundary_reached rt signing store sound checkpoint member).2
  have within : uncovered store.toLedger =
      (store.events.after checkpoint.lastEventSequence).filter fun row =>
        boundaryOf (latest store.checkpoints) < row.sequence := by
    rw [uncovered, EventTable.after, EventTable.after, List.filter_filter]
    refine List.filter_congr fun row _ => ?_
    by_cases beyond : boundaryOf (latest store.checkpoints) < row.sequence
    · simp [beyond, lt_of_le_of_lt further beyond]
    · simp [beyond]
  rw [within]
  exact List.length_filter_le _ _

theorem uncovered_shrinks (store next : Store ι) (sound : Sound rt signing next)
    (grows : Grows store next) (still : next.events = store.events) :
    (uncovered next.toLedger).length ≤ (uncovered store.toLedger).length := by
  obtain ⟨more, appended⟩ := grows.appended
  cases last : latest store.checkpoints with
  | some checkpoint =>
      have kept : checkpoint ∈ next.checkpoints := by
        rw [appended]
        exact List.mem_append_left _ (latest_some _ _ last).1
      have bounded := uncovered_past rt signing next sound checkpoint kept
      rw [still] at bounded
      rw [uncovered.eq_def store.toLedger, last]
      exact bounded
  | none =>
      have all : uncovered store.toLedger = store.events.rows := by
        rw [uncovered, last]
        refine List.filter_eq_self.mpr fun row inside => decide_eq_true ?_
        rw [← still] at inside
        exact (sound.sequences row (.inl inside)).1
      rw [all, ← still]
      exact List.length_filter_le _ _

theorem table_members (a b : EventTable) (same : ∀ row, row ∈ a.rows ↔ row ∈ b.rows) : a = b := by
  have _ : Std.Irrefl fun a b : Event => a.sequence < b.sequence := ⟨fun row => lt_irrefl row.sequence⟩
  have _ : Std.Antisymm fun a b : Event => a.sequence < b.sequence :=
    ⟨fun a b less more => absurd (lt_trans less more) (lt_irrefl _)⟩
  obtain ⟨rows, sorted⟩ := a
  obtain ⟨others, arranged⟩ := b
  have equal : rows = others := sorted.eq_of_mem_iff arranged same
  subst equal
  rfl

theorem events_between (a b c : Store ι) (first : Grows a b) (second : Grows b c)
    (same : c.events = a.events) : b.events = a.events :=
  table_members b.events a.events fun row => ⟨fun inside => same ▸ second.rows row inside, first.rows row⟩

end

section

variable (rt : Runtime) {ι : Type} [DecidableEq ι] [Fintype ι]

-- The keyring has the previous checkpoint's key and the current one.
structure Equipped (calls : ι → Call) (sealer : CheckpointSealer) (checkpoints : List Checkpoint) : Prop where
  previous : HoldsKeys (SigningKey calls) sealer.keyring (latest checkpoints).toList
  current : ∃ key, sealer.keyring.lookup (text sealer.currentKeyVersion) = some key

-- The session tried to insert a checkpoint under an id that was used already.
def Redrawn (i : ι) (deeds : List (Deed (postgres ι))) : Prop :=
  ∃ deed ∈ deeds, deed.session = i ∧
    ∃ checkpoint inserted, deed.answered = some ⟨.insertCheckpoint checkpoint, inserted⟩ ∧
    ∃ other ∈ (deed.before : Store ι).checkpoints, other.checkpointId = checkpoint.checkpointId

-- A call that gets the lock, draws a fresh id and ends.
def SealTurn (calls : ι → Call) (batchSize : Nat) (now later : Config (postgres ι) (Py Outcome)) : Prop :=
  ∃ asked held i sealer deeds outcome, Reaches (postgres ι) now asked ∧ calls i = .sealing sealer ∧
    sealer.batchSize = batchSize ∧
    Equipped calls sealer asked.store.checkpoints ∧ Obtains i asked held ∧
    Logged (postgres ι) held deeds later ∧
    GivenOfDeeds (postgres ι) i UnusedCheckpointId deeds ∧ finished (postgres ι) later i = some outcome

theorem fresh_unless_redrawn (i : ι) (deeds : List (Deed (postgres ι))) (never : ¬ Redrawn i deeds) :
    GivenOfDeeds (postgres ι) i UnusedCheckpointId deeds := by
  intro deed member own query response answered
  cases query with
  | insertCheckpoint checkpoint =>
      exact fun other stored same =>
        never ⟨deed, member, own, checkpoint, response, answered, other, stored, same⟩
  | _ => trivial

section

variable (calls : ι → Call) (now later : Config (postgres ι) (Py Outcome))
  (reached : Reaches (postgres ι) (start rt calls) now)

include reached

theorem turn_shrinks (batchSize : Nat) (turn : SealTurn calls batchSize now later)
    (still : (later.store : Store ι).events = (now.store : Store ι).events) :
    (uncovered (later.store : Store ι).toLedger).length ≤
      (uncovered (now.store : Store ι).toLedger).length - batchSize := by
  obtain ⟨asked, held, i, sealer, deeds, outcome, along, call, rfl, equipped, obtains, logged, given,
    ended⟩ := turn
  obtain ⟨key, current⟩ := equipped.current
  have reachedAsked := reaches_trans (postgres ι) _ _ _ reached along
  have toHeld := obtains_reaches i asked held obtains
  have onward := reaches_trans (postgres ι) _ _ _ toHeld (logged_reaches (postgres ι) _ _ _ logged)
  have sound := history_sound rt calls later (reaches_trans (postgres ι) _ _ _ reachedAsked onward)
  have soundAsked := history_sound rt calls asked reachedAsked
  have first := history_grows rt calls now asked reached along
  have second := history_grows rt calls asked later reachedAsked onward
  have between := events_between _ _ _ first second still
  have fewer := uncovered_shrinks rt _ _ _ soundAsked first between
  have same := (obtains_begins rt calls asked held reachedAsked i sealer call obtains).2.2
  have concludes :=
    (seal_concludes UnusedCheckpointId rt calls asked held reachedAsked i sealer call obtains
    equipped.previous key current
    deeds later logged given).1 outcome ((finished_done (postgres ι) later i outcome).mp ended)
  match outcome, concludes with
  | .ok (.sealing .idle), ⟨nothing, _⟩ =>
      rw [same] at nothing
      have rest := uncovered_shrinks rt _ _ _ sound second (still.trans between.symm)
      rw [nothing, List.length_nil] at rest
      omega
  | .ok (.sealing (.sealed checkpoint)), ⟨advances, _, others, appended⟩ =>
      rw [same] at advances
      have stored : checkpoint ∈ (later.store : Store ι).checkpoints := by
        rw [appended]
        simp
      have rest := uncovered_past rt _ _ sound checkpoint stored
      rw [still, ← between] at rest
      rw [show (asked.store : Store ι).events.after checkpoint.lastEventSequence =
        _ from (advances_increment sealer _ checkpoint advances).2,
        List.length_drop] at rest
      omega
  | .error error, ⟨⟨_, _, stale⟩, _⟩ => exact absurd (fun _ _ => id) stale

theorem turns_shrink (moments : Nat → Config (postgres ι) (Py Outcome)) (batchSize turns : Nat)
    (first : moments 0 = now)
    (each : ∀ turn < turns, SealTurn calls batchSize (moments turn) (moments (turn + 1)))
    (still : ((moments turns).store : Store ι).events = (now.store : Store ι).events) :
    (uncovered ((moments turns).store : Store ι).toLedger).length ≤
      (uncovered (now.store : Store ι).toLedger).length - turns * batchSize := by
  have along : ∀ turn ≤ turns, Reaches (postgres ι) now (moments turn) := by
    intro turn below
    induction turn with
    | zero => exact first ▸ reaches_refl (postgres ι) _
    | succ turn ih =>
        obtain ⟨asked, held, i, sealer, deeds, outcome, onward, _, _, _, obtains, logged, _⟩ :=
          each turn below
        exact reaches_trans (postgres ι) _ _ _ (ih (by omega)) (reaches_trans (postgres ι) _ _ _ onward
          (reaches_trans (postgres ι) _ _ _ (obtains_reaches i asked held obtains)
            (logged_reaches (postgres ι) _ _ _ logged)))
  induction turns with
  | zero =>
      rw [first, Nat.zero_mul]
      exact Nat.le_refl _
  | succ turns ih =>
      have reachedTurn := along turns (Nat.le_succ turns)
      have turn := each turns (Nat.lt_succ_self turns)
      have onward : Reaches (postgres ι) (moments turns) (moments (turns + 1)) := by
        obtain ⟨asked, held, i, sealer, deeds, outcome, onward, _, _, _, obtains, logged, _⟩ := turn
        exact reaches_trans (postgres ι) _ _ _ onward
          (reaches_trans (postgres ι) _ _ _ (obtains_reaches i asked held obtains)
            (logged_reaches (postgres ι) _ _ _ logged))
      have reachedNow := reaches_trans (postgres ι) _ _ _ reached reachedTurn
      have between := events_between _ _ _ (history_grows rt calls now _ reached reachedTurn)
        (history_grows rt calls _ _ reachedNow onward) still
      have before := ih (fun turn below => each turn (by omega)) between fun turn below =>
        along turn (by omega)
      have shrinks := turn_shrinks rt calls _ _ reachedNow batchSize turn (still.trans between.symm)
      rw [Nat.succ_mul]
      omega

end

-- The calls it takes for so many rows.
def turnsFor (rows batchSize : Nat) : Nat := (rows + batchSize - 1) / batchSize

theorem turns_for_enough (rows batchSize turns : Nat) (positive : 0 < batchSize)
    (enough : turnsFor rows batchSize ≤ turns) :
    rows ≤ turns * batchSize := by
  have split := Nat.div_add_mod (rows + batchSize - 1) batchSize
  have less := Nat.mod_lt (rows + batchSize - 1) positive
  have grown := Nat.mul_le_mul_left batchSize enough
  rw [turnsFor] at grown
  rw [Nat.mul_comm turns]
  omega

-- What a call does that gets the lock and whose keyring holds the two keys.
structure Exact (i : ι) (sealer : CheckpointSealer) (before : Ledger) (deeds : List (Deed (postgres ι)))
    (after : Ledger) (outcome : Py Outcome) : Prop where
  unblamed : ∀ error, outcome ≠ .error (.ledger error)
  idle : outcome = .ok (.sealing .idle) ↔ uncovered before = []
  sealed : uncovered before ≠ [] → outcome = .error .integrityError ∧ Redrawn i deeds ∨ ∃ checkpoint others,
    outcome = .ok (.sealing (.sealed checkpoint)) ∧ Appends i before deeds checkpoint ∧
      after.checkpoints = before.checkpoints ++ checkpoint :: others ∧
      checkpoint.previousCheckpointId = (latest before.checkpoints).map Checkpoint.checkpointId ∧
      increment before.events checkpoint (boundaryOf (latest before.checkpoints)) =
        (uncovered before).take sealer.batchSize

theorem seal_exact (calls : ι → Call) (before held later : Config (postgres ι) (Py Outcome)) (i : ι)
    (sealer : CheckpointSealer) (deeds : List (Deed (postgres ι)))
    (reached : Reaches (postgres ι) (start rt calls) before) (call : calls i = .sealing sealer)
    (obtains : Obtains i before held) (equipped : Equipped calls sealer before.store.checkpoints)
    (logged : Logged (postgres ι) held deeds later) (outcome : Py Outcome)
    (ended : finished (postgres ι) later i = some outcome) :
    Exact i sealer (before.store : Store ι).toLedger deeds (later.store : Store ι).toLedger outcome := by
  obtain ⟨key, current⟩ := equipped.current
  have same := (obtains_begins rt calls before held reached i sealer call obtains).2.2
  obtain ⟨more, given, stale⟩ : ∃ more, GivenOfDeeds (postgres ι) i more deeds ∧
      (¬ FreshIds more i → Redrawn i deeds) := by
    by_cases redrawn : Redrawn i deeds
    · exact ⟨fun _ _ _ => True, fun _ _ _ _ _ _ => trivial, fun _ => redrawn⟩
    · exact ⟨UnusedCheckpointId, fresh_unless_redrawn i deeds redrawn,
        fun stale => absurd (fun _ _ => id) stale⟩
  have concludes :=
    (seal_concludes more rt calls before held reached i sealer call obtains equipped.previous key current
    deeds later logged given).1 outcome ((finished_done (postgres ι) later i outcome).mp ended)
  match outcome, concludes with
  | .ok (.sealing .idle), ⟨nothing, _⟩ =>
      rw [same] at nothing
      exact ⟨nofun, iff_of_true rfl nothing, fun left => absurd nothing left⟩
  | .ok (.sealing (.sealed checkpoint)), ⟨advances, appends, others, appended⟩ =>
      rw [same] at advances appends
      have left : uncovered (before.store : Store ι).toLedger ≠ [] := by
        intro nothing
        have newest := advances.newest
        rw [nothing, List.take_nil] at newest
        cases newest
      refine ⟨nofun, iff_of_false nofun left,
        fun _ => .inr ⟨checkpoint, others, rfl, appends, ?_, advances.link,
        (advances_increment sealer _ checkpoint advances).1⟩⟩
      rw [← same]
      exact appended
  | .error error, ⟨⟨integrity, left, unfresh⟩, _⟩ =>
      subst integrity
      rw [same] at left
      exact ⟨nofun, iff_of_false nofun left, fun _ => .inl ⟨rfl, stale unfresh⟩⟩

theorem raising_seal_unwritten (calls : ι → Call) (now later : Config (postgres ι) (Py Outcome)) (i : ι)
    (sealer : CheckpointSealer) (deeds : List (Deed (postgres ι))) (call : calls i = .sealing sealer)
    (unstarted : now.sessions i = some ((calls i).program rt).run)
    (logged : Logged (postgres ι) now deeds later) (error : PyError)
    (raised : finished (postgres ι) later i = some (.error error)) :
    Unwritten i deeds := by
  rw [call] at unstarted
  have last := logged_last (postgres ι) (fun query => query = .commit)
    (fun outcome => ∃ result, outcome = .ok (.sealing result))
    (fun before after => (after : Store ι).toLedger = (before : Store ι).toLedger) i
    (fun query store before response next after other answer =>
      respond_unwritten i query store before response next after other answer)
    (fun _ => rfl) now later deeds logged _ unstarted
    (everywhere_mono _ _ _ (fun query resume shape commits response => by
      subst commits
      obtain ⟨result, done⟩ := shape
      exact ⟨_, done, result, rfl⟩) (seal_call_shape rt sealer))
  rcases last with ⟨value, ended, result, rfl⟩ | unwritten
  · rw [(finished_done (postgres ι) later i _).mp raised] at ended
    cases ended
  · exact unwritten

-- A seal that has the lock and the keys blames nobody and waits for nobody: it reports
-- idle just when every row is covered, and appends a checkpoint over the batch_size
-- lowest uncovered rows else; only an id drawn twice can keep it from that. A seal that
-- raises leaves the ledger alone, and ceil(k / batch_size) seals cover k rows.
theorem seals_make_exact_progress (calls : ι → Call) :
    (∀ before held later i sealer deeds, Reaches (postgres ι) (start rt calls) before →
      calls i = .sealing sealer →
      Obtains i before held → Equipped calls sealer before.store.checkpoints →
      Logged (postgres ι) held deeds later →
      (∀ query resume, later.sessions i = some (.call query resume) →
        ∀ supply, ∃ answer, respond i query later.store supply = some answer) ∧
      ∀ outcome, finished (postgres ι) later i = some outcome →
        Exact i sealer (before.store : Store ι).toLedger deeds (later.store : Store ι).toLedger outcome) ∧
    (∀ now later i sealer deeds, calls i = .sealing sealer →
      now.sessions i = some ((calls i).program rt).run →
      Logged (postgres ι) now deeds later →
      ∀ error, finished (postgres ι) later i = some (.error error) → Unwritten i deeds) ∧
    ∀ (moments : Nat → Config (postgres ι) (Py Outcome)) batchSize turns,
      Reaches (postgres ι) (start rt calls) (moments 0) → 0 < batchSize →
      (∀ turn < turns, SealTurn calls batchSize (moments turn) (moments (turn + 1))) →
      ((moments turns).store : Store ι).events = ((moments 0).store : Store ι).events →
      turnsFor (uncovered ((moments 0).store : Store ι).toLedger).length batchSize ≤ turns →
        uncovered ((moments turns).store : Store ι).toLedger = [] := by
  refine ⟨fun before held later i sealer deeds reached call obtains equipped logged =>
    ⟨fun query resume active => ?_, ?_⟩, ?_, ?_⟩
  · obtain ⟨key, current⟩ := equipped.current
    exact (holder_seals_on
      (fun _ _ _ => True) rt calls before held reached i sealer call obtains equipped.previous key
        current deeds later
      logged (fun _ _ _ _ _ _ => trivial) query resume active trivial).1
  · exact seal_exact rt calls before held later i sealer deeds reached call obtains equipped logged
  · intro now later i sealer deeds call unstarted logged error raised
    exact raising_seal_unwritten rt calls now later i sealer deeds call unstarted logged error raised
  · intro moments batchSize turns reached positive each still enough
    have shrunk := turns_shrink rt calls (moments 0) reached moments batchSize turns rfl each still
    have covered := turns_for_enough _ batchSize turns positive enough
    exact List.eq_nil_of_length_eq_zero (by omega)

end

theorem lock_refused {ι : Type} [DecidableEq ι] [Fintype ι] (i : ι) (store next : Store ι)
    (supply rest : Supply)
    (answer : respond i .tryLockExclusive store supply = some (false, next, rest)) : next = store := by
  rw [respond] at answer
  split at answer <;> cases answer
  rfl

-- Every inserted checkpoint has an id no other has.
def freshCheckpoints : Policy (postgres Bool) (Py Outcome) := fun _ config query _ =>
  match query with
  | .insertCheckpoint checkpoint => (config.store : Store Bool).checkpoints.all fun other =>
      other.checkpointId ≠ checkpoint.checkpointId
  | _ => true

theorem fresh_checkpoints_given (start later : Config (postgres Bool) (Py Outcome))
    (run : PacedRun (postgres Bool) freshCheckpoints start later) :
    ∃ deeds, Logged (postgres Bool) start deeds later ∧
    GivenOfDeeds (postgres Bool) true UnusedCheckpointId deeds := by
  obtain ⟨deeds, logged, fine⟩ := paced_logged (postgres Bool) freshCheckpoints start later run
  refine ⟨deeds, logged, ?_⟩
  rintro deed member - query response answered
  obtain ⟨config, same, allowed⟩ := fine deed member query response answered
  rw [← same]
  cases query with
  | insertCheckpoint checkpoint =>
      exact fun other inside => by simpa using List.all_eq_true.mp allowed other inside
  | _ => trivial

-- The report of the sample run, the lock of the seal after it, and the rest of the seal.
theorem sample_lock_run :
    ∃ mid ∈ runSchedule (postgres Bool) (List.replicate 7 false) (start reference sampleCalls) sampleSupply,
    ∃ locked ∈ runSchedule (postgres Bool) [true] mid.1 mid.2,
    ∃ final ∈ runPaced (postgres Bool) freshCheckpoints (List.replicate 7 true) locked.1 locked.2,
      mid.1.store.checkpoints = [] ∧ mid.1.store.events.rows = [sampleEvent] ∧
      final.1.store.events.rows = [sampleEvent] ∧
      (mid.1.store.transactions true).exclusive = false ∧
      (locked.1.store.transactions true).exclusive = true ∧
      finished (postgres Bool) final.1 true =
        some (.ok (.sealing (.sealed sampleCheckpoint))) := by decide +kernel

theorem sample_seal_exact :
    ∃ (sealer : CheckpointSealer) (before later : Config (postgres Bool) (Py Outcome))
      (deeds : List (Deed (postgres Bool))),
    uncovered (before.store : Store Bool).toLedger = [sampleEvent] ∧
    Exact true sealer (before.store : Store Bool).toLedger deeds (later.store : Store Bool).toLedger
      (.ok (.sealing (.sealed sampleCheckpoint))) ∧
    uncovered (later.store : Store Bool).toLedger = [] := by
  obtain ⟨⟨mid, supply⟩, ranMid, ⟨locked, rest⟩, ranLock, ⟨final, last⟩, ranFinal, unsealed, rows, kept,
    free, taken, ended⟩ := sample_lock_run
  have reached := run_schedule_reaches (postgres Bool) _ _ _ _ _ ranMid
  have unstarted := run_schedule_untouched (postgres Bool) _ _ _ _ _ ranMid true (by decide)
  have session : mid.sessions true =
      some (.call .tryLockExclusive (resumeSeal reference ⟨sampleKeyring, "v1", 10, by decide⟩)) := by
    rw [unstarted, ← seal_call_run]
    rfl
  obtain ⟨acquired, left, answer, sessions⟩ :=
    run_schedule_once (postgres Bool) true mid locked supply rest _ _ session ranLock
  have obtains : Obtains true mid locked := by
    cases acquired with
    | true => exact ⟨_, supply, left, session, answer, sessions⟩
    | false =>
        rw [lock_refused true mid.store locked.store supply left answer, free] at taken
        cases taken
  obtain ⟨deeds, logged, fresh⟩ :=
    fresh_checkpoints_given locked final (run_paced (postgres Bool) _ _ _ _ _ _ ranFinal)
  have equipped : Equipped sampleCalls ⟨sampleKeyring, "v1", 10, by decide⟩
      (mid.store : Store Bool).checkpoints := by
    refine ⟨?_, [1], by decide⟩
    rw [show (mid.store : Store Bool).checkpoints = [] from unsealed]
    exact fun checkpoint none => nomatch none
  have uncoveredThen : uncovered (mid.store : Store Bool).toLedger = [sampleEvent] := by
    rw [uncovered, EventTable.after, show (mid.store : Store Bool).checkpoints = [] from unsealed,
      show (mid.store : Store Bool).events.rows = [sampleEvent] from rows]
    rfl
  obtain ⟨exactly, _, covers⟩ := seals_make_exact_progress reference sampleCalls
  have sealed := (exactly mid locked final true _ deeds reached rfl obtains equipped logged).2 _ ended
  have same : (final.store : Store Bool).events = (mid.store : Store Bool).events :=
    table_members _ _ fun row => by
    rw [show (final.store : Store Bool).events.rows = [sampleEvent] from kept,
      show (mid.store : Store Bool).events.rows = [sampleEvent] from rows]
  have nothing := covers (fun turn => if turn = 0 then mid else final) 10 1 reached (by decide)
      (fun turn below => by
    obtain rfl : turn = 0 := by omega
    exact ⟨mid, locked, true, _, deeds, _, reaches_refl (postgres Bool) mid, rfl, rfl, equipped,
      obtains, logged, fresh, ended⟩) same (by
    show turnsFor (uncovered (mid.store : Store Bool).toLedger).length 10 ≤ 1
    rw [uncoveredThen]
    decide)
  exact ⟨_, mid, final, deeds, uncoveredThen, sealed, nothing⟩

end CalibrationLedger
