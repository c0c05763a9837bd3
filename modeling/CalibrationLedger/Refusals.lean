import CalibrationLedger.Linearization

set_option autoImplicit false

-- What a read of a ledger nobody tampered with can refuse: an id that is not there, a
-- cursor outside the increment, a key version the keyring lacks.
namespace CalibrationLedger

open JsonText Digest HashTree Interleaving

-- A keyring may lack versions, but no key it holds is another than the one that signed.
def NoWrongKey (signing : Text → Bytes → Prop) (keyring : Keyring) : Prop :=
  ∀ version held key, keyring.lookup version = some held → signing version key → held = key

def unknownKey (checkpoint : Checkpoint) : PyError :=
  .ledger ⟨"UNKNOWN_KEY_VERSION", text "unknown HMAC key version: " ++ text checkpoint.keyVersion, 500,
    [("key_version", string checkpoint.keyVersion)]⟩

-- The read succeeds if the keyring holds every version it needs, and otherwise names one
-- that is missing.
def KeyBound {α : Type} (keyring : Keyring) (needed : List Checkpoint) (outcome : Py α) : Prop :=
  (∀ checkpoint ∈ needed, (keyring.lookup (text checkpoint.keyVersion)).isSome) ∧
    (∃ value, outcome = .ok value) ∨
    ∃ checkpoint ∈ needed, keyring.lookup (text checkpoint.keyVersion) = none ∧
    outcome = .error (unknownKey checkpoint)

-- A cursor outside the increment is refused with its bounds.
def PageBound {α : Type} (keyring : Keyring) (needed : List Checkpoint) (checkpoint : Checkpoint)
    (start cursor : Int) (outcome : Py α) : Prop :=
  cursor < start ∧
    outcome = .error
      (invalidCursor "after_sequence is before the checkpoint's increment start" checkpoint cursor start) ∨
    checkpoint.lastEventSequence < cursor ∧
      outcome = .error
        (invalidCursor "after_sequence is beyond the checkpoint's fixed upper bound" checkpoint
          cursor start) ∨
    start ≤ cursor ∧ cursor ≤ checkpoint.lastEventSequence ∧ KeyBound keyring needed outcome

section

variable (rt : Runtime) (signing : Text → Bytes → Prop) {ι : Type} (store : Store ι) (keyring : Keyring)

theorem no_wrong_key_holds (candid : NoWrongKey signing keyring) (checkpoints : List Checkpoint)
    (held : ∀ checkpoint ∈ checkpoints, (keyring.lookup (text checkpoint.keyVersion)).isSome) :
    HoldsKeys signing keyring checkpoints := by
  intro checkpoint member key signs
  obtain ⟨own, found⟩ := Option.isSome_iff_exists.mp (held checkpoint member)
  rw [found, candid _ own key found signs]

theorem boundary_key_missing (checkpoint : Checkpoint)
    (missing : keyring.lookup (text checkpoint.keyVersion) = none) :
    boundaryKey keyring checkpoint = .error (unknownKey checkpoint) := by
  rw [boundaryKey, requireKey, missing]
  rfl

variable (sound : Sound rt signing store) (checkpoint : Checkpoint) (member : checkpoint ∈ store.checkpoints)

include sound

section

include member

theorem prefix_refused (missing : keyring.lookup (text checkpoint.keyVersion) = none) :
    validatedPrefix rt store.events checkpoint keyring = .error (unknownKey checkpoint) := by
  have covered := sound_covers rt signing store sound checkpoint member
  obtain ⟨_, extended, _⟩ :=
    chained_member rt signing store.events none store.checkpoints sound.chain checkpoint member
  have positive := extended.grows
  have nonempty : store.events.upTo checkpoint.lastEventSequence ≠ [] :=
    List.ne_nil_of_length_pos (by rw [covered.count]; omega)
  have rooted : hex
    (merkleRoot rt.toHashFunction ((store.events.upTo checkpoint.lastEventSequence).map (rowLeaf rt))) =
      checkpoint.rootHash := covered.root
  rw [validatedPrefix, if_neg (by simp [covered.count, nonempty]), checked_leaves_returns rt _ covered.leaves]
  change (if _ then _ else _) = _
  rw [if_neg (by simp [rooted]), boundary_key_missing keyring checkpoint missing]
  rfl

end

theorem bundle_refused (previous : Checkpoint) (inside : previous ∈ store.checkpoints)
    (link : checkpoint.previousCheckpointId = some previous.checkpointId) (leaves : List Bytes)
    (missing : keyring.lookup (text previous.keyVersion) = none) :
    buildConsistencyBundle rt store.toLedger checkpoint leaves keyring = .error (unknownKey previous) := by
  have found : store.toLedger.checkpoint previous.checkpointId = some previous :=
    distinct_found store.checkpoints sound.distinct previous inside
  have refused := prefix_refused rt signing store keyring sound previous inside missing
  rw [buildConsistencyBundle, link]
  dsimp only
  rw [found]
  dsimp only
  rw [show store.toLedger.events = store.events from rfl, refused]
  rfl

variable (candid : NoWrongKey signing keyring)

include member candid

-- The keys decide a read that validates the checkpoint's own prefix, then its
-- predecessor's, and then cannot fail.
theorem bound_by_keys {α : Type} (outcome : Py α)
    (refused : ∀ error, validatedPrefix rt store.events checkpoint keyring = .error error →
      outcome = .error error)
    (unbundled : ∀ error, HoldsKeys signing keyring [checkpoint] →
      buildConsistencyBundle rt store.toLedger checkpoint
        (leavesOf rt store.events checkpoint) keyring = .error error →
        outcome = .error error)
    (built : HoldsKeys signing keyring (neededBy store.checkpoints checkpoint) →
        ∃ value, outcome = .ok value) :
    KeyBound keyring (neededBy store.checkpoints checkpoint) outcome := by
  have needed : checkpoint ∈ neededBy store.checkpoints checkpoint := List.mem_filter.mpr ⟨member, by simp⟩
  by_cases held : ∀ row ∈ neededBy store.checkpoints checkpoint, (keyring.lookup (text row.keyVersion)).isSome
  · exact .inl ⟨held, built (no_wrong_key_holds signing keyring candid _ held)⟩
  · obtain ⟨row, lacking, lacks⟩ := not_forall₂.mp held
    have missing : keyring.lookup (text row.keyVersion) = none := Option.not_isSome_iff_eq_none.mp lacks
    cases own : keyring.lookup (text checkpoint.keyVersion) with
    | none =>
        exact .inr ⟨checkpoint, needed, own,
          refused _ (prefix_refused rt signing store keyring sound checkpoint member own)⟩
    | some key =>
        refine .inr ⟨row, lacking, missing, ?_⟩
        obtain ⟨inside, named⟩ := List.mem_filter.mp lacking
        have holds : HoldsKeys signing keyring [checkpoint] :=
          no_wrong_key_holds signing keyring candid _ fun other single => by
          rw [List.mem_singleton.mp single, own]
          rfl
        rcases Bool.or_eq_true_iff.mp named with itself | before
        · have found := distinct_found store.checkpoints sound.distinct row inside
          rw [of_decide_eq_true itself,
            distinct_found store.checkpoints sound.distinct checkpoint member] at found
          rw [← Option.some.inj found, own] at missing
          cases missing
        · exact unbundled _ holds (bundle_refused rt signing store keyring sound checkpoint row inside
            (of_decide_eq_true before).symm _ missing)

theorem receipt_bound (event : Event) (committed : event ∈ store.events.rows)
    (below : event.sequence ≤ checkpoint.lastEventSequence) :
    KeyBound keyring (neededBy store.checkpoints checkpoint)
      (buildReceiptAtCheckpoint rt store.toLedger event checkpoint keyring) := by
  obtain ⟨index, inside⟩ := covered_at store.events checkpoint.lastEventSequence event committed below
  have placed := covered_index rt signing store sound checkpoint.lastEventSequence event index inside
  refine bound_by_keys rt signing store keyring sound checkpoint member candid _ (fun error refused => ?_)
    (fun error own unbundled => ?_) fun holds => ?_
  · rw [buildReceiptAtCheckpoint, show store.toLedger.events = store.events from rfl, refused]
    rfl
  · rw [buildReceiptAtCheckpoint, show store.toLedger.events = store.events from rfl,
      sound_validated rt signing store sound keyring checkpoint member own]
    dsimp only [bind, Except.bind]
    rw [placed]
    dsimp only
    rw [unbundled]
  · obtain ⟨consistency, bundled, _⟩ := sound_bundled rt signing store sound checkpoint member
    exact ⟨_, built_at_checkpoint rt signing store sound keyring checkpoint member
      (own_key signing keyring store.checkpoints checkpoint member holds) consistency event index
        (bundled keyring holds) inside⟩

theorem view_bound : KeyBound keyring (neededBy store.checkpoints checkpoint)
    (buildCheckpointView rt store.toLedger checkpoint.checkpointId keyring) := by
  have found : store.toLedger.checkpoint checkpoint.checkpointId = some checkpoint :=
    distinct_found store.checkpoints sound.distinct checkpoint member
  rw [buildCheckpointView, found]
  dsimp only
  rw [show store.toLedger.events = store.events from rfl]
  refine bound_by_keys rt signing store keyring sound checkpoint member candid _ (fun error refused => ?_)
    (fun error own unbundled => ?_) fun holds => ?_
  · rw [refused]
    rfl
  · rw [sound_validated rt signing store sound keyring checkpoint member own]
    change (buildConsistencyBundle _ _ _ _ _ >>= _) = _
    rw [unbundled]
    rfl
  · obtain ⟨consistency, bundled, _⟩ := sound_bundled rt signing store sound checkpoint member
    exact ⟨_, (bind_ok _ _ _).mpr ⟨_, sound_validated rt signing store sound keyring checkpoint member
        (own_key signing keyring store.checkpoints checkpoint member holds),
        (bind_ok _ _ _).mpr ⟨consistency, bundled keyring holds,
      (bind_ok _ _ _).mpr ⟨_, checkpoint_view_shown rt checkpoint, rfl⟩⟩⟩⟩

-- A page is refused for its cursor before any key is looked up.
theorem page_bound (afterSequence : Option Int) (limit : Nat) (positive : 0 < limit) :
    ∃ start, incrementStart store.toLedger checkpoint = .ok start ∧
      PageBound keyring (neededBy store.checkpoints checkpoint) checkpoint start (afterSequence.getD start)
        (buildCheckpointEventPage rt store.toLedger checkpoint.checkpointId afterSequence limit keyring) := by
  obtain ⟨start, began, order⟩ := sound_began rt signing store sound checkpoint member
  have found : store.toLedger.checkpoint checkpoint.checkpointId = some checkpoint :=
    distinct_found store.checkpoints sound.distinct checkpoint member
  refine ⟨start, began, ?_⟩
  by_cases low : afterSequence.getD start < start
  · refine .inl ⟨low, ?_⟩
    rw [buildCheckpointEventPage, found]
    dsimp only
    rw [began]
    change (if _ then _ else _) = _
    rw [if_pos low]
    rfl
  · by_cases high : checkpoint.lastEventSequence < afterSequence.getD start
    · refine .inr (.inl ⟨high, ?_⟩)
      rw [buildCheckpointEventPage, found]
      dsimp only
      rw [began]
      change (if _ then _ else _) = _
      rw [if_neg low, if_pos high]
      rfl
    · refine .inr (.inr ⟨not_lt.mp low, not_lt.mp high, ?_⟩)
      refine bound_by_keys rt signing store keyring sound checkpoint member candid _ (fun error refused => ?_)
        (fun error own unbundled => ?_) fun holds => ?_
      · rw [buildCheckpointEventPage, found]
        dsimp only
        rw [began]
        change (if _ then _ else _) = _
        rw [if_neg low, if_neg high, show store.toLedger.events = store.events from rfl, refused]
        rfl
      · rw [buildCheckpointEventPage, found]
        dsimp only
        rw [began]
        change (if _ then _ else _) = _
        rw [if_neg low, if_neg high, show store.toLedger.events = store.events from rfl,
          sound_validated rt signing store sound keyring checkpoint member own]
        change (buildConsistencyBundle _ _ _ _ _ >>= _) = _
        rw [unbundled]
        rfl
      · obtain ⟨consistency, bundled, _⟩ := sound_bundled rt signing store sound checkpoint member
        exact ⟨_, page_built rt signing store sound keyring checkpoint member
          (own_key signing keyring store.checkpoints checkpoint member holds) start began consistency
            (bundled keyring holds)
          afterSequence limit positive (not_lt.mp low) (not_lt.mp high)⟩

end

section

variable (rt : Runtime) {ι : Type} [DecidableEq ι] [Fintype ι] (calls : ι → Call)
  (moments : Nat → Config (postgres ι) (Py Outcome))
  (reached : Reaches (postgres ι) (start rt calls) (moments 0))
  (onward : ∀ turn, Reaches (postgres ι) (moments turn) (moments (turn + 1)))

include reached onward

-- With a keyring that at worst lacks versions, no interleaving of writers and sealers
-- makes a read report a corrupt prefix, a broken chain or a bad signature.
theorem reads_never_report_corruption (keyring : Keyring) (candid : NoWrongKey (SigningKey calls) keyring) :
    (∀ eventId, ∃ turn ≤ 1,
      (moments turn).store.events.byId eventId = none ∧ serve (Requests.buildReceipt rt eventId keyring)
          (fun turn => (moments turn).store.toLedger) = .error (notFoundError "event" eventId.toText) ∨
        ∃ event, (moments turn).store.events.byId eventId = some event ∧
          ((∀ checkpoint ∈ (moments turn).store.checkpoints, checkpoint.lastEventSequence < event.sequence) ∧
              (∃ receipt, serve (Requests.buildReceipt rt eventId keyring)
                (fun turn => (moments turn).store.toLedger) = .ok receipt) ∨
            ∃ checkpoint ∈ (moments turn).store.checkpoints, event.sequence ≤ checkpoint.lastEventSequence ∧
              KeyBound keyring (neededBy (moments turn).store.checkpoints checkpoint)
                (serve (Requests.buildReceipt rt eventId keyring) fun turn =>
                  (moments turn).store.toLedger))) ∧
    (∀ checkpointId,
      (moments 0).store.toLedger.checkpoint checkpointId = none ∧
      serve (Requests.buildCheckpointView rt checkpointId keyring)
          (fun turn => (moments turn).store.toLedger) =
            .error (notFoundError "checkpoint" checkpointId.toText) ∨
        ∃ checkpoint, (moments 0).store.toLedger.checkpoint checkpointId = some checkpoint ∧
          KeyBound keyring (neededBy (moments 0).store.checkpoints checkpoint)
            (serve (Requests.buildCheckpointView rt checkpointId keyring) fun turn =>
              (moments turn).store.toLedger)) ∧
    ∀ checkpointId afterSequence limit, 0 < limit →
      (moments 0).store.toLedger.checkpoint checkpointId = none ∧
          serve (Requests.buildCheckpointEventPage rt checkpointId afterSequence limit keyring)
            (fun turn => (moments turn).store.toLedger) =
              .error (notFoundError "checkpoint" checkpointId.toText) ∨
        ∃ checkpoint, (moments 0).store.toLedger.checkpoint checkpointId = some checkpoint ∧
          ∃ start, incrementStart (moments 0).store.toLedger checkpoint = .ok start ∧
            PageBound keyring (neededBy (moments 0).store.checkpoints checkpoint) checkpoint start
              (afterSequence.getD start)
              (serve (Requests.buildCheckpointEventPage rt checkpointId afterSequence limit keyring)
                fun turn => (moments turn).store.toLedger) := by
  refine ⟨fun eventId => ?_, fun checkpointId => ?_, fun checkpointId afterSequence limit positive => ?_⟩
  · obtain ⟨turn, order, answer⟩ := receipt_request rt calls moments reached onward eventId keyring
    obtain ⟨sound, _⟩ := moments_grow rt calls moments reached onward turn turn (le_refl turn)
    refine ⟨turn, order, ?_⟩
    rw [answer]
    cases found : (moments turn).store.events.byId eventId with
    | none =>
        refine .inl ⟨rfl, ?_⟩
        rw [buildReceipt, show (moments turn).store.toLedger.events.byId eventId = none from found]
        rfl
    | some event =>
        obtain ⟨committed, named⟩ := by_id_found _ eventId event found
        subst named
        refine .inr ⟨event, rfl, ?_⟩
        rw [receipt_built rt _ (moments turn).store sound keyring event committed]
        cases covering : latest ((moments turn).store.checkpoints.filter fun row => event.sequence ≤
              row.lastEventSequence) with
        | none =>
            refine .inl ⟨fun checkpoint member => ?_, _, rfl⟩
            by_contra reaches
            have inside : checkpoint ∈ (moments turn).store.checkpoints.filter fun row =>
              event.sequence ≤ row.lastEventSequence :=
              List.mem_filter.mpr ⟨member, by simpa using not_lt.mp reaches⟩
            rw [latest_none _ covering] at inside
            cases inside
        | some checkpoint =>
            obtain ⟨member, below⟩ := List.mem_filter.mp (latest_some _ checkpoint covering).1
            have reaches : event.sequence ≤ checkpoint.lastEventSequence := by simpa using below
            exact .inr ⟨checkpoint, member, reaches,
              receipt_bound rt _ (moments turn).store keyring sound checkpoint member candid event
              committed reaches⟩
  · obtain ⟨sound, _⟩ := moments_grow rt calls moments reached onward 0 0 (le_refl 0)
    rw [view_request rt calls moments reached onward checkpointId keyring]
    cases found : (moments 0).store.toLedger.checkpoint checkpointId with
    | none =>
        refine .inl ⟨rfl, ?_⟩
        rw [buildCheckpointView, found]
        rfl
    | some checkpoint =>
        have member : checkpoint ∈ (moments 0).store.checkpoints := List.mem_of_find?_eq_some found
        obtain rfl : checkpoint.checkpointId = checkpointId := by simpa using List.find?_some found
        exact .inr ⟨checkpoint, rfl, view_bound rt _ (moments 0).store keyring sound checkpoint member candid⟩
  · obtain ⟨sound, _⟩ := moments_grow rt calls moments reached onward 0 0 (le_refl 0)
    rw [page_request rt calls moments reached onward checkpointId afterSequence limit keyring]
    cases found : (moments 0).store.toLedger.checkpoint checkpointId with
    | none =>
        refine .inl ⟨rfl, ?_⟩
        rw [buildCheckpointEventPage, found]
        rfl
    | some checkpoint =>
        have member : checkpoint ∈ (moments 0).store.checkpoints := List.mem_of_find?_eq_some found
        obtain rfl : checkpoint.checkpointId = checkpointId := by simpa using List.find?_some found
        exact .inr ⟨checkpoint, rfl,
          page_bound rt _ (moments 0).store keyring sound checkpoint member candid afterSequence
            limit positive⟩

end

-- The sealed sample ledger, read by a service without keys.
theorem sample_read_refused : ∃ ledger : Ledger, ledger.checkpoints = [sampleCheckpoint] ∧
    serve (Requests.buildCheckpointView reference sampleCheckpoint.checkpointId []) (fun _ => ledger) =
      .error (unknownKey sampleCheckpoint) := by
  obtain ⟨config, reached, _, checkpoints, _⟩ := sample_run
  obtain ⟨_, views, _⟩ := reads_never_report_corruption reference sampleCalls (fun _ => config) reached
    (fun _ => reaches_refl (postgres Bool) config) [] fun version held key found => by cases found
  have found : config.store.toLedger.checkpoint sampleCheckpoint.checkpointId = some sampleCheckpoint := by
    rw [Ledger.checkpoint, show config.store.toLedger.checkpoints = [sampleCheckpoint] from checkpoints]
    exact List.find?_cons_of_pos (by simp)
  have needed : neededBy config.store.checkpoints sampleCheckpoint = [sampleCheckpoint] := by
    rw [checkpoints, neededBy]
    simp
  refine ⟨config.store.toLedger, checkpoints, ?_⟩
  rcases views sampleCheckpoint.checkpointId with ⟨missing, _⟩ | ⟨checkpoint, same, bound⟩
  · rw [found] at missing
    cases missing
  · obtain rfl : sampleCheckpoint = checkpoint := Option.some.inj (found.symm.trans same)
    rw [needed] at bound
    rcases bound with ⟨held, _⟩ | ⟨row, lacking, _, refused⟩
    · exact absurd (held sampleCheckpoint (List.mem_singleton_self _)) (by simp)
    · rw [List.mem_singleton.mp lacking] at refused
      exact refused

end CalibrationLedger
