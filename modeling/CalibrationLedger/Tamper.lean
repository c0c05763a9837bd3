import CalibrationLedger.Chain
import CalibrationLedger.MerkleTree
import CalibrationLedger.Proofs

set_option autoImplicit false

-- What the checks of a checkpoint say about a table nobody vouches for.
namespace CalibrationLedger

open JsonText Digest HashTree Interleaving

section

variable (rt : Runtime)

-- The byte strings hashed in recomputing a root over the rows up to a boundary.
def prefixInputs (table : EventTable) (boundary : Int) : List Bytes :=
  (table.upTo boundary).map (fun row => 0 :: row.bytes rt) ++
    rootInputs rt.toHashFunction ((table.upTo boundary).map (rowLeaf rt))

-- The count and the root of a checkpoint, recomputed over the table.
structure Matches (table : EventTable) (checkpoint : Checkpoint) : Prop where
  count : (table.upTo checkpoint.lastEventSequence).length = checkpoint.leafCount
  root : rootOver rt table checkpoint.lastEventSequence = checkpoint.rootHash

theorem row_leaves_width (rows : List Event) : ∀ leaf ∈ rows.map (rowLeaf rt), leaf.length = 32 := by
  intro leaf member
  obtain ⟨row, _, rfl⟩ := List.mem_map.mp member
  exact rt.digest_length _

theorem row_leaves_pin (a b : List Event) (same : a.map (rowLeaf rt) = b.map (rowLeaf rt))
    (free : CollisionFree rt.toHashFunction
      (a.map (fun row => 0 :: row.bytes rt) ++ b.map (fun row => 0 :: row.bytes rt))) :
    a.map (Event.bytes rt) = b.map (Event.bytes rt) := by
  induction a generalizing b with
  | nil =>
      cases b with
      | nil => rfl
      | cons _ _ => cases same
  | cons first rest ih =>
      cases b with
      | nil => cases same
      | cons other others =>
          obtain ⟨leaves, later⟩ := List.cons.inj same
          have bytes := free (0 :: first.bytes rt) (by simp) (0 :: other.bytes rt) (by simp) leaves
          rw [List.map_cons, List.map_cons, (List.cons.inj bytes).2,
            ih others later (collision_free_subset _ _ _ (fun data member => ?_) free)]
          rcases List.mem_append.mp member with left | right
          · exact List.mem_append_left _ (List.mem_cons_of_mem _ left)
          · exact List.mem_append_right _ (List.mem_cons_of_mem _ right)

theorem matches_pin (table other : EventTable) (checkpoint : Checkpoint)
    (first : Matches rt table checkpoint) (second : Matches rt other checkpoint)
    (free : CollisionFree rt.toHashFunction
      (prefixInputs rt table checkpoint.lastEventSequence ++
        prefixInputs rt other checkpoint.lastEventSequence)) :
    (table.upTo checkpoint.lastEventSequence).map (Event.bytes rt) =
      (other.upTo checkpoint.lastEventSequence).map (Event.bytes rt) := by
  have counts : (table.upTo checkpoint.lastEventSequence).length =
      (other.upTo checkpoint.lastEventSequence).length :=
    first.count.trans second.count.symm
  have roots := hex_injective _ _ (first.root.trans second.root.symm)
  have leaves := merkle_root_binds rt.toHashFunction _ _ (by simpa using counts) (row_leaves_width rt _)
    (row_leaves_width rt _) (collision_free_subset _ _ _ (fun data member => ?_) free) roots
  · refine row_leaves_pin rt _ _ leaves (collision_free_subset _ _ _ (fun data member => ?_) free)
    rcases List.mem_append.mp member with left | right
    · exact List.mem_append_left _ (List.mem_append_left _ left)
    · exact List.mem_append_right _ (List.mem_append_left _ right)
  · rcases List.mem_append.mp member with left | right
    · exact List.mem_append_left _ (List.mem_append_right _ left)
    · exact List.mem_append_right _ (List.mem_append_right _ right)

theorem validated_prefix_passed (table : EventTable) (checkpoint : Checkpoint) (keyring : Keyring)
    (events : List Event) (leaves : List Bytes)
    (returned : validatedPrefix rt table checkpoint keyring = .ok (events, leaves)) :
    Matches rt table checkpoint ∧ events = table.upTo checkpoint.lastEventSequence ∧
    leaves = events.map (rowLeaf rt) := by
  rw [validatedPrefix] at returned
  split at returned
  · cases returned
  · rename_i counted
    obtain ⟨found, recomputed, onward⟩ := (bind_ok _ _ _).mp returned
    split at onward
    · cases onward
    · rename_i rooted
      obtain ⟨key, _, signed⟩ := (bind_ok _ _ _).mp onward
      obtain ⟨_, _, whole⟩ := (bind_ok _ _ _).mp signed
      cases whole
      have rows := checked_leaves_rows rt _ leaves recomputed
      refine ⟨⟨by simpa using (not_or.mp counted).1, ?_⟩, rfl, rows⟩
      rw [rootOver, ← rows]
      simpa using rooted

theorem boundary_key_found (keyring : Keyring) (checkpoint : Checkpoint) (key : Bytes)
    (held : keyring.lookup (text checkpoint.keyVersion) = some key) :
    boundaryKey keyring checkpoint = .ok key := by
  rw [boundaryKey, requireKey, held]

theorem validated_prefix_returns (table : EventTable) (checkpoint : Checkpoint) (keyring : Keyring)
    (key : Bytes) (matched : Matches rt table checkpoint)
    (nonempty : table.upTo checkpoint.lastEventSequence ≠ [])
    (stored : ∀ row ∈ table.upTo checkpoint.lastEventSequence, row.leafHash = hex (rowLeaf rt row))
    (held : keyring.lookup (text checkpoint.keyVersion) = some key)
    (signed : checkpoint.signature = signCheckpoint rt.toHashFunction (checkpoint.bytes rt) key) :
    validatedPrefix rt table checkpoint keyring = .ok (table.upTo checkpoint.lastEventSequence,
      (table.upTo checkpoint.lastEventSequence).map (rowLeaf rt)) := by
  have rooted := matched.root
  rw [rootOver] at rooted
  rw [validatedPrefix, if_neg (by simp [matched.count, nonempty])]
  refine (bind_ok _ _ _).mpr ⟨_, checked_leaves_returns rt _ stored, ?_⟩
  rw [if_neg (by simp [rooted])]
  exact (bind_ok _ _ _).mpr ⟨key, boundary_key_found keyring checkpoint key held,
    (bind_ok _ _ _).mpr ⟨(), check_signature_passes rt checkpoint key _ signed, rfl⟩⟩

theorem seal_checks_passed (table : EventTable) (previous : Checkpoint) (keyring : Keyring)
    (limit : Nat) (newest : Event) (leaves : List Bytes)
    (ends : ((table.after previous.lastEventSequence).take limit).getLast? = some newest)
    (checked : checkPrefix rt keyring (some previous) ((table.after previous.lastEventSequence).take limit)
      (table.upTo newest.sequence) = .ok leaves) : Matches rt table previous := by
  obtain ⟨count, recomputed⟩ := check_prefix_passed rt keyring _ _ _ leaves checked
  have continued := up_to_batch table previous.lastEventSequence limit newest ends
  have counted : (table.upTo previous.lastEventSequence).length = previous.leafCount := by
    rw [continued, List.length_append] at count
    exact Nat.add_right_cancel count
  refine ⟨counted, ?_⟩
  rw [checkPrefix] at checked
  split at checked
  · cases checked
  · obtain ⟨found, again, onward⟩ := (bind_ok _ _ _).mp checked
    obtain ⟨_, standing, whole⟩ := (bind_ok _ _ _).mp onward
    cases whole
    rw [checkPrevious] at standing
    split at standing
    · cases standing
    · rename_i rooted
      rw [recomputed, continued, List.map_append, List.take_left' (by simpa using counted)] at rooted
      simpa [rootOver] using rooted

end

section

variable (rt : Runtime) {ι : Type} [DecidableEq ι] [Fintype ι]

theorem run_ask {α : Type} (i : ι) (query : Statement) (next : Response query → Tx α) (store : Store ι)
    (supply : Supply) (result : Py α × Store ι × Supply)
    (ran : runAlone (postgres ι) i (ask query >>= next).run store supply = some result) :
    ∃ response after rest, respond i query store supply = some (response, after, rest) ∧
      runAlone (postgres ι) i (next response).run after rest = some result :=
  run_call (postgres ι) i query (fun response => (next response).run) store supply result ran

theorem run_lift {α β : Type} (i : ι) (value : Py α) (next : α → Tx β) (store final : Store ι)
    (supply rest : Supply) (result : β)
    (ran : runAlone (postgres ι) i ((liftM value : Tx α) >>= next).run store supply =
      some (.ok result, final, rest)) :
    ∃ found, value = .ok found ∧
        runAlone (postgres ι) i (next found).run store supply = some (.ok result, final, rest) := by
  cases value with
  | ok found => exact ⟨found, rfl, ran⟩
  | error error => cases ran

theorem run_transaction {α : Type} (i : ι) (body : Tx α) (store final : Store ι) (supply rest : Supply)
    (result : α)
    (ran : runAlone (postgres ι) i (transaction body).run store supply = some (.ok result, final, rest)) :
    ∃ after left, runAlone (postgres ι) i body.run store supply = some (.ok result, after, left) := by
  obtain ⟨outcome, after, left, first, second⟩ := run_bind (postgres ι) i body.run _ store supply _ ran
  cases outcome with
  | ok value =>
      cases second
      exact ⟨after, _, first⟩
  | error error => cases second

theorem sealed_matches (i : ι) (sealer : CheckpointSealer) (store final : Store ι)
    (supply rest : Supply) (previous checkpoint : Checkpoint) (idle : Idle i store)
    (before : latest store.checkpoints = some previous)
    (ran : runAlone (postgres ι) i (sealOnce rt sealer).run store supply =
      some (.ok (.sealed checkpoint), final, rest)) :
    Matches rt store.events previous := by
  obtain ⟨ended, left, body⟩ := run_transaction i _ store final supply rest _ ran
  obtain ⟨acquired, locked, supply1, answer, body⟩ := run_ask i .tryLockExclusive _ store supply _ body
  have visible : acquired = true → locked.visible i = store.events ∧
      locked.visibleCheckpoints i = store.checkpoints := by
    rintro rfl
    rw [respond] at answer
    split at answer
    · cases answer
    · cases answer
      constructor
      · rw [Store.visible, update_same, idle]
        rfl
      · rw [Store.visibleCheckpoints, update_same, idle]
        exact List.append_nil _
  cases acquired with
  | false => cases body
  | true =>
      obtain ⟨events, checkpoints⟩ := visible rfl
      obtain ⟨found, _, supply2, answer, body⟩ := run_ask i .selectLatest _ locked supply1 _ body
      cases answer
      rw [checkpoints, before] at body
      obtain ⟨batch, _, supply3, answer, body⟩ :=
        run_ask i (.selectAfter _ sealer.batchSize) _ locked supply1 _ body
      cases answer
      rw [events] at body
      split at body
      · cases body
      · rename_i newest ends
        obtain ⟨rows, _, supply4, answer, body⟩ :=
          run_ask i (.selectUpTo newest.sequence) _ locked supply1 _ body
        cases answer
        rw [events] at body
        obtain ⟨leaves, checked, _⟩ := run_lift i _ _ locked ended supply1 left _ body
        exact seal_checks_passed rt store.events previous sealer.keyring sealer.batchSize newest
          leaves ends checked

-- The rows left under a checkpoint of a history, in any state at all, commit to the
-- events that were sealed, or nobody accepts them.
theorem tampering_is_evident (calls : ι → Call) (config : Config (postgres ι) (Py Outcome))
    (reached : Reaches (postgres ι) (start rt calls) config) (checkpoint : Checkpoint)
    (member : checkpoint ∈ config.store.checkpoints) (table : EventTable)
    (free : CollisionFree rt.toHashFunction (prefixInputs rt table checkpoint.lastEventSequence ++
      prefixInputs rt config.store.events checkpoint.lastEventSequence))
    (accepted : (∃ keyring result, validatedPrefix rt table checkpoint keyring = .ok result) ∨
      ∃ (i : ι) (sealer : CheckpointSealer) (store final : Store ι) (supply rest : Supply)
        (next : Checkpoint),
        store.events = table ∧ latest store.checkpoints = some checkpoint ∧ Idle i store ∧
          runAlone (postgres ι) i (sealOnce rt sealer).run store supply =
            some (.ok (.sealed next), final, rest)) :
    (table.upTo checkpoint.lastEventSequence).map (fun row => eventCommitmentBytes rt row.fields) =
      (config.store.events.upTo checkpoint.lastEventSequence).map
        (fun row => eventCommitmentBytes rt row.fields) := by
  have covered := sound_covers rt _ config.store (history_sound rt calls config reached) checkpoint member
  have passed : Matches rt table checkpoint := by
    rcases accepted with ⟨keyring, ⟨events, leaves⟩, returned⟩ | ⟨i, sealer, store, final, supply, rest,
      next, rfl, last, idle, ran⟩
    · exact (validated_prefix_passed rt table checkpoint keyring events leaves returned).1
    · exact sealed_matches rt i sealer store final supply rest checkpoint next idle last ran
  have pinned := matches_pin rt table config.store.events checkpoint passed ⟨covered.count, covered.root⟩ free
  have bytes : ∀ rows : List Event, rows.map (fun row => eventCommitmentBytes rt row.fields) =
      (rows.map (Event.bytes rt)).map .ok := fun rows => by simp [event_bytes]
  rw [bytes, bytes, pinned]

end

-- A renumbered row is accepted, and it commits to what was sealed.
def renumberedTable : EventTable := ⟨[{ sampleEvent with sequence := 0 }], List.pairwise_singleton _ _⟩

theorem sample_tampering : ∃ config : Config (postgres Bool) (Py Outcome),
    config.store.events.rows ≠ renumberedTable.rows ∧
    (renumberedTable.upTo 1).map (fun row => eventCommitmentBytes reference row.fields) =
      (config.store.events.upTo 1).map (fun row => eventCommitmentBytes reference row.fields) := by
  obtain ⟨config, reached, rows, checkpoints, _⟩ := sample_run
  have sealed : config.store.events.upTo 1 = [sampleEvent] := by
    rw [EventTable.upTo, rows]
    decide
  refine ⟨config, by rw [rows]; decide,
    tampering_is_evident reference sampleCalls config reached sampleCheckpoint
    (by rw [checkpoints]; exact List.mem_singleton_self _) renumberedTable ?_ (.inl ⟨sampleKeyring, ?_⟩)⟩
  · have single : ∀ (table : EventTable) (row : Event), table.upTo 1 = [row] →
        prefixInputs reference table 1 = [0 :: row.bytes reference] := by
      intro table row one
      rw [prefixInputs, one, rootInputs, List.map_singleton, List.map_singleton, tree_of_single]
      rfl
    show CollisionFree _ (prefixInputs reference renumberedTable 1 ++
        prefixInputs reference config.store.events 1)
    rw [single renumberedTable { sampleEvent with sequence := 0 } (by decide),
      single config.store.events sampleEvent sealed]
    have same : ({ sampleEvent with sequence := 0 } : Event).bytes reference =
      sampleEvent.bytes reference := rfl
    rw [same]
    intro a left b right _
    simp only [List.cons_append, List.nil_append, List.mem_cons, List.not_mem_nil, or_false,
      or_self] at left right
    rw [left, right]
  · have sound := history_sound reference sampleCalls config reached
    have member : sampleCheckpoint ∈ config.store.checkpoints := by
      rw [checkpoints]
      exact List.mem_singleton_self _
    have covered := sound_covers reference _ config.store sound sampleCheckpoint member
    obtain ⟨_, extended, _⟩ := chained_member reference _ _ _ _ sound.chain sampleCheckpoint member
    obtain ⟨key, signs, signed⟩ := extended.signed
    have one : renumberedTable.upTo 1 = [{ sampleEvent with sequence := 0 }] := by decide
    have leaf : hex (rowLeaf reference sampleEvent) = sampleEvent.leafHash :=
      (covered.leaves sampleEvent (by
        show sampleEvent ∈ config.store.events.upTo 1
        rw [sealed]
        exact List.mem_singleton_self _)).symm
    refine ⟨_, validated_prefix_returns reference renumberedTable sampleCheckpoint sampleKeyring key
      ⟨?_, ?_⟩ ?_ ?_
      (sample_keys _ key signs) signed⟩
    · show (renumberedTable.upTo 1).length = 1
      rw [one]
      rfl
    · refine Eq.trans ?_ covered.root
      show rootOver reference renumberedTable 1 = hex (merkleRoot _ ((config.store.events.upTo 1).map _))
      rw [rootOver, one, sealed]
      rfl
    · show renumberedTable.upTo 1 ≠ []
      rw [one]
      simp
    · intro row inside
      change row ∈ renumberedTable.upTo 1 at inside
      rw [one] at inside
      rw [List.mem_singleton.mp inside]
      exact leaf.symm

end CalibrationLedger
