import CalibrationLedger.Invariant

set_option autoImplicit false

-- Every statement keeps the invariant and shows the other sessions no more than
-- they rely on.
namespace CalibrationLedger

open JsonText Digest Interleaving

section

variable {ι : Type}

theorem clashes_symm (a b : Event) : a.clashes b = b.clashes a := by
  rw [Bool.eq_iff_iff]
  simp only [Event.clashes, Bool.or_eq_true, decide_eq_true_eq, Bool.and_eq_true]
  constructor
  · rintro (((same | same) | same) | ⟨isSome, same⟩)
    · exact .inl (.inl (.inl same.symm))
    · exact .inl (.inl (.inr same.symm))
    · exact .inl (.inr same.symm)
    · exact .inr ⟨same ▸ isSome, same.symm⟩
  · rintro (((same | same) | same) | ⟨isSome, same⟩)
    · exact .inl (.inl (.inl same.symm))
    · exact .inl (.inl (.inr same.symm))
    · exact .inl (.inr same.symm)
    · exact .inr ⟨same ▸ isSome, same.symm⟩

theorem same_sequence_clashes (a b : Event) (same : a.sequence = b.sequence) : a.clashes b = true := by
  simp [Event.clashes, same]

theorem visible_holds (store : Store ι) (i : ι) (row : Event) (member : row ∈ (store.visible i).rows) :
    store.Holds row := by
  rcases mem_insert_all store.events (store.transactions i).events row member with own | committed
  · exact .inr ⟨i, own⟩
  · exact .inl committed

variable (rt : Runtime) (signing : Text → Bytes → Prop)

theorem visible_own (store : Store ι) (i : ι) (row : Event) (sound : Sound rt signing store)
    (member : row ∈ (store.transactions i).events) : row ∈ (store.visible i).rows := by
  refine insert_all_enters store.events _ (fun a b left right same => ?_) row member
  have holds : ∀ e, (e ∈ (store.transactions i).events ∨ e ∈ store.events.rows) → store.Holds e :=
    fun e inside => inside.elim (fun own => .inr ⟨i, own⟩) .inl
  exact sound.apart a b (holds a left) (holds b right) (same_sequence_clashes a b same)

theorem visible_committed (store : Store ι) (i : ι) (row : Event) (member : row ∈ store.events.rows) :
    row ∈ (store.visible i).rows := insert_all_keeps store.events _ row member

-- Nobody else has rows or values in flight while a session holds the lock alone.
theorem alone_in_flight (store : Store ι) (i j : ι) (sound : Sound rt signing store)
    (held : (store.transactions i).exclusive = true) (other : j ≠ i) :
    (store.transactions j).events = [] ∧ (store.transactions j).allocated = none ∧
      (store.transactions j).checkpoints = [] := by
  have unshared : (store.transactions j).shared ≠ true := fun shared =>
    other (sound.locks i j held (.inl shared)).symm
  refine ⟨?_, ?_, ?_⟩
  · cases events : (store.transactions j).events with
    | nil => rfl
    | cons row rest => exact absurd (sound.pending j row (by rw [events]; exact List.mem_cons_self)) unshared
  · cases allocated : (store.transactions j).allocated with
    | none => rfl
    | some value => exact absurd (sound.allocated j value allocated).2.2 unshared
  · rcases sound.drafted j with none | ⟨_, _, exclusive, _⟩
    · exact none
    · exact absurd (sound.locks i j held (.inr exclusive)).symm other

theorem bounded_by_next (store : Store ι) (sound : Sound rt signing store) (checkpoint : Checkpoint)
    (member : checkpoint ∈ store.checkpoints) : checkpoint.lastEventSequence < store.nextSequence := by
  obtain ⟨before, extended, _⟩ :=
    chained_member rt signing store.events none store.checkpoints sound.chain checkpoint member
  exact extends_bounded rt signing store.events before checkpoint store.nextSequence
    (fun row inside => (sound.sequences row (.inl inside)).2) extended

theorem sound_empty : Sound rt signing (Store.empty ι) := by
  have nothing : ∀ row, ¬ (Store.empty ι).Holds row := by
    rintro row (committed | ⟨i, pending⟩)
    · cases committed
    · cases pending
  refine ⟨fun row held => absurd held (nothing row), fun row held => absurd held (nothing row),
    fun a _ held => absurd held (nothing a), fun i _ given => ?_, fun i _ member => ?_, fun i _ held => ?_,
    fun c member => ?_, trivial, List.Pairwise.nil, fun i => .inl rfl, Int.one_pos⟩
  · cases given
  · cases member
  · cases held
  · cases member

variable [DecidableEq ι]

theorem sound_rollback (store : Store ι) (i : ι) (sound : Sound rt signing store) :
    Sound rt signing (store.rollback i) := by
  have cases : ∀ j, j = i ∧ (store.rollback i).transactions j = Transaction.idle ∨
      j ≠ i ∧ (store.rollback i).transactions j = store.transactions j := fun j => update_cases store i j _
  have holds : ∀ row, (store.rollback i).Holds row → store.Holds row := by
    rintro row (committed | ⟨j, member⟩)
    · exact .inl committed
    · rcases cases j with ⟨_, is⟩ | ⟨_, is⟩
      · rw [is] at member
        cases member
      · rw [is] at member
        exact .inr ⟨j, member⟩
  refine ⟨?_, ?_, ?_, ?_, ?_, ?_, ?_, sound.chain, sound.distinct, ?_, sound.started⟩
  · exact fun row held => sound.rows row (holds row held)
  · exact fun row held => sound.sequences row (holds row held)
  · exact fun a b left right => sound.apart a b (holds a left) (holds b right)
  · intro j sequence given
    rcases cases j with ⟨_, is⟩ | ⟨_, is⟩
    · rw [is] at given
      cases given
    · rw [is] at given ⊢
      exact sound.allocated j sequence given
  · intro j row member
    rcases cases j with ⟨_, is⟩ | ⟨_, is⟩
    · rw [is] at member
      cases member
    · rw [is] at member ⊢
      exact sound.pending j row member
  · intro j k held against
    rcases cases j with ⟨_, isJ⟩ | ⟨_, isJ⟩
    · rw [isJ] at held
      cases held
    · rcases cases k with ⟨_, isK⟩ | ⟨_, isK⟩
      · rw [isK] at against
        rcases against with none | none <;> cases none
      · rw [isJ] at held
        rw [isK] at against
        exact sound.locks j k held against
  · intro checkpoint member j
    rcases cases j with ⟨_, is⟩ | ⟨_, is⟩
    · rw [is]
      refine ⟨fun row impossible => ?_, fun sequence impossible => ?_⟩
      · cases impossible
      · cases impossible
    · rw [is]
      exact sound.boundaries checkpoint member j
  · intro j
    rcases cases j with ⟨_, is⟩ | ⟨_, is⟩
    · rw [is]
      exact .inl rfl
    · rw [is]
      exact sound.drafted j

theorem sound_nextval (store : Store ι) (i : ι) (value : Int) (above : store.nextSequence ≤ value)
    (shared : (store.transactions i).shared = true) (undrafted : (store.transactions i).checkpoints = [])
    (sound : Sound rt signing store) :
    Sound rt signing
      (Store.update { store with nextSequence := value + 1 } i fun tx =>
        { tx with allocated := some value }) := by
  have positive : 0 < value := by have started := sound.started; omega
  have cases := update_cases { store with nextSequence := value + 1 } i
  have holds : ∀ row, (Store.update { store with nextSequence := value + 1 } i
      fun tx => { tx with allocated := some value }).Holds row → store.Holds row := by
    rintro row (committed | ⟨j, member⟩)
    · exact .inl committed
    · rcases cases j fun tx => { tx with allocated := some value } with ⟨same, is⟩ | ⟨_, is⟩
      · rw [is] at member
        exact .inr ⟨i, member⟩
      · rw [is] at member
        exact .inr ⟨j, member⟩
  refine ⟨?_, ?_, ?_, ?_, ?_, ?_, ?_, sound.chain, sound.distinct, ?_, by show 0 < value + 1; omega⟩
  · exact fun row held => sound.rows row (holds row held)
  · intro row held
    obtain ⟨low, high⟩ := sound.sequences row (holds row held)
    exact ⟨low, by show row.sequence < value + 1; omega⟩
  · exact fun a b left right => sound.apart a b (holds a left) (holds b right)
  · intro j sequence given
    show 0 < sequence ∧ sequence < value + 1 ∧ _
    rcases cases j fun tx => { tx with allocated := some value } with ⟨same, is⟩ | ⟨_, is⟩
    · rw [is] at given ⊢
      cases given
      exact ⟨positive, by omega, shared⟩
    · rw [is] at given ⊢
      obtain ⟨low, high, held⟩ := sound.allocated j sequence given
      exact ⟨low, by omega, held⟩
  · intro j row member
    rcases cases j fun tx => { tx with allocated := some value } with ⟨same, is⟩ | ⟨_, is⟩
    · rw [is] at member ⊢
      exact shared
    · rw [is] at member ⊢
      exact sound.pending j row member
  · intro j k held against
    have exclusiveOf : ∀ l, ((Store.update { store with nextSequence := value + 1 } i
        fun tx => { tx with allocated := some value }).transactions l).exclusive =
          (store.transactions l).exclusive ∧
        ((Store.update { store with nextSequence := value + 1 } i
        fun tx => { tx with allocated := some value }).transactions l).shared =
            (store.transactions l).shared := by
      intro l
      rcases cases l fun tx => { tx with allocated := some value } with ⟨same, is⟩ | ⟨_, is⟩
      · rw [is, same]
        exact ⟨rfl, rfl⟩
      · rw [is]
        exact ⟨rfl, rfl⟩
    rw [(exclusiveOf j).1] at held
    rw [(exclusiveOf k).1, (exclusiveOf k).2] at against
    exact sound.locks j k held against
  · intro checkpoint member j
    have bound := bounded_by_next rt signing store sound checkpoint member
    obtain ⟨rows, values⟩ := sound.boundaries checkpoint member j
    rcases cases j fun tx => { tx with allocated := some value } with ⟨same, is⟩ | ⟨_, is⟩
    · rw [is]
      subst same
      exact ⟨rows, fun sequence given => by cases given; omega⟩
    · rw [is]
      exact ⟨rows, values⟩
  · intro j
    rcases cases j fun tx => { tx with allocated := some value } with ⟨same, is⟩ | ⟨_, is⟩
    · rw [is]
      exact .inl undrafted
    · rw [is]
      exact sound.drafted j

theorem sound_insert_event [Fintype ι] (store : Store ι) (i : ι) (row : Event)
    (given : (store.transactions i).allocated = some row.sequence)
    (undrafted : (store.transactions i).checkpoints = []) (formed : WellFormed rt row)
    (lineage : Lineage store.events.rows row) (admitted : store.admits i row = true)
    (uncontested : store.contested i row = false) (sound : Sound rt signing store) :
    Sound rt signing
      (store.update i fun tx => { tx with allocated := none, events := tx.events ++ [row] }) := by
  obtain ⟨positive, below, shared⟩ := sound.allocated i row.sequence given
  have cases := fun j => update_cases store i j fun tx =>
    { tx with allocated := none, events := tx.events ++ [row] }
  have holds : ∀ e,
    (store.update i fun tx => { tx with allocated := none, events := tx.events ++ [row] }).Holds e →
      store.Holds e ∨ e = row := by
    rintro e (committed | ⟨j, member⟩)
    · exact .inl (.inl committed)
    · rcases cases j with ⟨same, is⟩ | ⟨_, is⟩
      · rw [is] at member
        rcases List.mem_append.mp member with own | new
        · exact .inl (.inr ⟨i, own⟩)
        · exact .inr (List.mem_singleton.mp new)
      · rw [is] at member
        exact .inl (.inr ⟨j, member⟩)
  -- The new row meets no held row: not a visible one, and not one in flight elsewhere.
  have unmet : ∀ e, store.Holds e → row.clashes e = false := by
    simp only [Store.admits, Bool.and_eq_true, List.all_eq_true, Bool.not_eq_true'] at admitted
    rintro e (committed | ⟨j, member⟩)
    · exact admitted.1.2 e (visible_committed store i e committed)
    · by_cases own : j = i
      · subst own
        exact admitted.1.2 e (visible_own rt signing store j e sound member)
      · by_contra clash
        have contested : store.contested i row = true := by
          apply decide_eq_true
          exact ⟨j, own, List.any_eq_true.mpr ⟨e, member, by simpa using clash⟩⟩
        rw [uncontested] at contested
        cases contested
  refine ⟨?_, ?_, ?_, ?_, ?_, ?_, ?_, sound.chain, sound.distinct, ?_, sound.started⟩
  · intro e held
    rcases holds e held with before | rfl
    · exact sound.rows e before
    · exact ⟨formed, lineage⟩
  · intro e held
    rcases holds e held with before | rfl
    · exact sound.sequences e before
    · exact ⟨positive, below⟩
  · intro a b left right clash
    rcases holds a left with before | rfl
    · rcases holds b right with other | rfl
      · exact sound.apart a b before other clash
      · rw [clashes_symm, unmet a before] at clash
        cases clash
    · rcases holds b right with other | rfl
      · rw [unmet b other] at clash
        cases clash
      · rfl
  · intro j sequence value
    rcases cases j with ⟨_, is⟩ | ⟨_, is⟩
    · rw [is] at value
      cases value
    · rw [is] at value ⊢
      exact sound.allocated j sequence value
  · intro j e member
    rcases cases j with ⟨_, is⟩ | ⟨_, is⟩
    · rw [is]
      exact shared
    · rw [is] at member ⊢
      exact sound.pending j e member
  · intro j k held against
    have unlocked : ∀ l, ((store.update i fun tx =>
        { tx with allocated := none, events := tx.events ++ [row] }).transactions l).exclusive =
          (store.transactions l).exclusive ∧ ((store.update i fun tx =>
        { tx with allocated := none, events := tx.events ++ [row] }).transactions l).shared =
          (store.transactions l).shared := by
      intro l
      rcases cases l with ⟨same, is⟩ | ⟨_, is⟩
      · rw [is, same]
        exact ⟨rfl, rfl⟩
      · rw [is]
        exact ⟨rfl, rfl⟩
    rw [(unlocked j).1] at held
    rw [(unlocked k).1, (unlocked k).2] at against
    exact sound.locks j k held against
  · intro checkpoint member j
    obtain ⟨rows, values⟩ := sound.boundaries checkpoint member j
    rcases cases j with ⟨same, is⟩ | ⟨_, is⟩
    · subst same
      rw [is]
      refine ⟨fun e inside => ?_, fun sequence value => ?_⟩
      · rcases List.mem_append.mp inside with own | new
        · exact rows e own
        · rw [List.mem_singleton.mp new]
          exact values row.sequence given
      · cases value
    · rw [is]
      exact ⟨rows, values⟩
  · intro j
    rcases cases j with ⟨_, is⟩ | ⟨_, is⟩
    · rw [is]
      exact .inl undrafted
    · rw [is]
      exact sound.drafted j

theorem sound_insert_checkpoint (store : Store ι) (i : ι) (checkpoint : Checkpoint)
    (exclusive : (store.transactions i).exclusive = true) (noRows : (store.transactions i).events = [])
    (noValue : (store.transactions i).allocated = none) (undrafted : (store.transactions i).checkpoints = [])
    (extended : Extends rt signing store.events store.checkpoints.getLast? checkpoint)
    (admitted : store.admitsCheckpoint i checkpoint = true) (sound : Sound rt signing store) :
    Sound rt signing
      (store.update i fun tx => { tx with checkpoints := tx.checkpoints ++ [checkpoint] }) := by
  have cases := fun j => update_cases store i j fun tx =>
    { tx with checkpoints := tx.checkpoints ++ [checkpoint] }
  have same : ∀ j,
    ((store.update i fun tx =>
      { tx with checkpoints := tx.checkpoints ++ [checkpoint] }).transactions j).events =
        (store.transactions j).events ∧
      ((store.update i fun tx => { tx with checkpoints := tx.checkpoints ++ [checkpoint] }).transactions
          j).allocated =
        (store.transactions j).allocated ∧
      ((store.update i fun tx =>
          { tx with checkpoints := tx.checkpoints ++ [checkpoint] }).transactions j).shared =
        (store.transactions j).shared ∧
      ((store.update i fun tx => { tx with checkpoints := tx.checkpoints ++ [checkpoint] }).transactions
          j).exclusive =
        (store.transactions j).exclusive := by
    intro j
    rcases cases j with ⟨same, is⟩ | ⟨_, is⟩
    · rw [is, same]
      exact ⟨rfl, rfl, rfl, rfl⟩
    · rw [is]
      exact ⟨rfl, rfl, rfl, rfl⟩
  have holds : ∀ row,
    (store.update i fun tx => { tx with checkpoints := tx.checkpoints ++ [checkpoint] }).Holds row →
      store.Holds row := by
    rintro row (committed | ⟨j, member⟩)
    · exact .inl committed
    · rw [(same j).1] at member
      exact .inr ⟨j, member⟩
  refine ⟨?_, ?_, ?_, ?_, ?_, ?_, ?_, sound.chain, sound.distinct, ?_, sound.started⟩
  · exact fun row held => sound.rows row (holds row held)
  · exact fun row held => sound.sequences row (holds row held)
  · exact fun a b left right => sound.apart a b (holds a left) (holds b right)
  · intro j sequence given
    rw [(same j).2.1] at given
    rw [(same j).2.2.1]
    exact sound.allocated j sequence given
  · intro j row member
    rw [(same j).1] at member
    rw [(same j).2.2.1]
    exact sound.pending j row member
  · intro j k held against
    rw [(same j).2.2.2] at held
    rw [(same k).2.2.1, (same k).2.2.2] at against
    exact sound.locks j k held against
  · intro other member j
    rw [(same j).1, (same j).2.1]
    exact sound.boundaries other member j
  · intro j
    rcases cases j with ⟨_, is⟩ | ⟨_, is⟩
    · rw [is]
      refine .inr ⟨checkpoint, by rw [undrafted]; rfl, exclusive, noRows, noValue, extended,
        fun other member clash => ?_⟩
      simp only [Store.admitsCheckpoint, Bool.and_eq_true, List.all_eq_true, Bool.not_eq_true'] at admitted
      have apart := admitted.1.2 other (List.mem_append_left _ member)
      simp [Checkpoint.clashes, clash] at apart
    · rw [is]
      exact sound.drafted j

theorem sound_commit (store : Store ι) (i : ι) (sound : Sound rt signing store) :
    Sound rt signing (store.commit i) := by
  have cases : ∀ j, j = i ∧ (store.commit i).transactions j = Transaction.idle ∨
      j ≠ i ∧ (store.commit i).transactions j = store.transactions j := by
    intro j
    by_cases same : j = i
    · exact .inl ⟨same, by simp [Store.commit, same]⟩
    · exact .inr ⟨same, by simp [Store.commit, same]⟩
  have holds : ∀ row, (store.commit i).Holds row → store.Holds row := by
    rintro row (committed | ⟨j, member⟩)
    · exact visible_holds store i row committed
    · rcases cases j with ⟨_, is⟩ | ⟨_, is⟩
      · rw [is] at member
        cases member
      · rw [is] at member
        exact .inr ⟨j, member⟩
  have grows : ∀ row ∈ store.events.rows, row ∈ (store.commit i).events.rows := fun row =>
    visible_committed store i row
  -- The rows that commit all lie above every boundary.
  have unchanged : ∀ checkpoint ∈ store.checkpoints,
    (store.commit i).events.upTo checkpoint.lastEventSequence =
      store.events.upTo checkpoint.lastEventSequence := fun checkpoint member =>
    insert_all_up_to store.events _ _ (sound.boundaries checkpoint member i).1
  have kept := chained_same_rows rt signing store.events (store.commit i).events none store.checkpoints grows
    unchanged sound.chain
  refine ⟨?_, ?_, ?_, ?_, ?_, ?_, ?_, ?_, ?_, ?_, sound.started⟩
  · intro row held
    obtain ⟨formed, lineage⟩ := sound.rows row (holds row held)
    exact ⟨formed, lineage_grows _ _ row grows lineage⟩
  · exact fun row held => sound.sequences row (holds row held)
  · exact fun a b left right => sound.apart a b (holds a left) (holds b right)
  · intro j sequence given
    rcases cases j with ⟨_, is⟩ | ⟨_, is⟩
    · rw [is] at given
      cases given
    · rw [is] at given ⊢
      exact sound.allocated j sequence given
  · intro j row member
    rcases cases j with ⟨_, is⟩ | ⟨_, is⟩
    · rw [is] at member
      cases member
    · rw [is] at member ⊢
      exact sound.pending j row member
  · intro j k held against
    rcases cases j with ⟨_, isJ⟩ | ⟨_, isJ⟩
    · rw [isJ] at held
      cases held
    · rcases cases k with ⟨_, isK⟩ | ⟨_, isK⟩
      · rw [isK] at against
        rcases against with none | none <;> cases none
      · rw [isJ] at held
        rw [isK] at against
        exact sound.locks j k held against
  · intro checkpoint member j
    rcases cases j with ⟨_, is⟩ | ⟨other, is⟩
    · rw [is]
      refine ⟨fun row impossible => ?_, fun sequence impossible => ?_⟩
      · cases impossible
      · cases impossible
    · rw [is]
      rcases List.mem_append.mp member with old | new
      · exact sound.boundaries checkpoint old j
      · rcases sound.drafted i with none | ⟨_, _, exclusive, _⟩
        · rw [none] at new
          cases new
        · obtain ⟨noRows, noValue, _⟩ := alone_in_flight rt signing store i j sound exclusive other
          rw [noRows, noValue]
          refine ⟨fun row impossible => ?_, fun sequence impossible => ?_⟩
          · cases impossible
          · cases impossible
  · show Chained rt signing
      (store.commit i).events none (store.checkpoints ++ (store.transactions i).checkpoints)
    rcases sound.drafted i with none | ⟨checkpoint, one, _, noRows, _, extended, _⟩
    · rw [none, List.append_nil]
      exact kept
    · rw [one]
      refine chained_append rt signing _ none store.checkpoints checkpoint kept ?_
      rw [Option.or_none]
      refine extends_same_rows rt signing store.events _ _ checkpoint grows ?_ extended
      exact insert_all_up_to store.events _ _ (fun row member => by rw [noRows] at member; cases member)
  · show (store.checkpoints ++ (store.transactions i).checkpoints).Pairwise _
    rcases sound.drafted i with none | ⟨checkpoint, one, _, _, _, _, fresh⟩
    · rw [none, List.append_nil]
      exact sound.distinct
    · rw [one]
      refine List.pairwise_append.mpr ⟨sound.distinct, List.pairwise_singleton _ _, fun a left b right => ?_⟩
      rw [List.mem_singleton.mp right]
      exact fresh a left
  · intro j
    rcases cases j with ⟨_, is⟩ | ⟨other, is⟩
    · rw [is]
      exact .inl rfl
    · rw [is]
      rcases sound.drafted j with none | ⟨checkpoint, one, exclusive, noRows, noValue, extended, fresh⟩
      · exact .inl none
      · obtain ⟨noneOther, _, noDraft⟩ := alone_in_flight rt signing store j i sound exclusive other.symm
        have events : (store.commit i).events = store.events := by
          show store.visible i = store.events
          rw [Store.visible, noneOther]
          rfl
        have checkpoints : (store.commit i).checkpoints = store.checkpoints := by
          show store.checkpoints ++ (store.transactions i).checkpoints = store.checkpoints
          rw [noDraft, List.append_nil]
        rw [events, checkpoints]
        exact .inr ⟨checkpoint, one, exclusive, noRows, noValue, extended, fresh⟩

theorem commit_ledger_rely (store : Store ι) (i j : ι) (other : j ≠ i) (sound : Sound rt signing store) :
    LedgerRely j store (store.commit i) := by
  refine ⟨by simp [Store.commit, other], fun row => visible_committed store i row, le_refl _,
    fun exclusive => ?_⟩
  obtain ⟨noRows, _, noDraft⟩ := alone_in_flight rt signing store j i sound exclusive (Ne.symm other)
  constructor
  · show store.visible i = store.events
    rw [Store.visible, noRows]
    rfl
  · show store.checkpoints ++ (store.transactions i).checkpoints = store.checkpoints
    rw [noDraft, List.append_nil]

section

variable [Fintype ι]

theorem not_others_shared (store : Store ι) (i j : ι) (other : j ≠ i) (none : store.othersShared i = false) :
    (store.transactions j).shared = false := by
  by_contra held
  have found : store.othersShared i = true := decide_eq_true ⟨j, other, by simpa using held⟩
  rw [none] at found
  cases found

theorem not_others_exclusive (store : Store ι) (i j : ι) (other : j ≠ i)
    (none : store.othersExclusive i = false) :
    (store.transactions j).exclusive = false := by
  by_contra held
  have found : store.othersExclusive i = true := decide_eq_true ⟨j, other, by simpa using held⟩
  rw [none] at found
  cases found

theorem respond_keeps (i : ι) (query : Statement) (store : Store ι) (before : Supply)
    (response : Response query) (next : Store ι) (after : Supply) (sound : Sound rt signing store)
    (allowed : Allowed rt signing i query store)
    (answer : respond i query store before = some (response, next, after)) :
    Sound rt signing next ∧ ∀ j, j ≠ i → LedgerRely j store next := by
  have unchanged : next = store → Sound rt signing next ∧ ∀ j, j ≠ i → LedgerRely j store next :=
    fun same => by rw [same]; exact ⟨sound, fun j _ => ledger_rely_refl j store⟩
  cases query with
  | uuidFactory => cases answer; exact unchanged rfl
  | clock => cases answer; exact unchanged rfl
  | selectByKey businessKey => cases answer; exact unchanged rfl
  | selectByKeys keys => cases answer; exact unchanged rfl
  | selectSuccessor eventId => cases answer; exact unchanged rfl
  | selectLatest => cases answer; exact unchanged rfl
  | selectAfter sequence limit => cases answer; exact unchanged rfl
  | selectUpTo sequence => cases answer; exact unchanged rfl
  | lockShared =>
      rw [respond] at answer
      split at answer
      · cases answer
      · rename_i free
        cases answer
        refine ⟨sound_locking rt signing store i _ rfl rfl rfl (fun _ => rfl) id .inl
          (fun _ => .inr fun j other => ?_) sound,
          fun j other => update_ledger_rely store i j _ other⟩
        exact not_others_exclusive store i j other (by simpa using free)
  | selectForUpdate eventId =>
      rw [respond] at answer
      split at answer
      · cases answer
        exact unchanged rfl
      · split at answer
        · cases answer
        · cases answer
          exact ⟨sound_locking rt signing store i _ rfl rfl rfl id id .inl .inl sound,
            fun j other => update_ledger_rely store i j _ other⟩
  | nextval =>
      cases answer
      obtain ⟨shared, undrafted⟩ := allowed
      have above : store.nextSequence ≤ store.nextSequence + (before.gaps 0 : Int) := by omega
      refine ⟨sound_nextval rt signing store i _ above shared undrafted sound, fun j other => ?_⟩
      refine ⟨update_other _ i j _ other, fun _ member => member, ?_, fun _ => ⟨rfl, rfl⟩⟩
      show store.nextSequence ≤ store.nextSequence + (before.gaps 0 : Int) + 1
      omega
  | insertEvent row =>
      rw [respond] at answer
      split at answer
      · cases answer
        exact unchanged rfl
      · rename_i admitted
        split at answer
        · cases answer
        · rename_i uncontested
          cases answer
          obtain ⟨given, undrafted, formed, lineage⟩ := allowed
          exact ⟨sound_insert_event rt signing store i row given undrafted formed lineage
            (by simpa using admitted)
            (by simpa using uncontested) sound, fun j other => update_ledger_rely store i j _ other⟩
  | tryLockExclusive =>
      rw [respond] at answer
      split at answer
      · cases answer
        exact unchanged rfl
      · rename_i free
        cases answer
        obtain ⟨noShared, noExclusive⟩ : store.othersShared i = false ∧ store.othersExclusive i = false := by
          simpa using free
        refine ⟨sound_locking rt signing store i _ rfl rfl rfl id (fun _ => rfl)
          (fun _ => .inr fun j other => ?_) .inl
          sound, fun j other => update_ledger_rely store i j _ other⟩
        exact ⟨not_others_shared store i j other noShared, not_others_exclusive store i j other noExclusive⟩
  | insertCheckpoint checkpoint =>
      rw [respond] at answer
      split at answer
      · cases answer
        exact unchanged rfl
      · rename_i admitted
        split at answer
        · cases answer
        · cases answer
          obtain ⟨exclusive, noRows, noValue, undrafted, extended⟩ := allowed
          exact ⟨sound_insert_checkpoint rt signing store i checkpoint exclusive noRows noValue
            undrafted extended
            (by simpa using admitted) sound, fun j other => update_ledger_rely store i j _ other⟩
  | commit =>
      cases answer
      exact ⟨sound_commit rt signing store i sound,
        fun j other => commit_ledger_rely rt signing store i j other sound⟩
  | rollback =>
      cases answer
      exact ⟨sound_rollback rt signing store i sound, fun j other => update_ledger_rely store i j _ other⟩

variable (ι) in
def discipline : Discipline (postgres ι) where
  Inv := Sound rt signing
  Rely := LedgerRely
  Pre := Allowed rt signing
  rely_refl := ledger_rely_refl
  rely_trans := ledger_rely_trans
  respond_keeps := respond_keeps rt signing
  abandon_keeps i store sound :=
    ⟨sound_rollback rt signing store i sound, fun j other => update_ledger_rely store i j
      (fun _ => Transaction.idle) other⟩

end

end

end CalibrationLedger
