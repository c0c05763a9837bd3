import CalibrationLedger.Audit.Polling
import CalibrationLedger.Refusals

set_option autoImplicit false

-- An exporter that runs undisturbed works its queue off.
namespace CalibrationLedger

open JsonText Digest Interleaving Histories

section

variable {κ : Type} (k : κ) (env : Exporting) (exporter : Exporter)

-- What an exporter has made of its queue when it stops.
structure QueueDrained (before after : AuditStore κ) : Prop where
  course : SessionEffect before after
  cleared : NonePending after
  rests : ∀ id row, before.packages id = some row → row.status = .ready ∨ row.status = .failed →
    after.packages id = some row
  ended : ∀ id row, before.packages id = some row → row.status = .pending →
    ∃ new, after.packages id = some new ∧
    EndsAs env new after (builds env exporter.keyring before.ledger row)

variable (before between after : AuditStore κ)

theorem poll_effect_clears (polls : PollEffect env exporter before between)
    (cleared : NonePending before) : NonePending between := by
  rcases polls.2 with ⟨_, empty⟩ | ⟨id, row, new, _, _, at_id, ends, others⟩
  · exact empty
  intro other found held pending
  by_cases same : other = id
  · subst other
    rw [at_id] at held
    cases held
    rcases ends_as_done env new between _ ends with done | done <;> rw [pending] at done <;> cases done
  · exact cleared other found
      (kept_or_cancelled_before _ _ (others other same) found held (by rw [pending]; decide)) pending

theorem queue_drained_poll (polls : PollEffect env exporter before between)
    (drained : QueueDrained env exporter between after) :
    QueueDrained env exporter before after := by
  have course := session_effect_trans _ _ _ polls.1 drained.course
  have kept : ∀ id row, before.packages id = some row →
    KeptOrCancelled (before.packages id) (between.packages id) →
      row.status ≠ .cancelling ∧ row.status ≠ .cancelled → between.packages id = some row :=
    fun id row found spared apart => kept_or_cancelled_unfinished _ _ spared row found apart
  refine ⟨course, drained.cleared, fun id row found done => ?_, fun id row found pending => ?_⟩
  · have apart : row.status ≠ .cancelling ∧
      row.status ≠ .cancelled := by rcases done with status | status <;> rw [status] <;> decide
    refine drained.rests id row ?_ done
    rcases polls.2 with ⟨spared, _⟩ | ⟨n, old, new, held, due, _, _, others⟩
    · exact kept id row found (spared id) apart
    · by_cases same : id = n
      · subst id
        rw [found] at held
        cases held
        rcases done with status | status <;> rw [status] at due <;> simp at due
      · exact kept id row found (others id same) apart
  · have apart : row.status ≠ .cancelling ∧ row.status ≠ .cancelled := by rw [pending]; decide
    have later : between.packages id = some row → ∃ new, after.packages id = some new ∧
        EndsAs env new after (builds env exporter.keyring before.ledger row) := by
      intro still
      rw [← polls.1.ledger]
      exact drained.ended id row still pending
    rcases polls.2 with ⟨spared, _⟩ | ⟨n, old, new, held, _, at_n, ends, others⟩
    · exact later (kept id row found (spared id) apart)
    · by_cases same : id = n
      · subst id
        rw [found] at held
        cases held
        refine ⟨new, drained.rests n new at_n (ends_as_done env new between _ ends), ?_⟩
        exact ends_as_forward env new between after _ drained.course.forward ends
      · exact later (kept id row found (others id same) apart)

-- The queue holds every package that is pending or being built.
def QueueCovers (queue : Finset Nat) (store : AuditStore κ) : Prop :=
  ∀ id row, store.packages id = some row → row.status = .pending ∨ row.status = .building → id ∈ queue

omit before between after in
theorem queue_covers_first (store : AuditStore κ) (filed : Filed store)
    (unused : store.packages 0 = none) (next : store.nextId = 2) :
    QueueCovers {1} store := by
  intro id row found _
  have less := (filed.packages id row found).2
  rw [next] at less
  have other : id ≠ 0 := by
    rintro rfl
    rw [unused] at found
    cases found
  exact Finset.mem_singleton.mpr (by omega)

theorem queue_covers_poll (queue : Finset Nat) (queues : QueueCovers queue before)
    (polls : PollEffect env exporter before between) :
    NonePending between ∨ ∃ id ∈ queue, QueueCovers (queue.erase id) between := by
  rcases polls.2 with ⟨_, cleared⟩ | ⟨id, row, new, found, due, at_id, ends, others⟩
  · exact .inl cleared
  refine .inr ⟨id, queues id row found due, fun other left held waits => ?_⟩
  have apart : other ≠ id := by
    rintro rfl
    rw [at_id] at held
    cases held
    rcases ends_as_done env new between _ ends with done | done <;> rw [done] at waits <;> simp at waits
  refine Finset.mem_erase.mpr ⟨apart, queues other left ?_ waits⟩
  exact kept_or_cancelled_before _ _ (others other apart) left held
    (by rcases waits with status | status <;> rw [status] <;> decide)

-- By induction on the polls left: each one ends a package of the queue or finds none pending.
theorem attains_value_exporter (polls : Nat) (store : AuditStore κ) (life : Lifecycle store)
    (sane : BuildsNeverClash env exporter store.ledger)
    (enough : NonePending store ∨ ∃ queue, QueueCovers queue store ∧ queue.card ≤ polls) :
    AttainsValue (auditing κ) k (Unhindered exporter.leaseDuration)
      (fun _ => QueueDrained env exporter store) (runExporter env exporter polls) store := by
  induction polls generalizing store with
  | zero =>
      have cleared : NonePending store := by
        rcases enough with cleared | ⟨queue, queues, none⟩
        · exact cleared
        · intro id row found pending
          rw [Finset.card_eq_zero.mp (Nat.le_zero.mp none)] at queues
          simpa using queues id row found (.inl pending)
      exact attains_value_pure (auditing κ) k _ _ () store
        ⟨session_effect_refl store life, cleared, fun _ _ found _ => found,
        fun id row found pending => absurd pending (cleared id row found)⟩
  | succ polls ih =>
      refine attains_value_bind (auditing κ) k _ (fun outcome now => outcome = .ok () ∧
          PollEffect env exporter store now) _ _ _ store
        (attains_value_attempt k exporter.leaseDuration store _ (exporterPoll env exporter)
          (attains_mono (auditing κ) k _ _ _ _ store ?_
          (attains_value_poll k env exporter store life sane))) ?_
      · rintro _ now ⟨⟨⟩, rfl, found⟩
        exact ⟨rfl, found⟩
      rintro _ now ⟨rfl, polled⟩
      have left : NonePending now ∨ ∃ queue, QueueCovers queue now ∧ queue.card ≤ polls := by
        rcases enough with cleared | ⟨queue, queues, bound⟩
        · exact .inl (poll_effect_clears env exporter store now polled cleared)
        · refine (queue_covers_poll env exporter store now queue queues polled).imp_right ?_
          rintro ⟨id, inside, fewer⟩
          refine ⟨queue.erase id, fewer, ?_⟩
          rw [Finset.card_erase_of_mem inside]
          omega
      refine attains_value_mono (auditing κ) k _ _ _ _ now
        (fun _ final drained => queue_drained_poll env exporter store now final polled drained) ?_
      exact ih now polled.1.life (by rw [polled.1.ledger]; exact sane) left

end

section

variable {ι κ : Type} [DecidableEq ι] [Fintype ι] [DecidableEq κ] (env : Exporting) (calls : ι → Call)
  (jobs : κ → AuditCall) (now : Deployment ι κ) (reached : (deploy env calls jobs).Reaches now)
  (keyring : Keyring) (candid : NoWrongKey (SigningKey calls) keyring) (package : AuditPackage)
  (boundary : Checkpoint)
  (bounded : now.audit.store.ledger.checkpoint package.checkpointId = some boundary)
  (covers : now.audit.store.ledger.instrumentEvents package.instrumentId boundary.lastEventSequence ≠ [])

include reached candid bounded covers

theorem build_refused (lacks : ¬∀ checkpoint ∈ neededBy now.audit.store.ledger.checkpoints boundary,
      (keyring.lookup (text checkpoint.keyVersion)).isSome) :
    ∃ checkpoint ∈ neededBy now.audit.store.ledger.checkpoints boundary,
      keyring.lookup (text checkpoint.keyVersion) = none ∧
      builds env keyring now.audit.store.ledger package = .error (unknownKey checkpoint) := by
  have deployed := free_deployed env calls jobs now reached
  have sound := history_sound env.toRuntime calls now.ledger deployed.ledger
  rw [deployed.seen] at bounded covers lacks ⊢
  have member : boundary ∈ now.ledger.store.checkpoints := List.mem_of_find?_eq_some bounded
  rw [builds, load_bundle_at env.toRuntime _ package boundary bounded keyring covers]
  cases listed : now.ledger.store.toLedger.instrumentEvents package.instrumentId
      boundary.lastEventSequence with
  | nil => exact absurd listed covers
  | cons event rest =>
      have inside : event ∈ now.ledger.store.events.upTo boundary.lastEventSequence :=
        (instrument_event_covered env.toRuntime
          (SigningKey calls) now.ledger.store sound boundary package.instrumentId event
          (by rw [listed]; exact List.mem_cons_self)).1
      obtain ⟨committed, below⟩ := List.mem_filter.mp inside
      have bound := receipt_bound env.toRuntime
        (SigningKey calls) now.ledger.store keyring sound boundary member candid event committed
        (by simpa using below)
      rcases bound with ⟨held, _⟩ | ⟨checkpoint, needed, missing, refused⟩
      · exact absurd held lacks
      · refine ⟨checkpoint, needed, missing, ?_⟩
        rw [List.mapM_cons, refused]
        rfl

variable (legible : Legible env.toRuntime now.audit.store.ledger) (loads : Text → Option Json)
  (undoes : Undoes env.toRuntime loads)
  (narrow : ∀ event ∈ now.audit.store.ledger.events.rows, event.sequence < 2 ^ 63)

include legible undoes narrow

theorem build_succeeds (holds : ∀ checkpoint ∈ neededBy now.audit.store.ledger.checkpoints boundary,
      (keyring.lookup (text checkpoint.keyVersion)).isSome) :
    ∃ archive receipts manifest, builds env keyring now.audit.store.ledger package = .ok archive ∧
      archive.content = env.zip (receiptsDirectory :: receipts ++ [manifest]) ∧
      archive.eventCount = receipts.length ∧
      ∀ reader, HoldsKeys (SigningKey calls) reader (neededBy now.audit.store.ledger.checkpoints boundary) →
        CompleteArchive env.toRuntime loads now.audit.store.ledger boundary reader reader
          package.instrumentId receipts manifest := by
  obtain ⟨bundle, manifest, receipts, file, loaded, made, total, _⟩ :=
    archive_buildable env calls jobs now reached legible loads undoes
    narrow package boundary bounded covers keyring
      (no_wrong_key_holds (SigningKey calls) keyring candid _ holds)
  refine ⟨_, receipts, file, (bind_ok _ _ _).mpr ⟨bundle, loaded, (bind_ok _ _ _).mpr ⟨_, made, rfl⟩⟩,
    rfl, total, fun reader reads => ?_⟩
  exact archive_complete env calls jobs now reached legible loads undoes narrow package boundary bounded
    covers keyring reader bundle receipts
    file manifest loaded made reads

omit bounded covers in
theorem builds_never_clash (exporter : Exporter) (same : exporter.keyring = keyring) :
    BuildsNeverClash env exporter now.audit.store.ledger := by
  rintro row ⟨boundary, bounded, covers⟩ raised
  rw [same] at raised
  by_cases holds : ∀ checkpoint ∈ neededBy now.audit.store.ledger.checkpoints boundary,
    (keyring.lookup (text checkpoint.keyVersion)).isSome
  · obtain ⟨archive, _, _, built, _⟩ :=
      build_succeeds env calls jobs now reached keyring candid row boundary bounded covers legible loads
        undoes narrow holds
    rw [raised] at built
    cases built
  · obtain ⟨checkpoint, _, _, refused⟩ :=
      build_refused env calls jobs now reached keyring candid row boundary bounded covers holds
    rw [raised] at refused
    cases refused

end

-- What is left of a package whose keys are there, or are not.
def PackageOutcome (signing : Text → Bytes → Prop) (env : Exporting) (loads : Text → Option Json)
    (ledger : Ledger) (keyring : Keyring) {κ : Type} (store : AuditStore κ) (boundary : Checkpoint)
    (new : AuditPackage) : Prop :=
  (∀ checkpoint ∈ neededBy ledger.checkpoints boundary,
      (keyring.lookup (text checkpoint.keyVersion)).isSome) ∧ new.status = .ready ∧
      (∃ artifact receipts manifest, store.artifacts new.packageId = some artifact ∧
        artifact.zipContent = env.zip (receiptsDirectory :: receipts ++ [manifest]) ∧
        new.eventCount = some receipts.length ∧
        ∀ reader, HoldsKeys signing reader (neededBy ledger.checkpoints boundary) →
          CompleteArchive env.toRuntime loads ledger boundary reader reader new.instrumentId
            receipts manifest) ∨
    ∃ checkpoint ∈ neededBy ledger.checkpoints boundary,
      keyring.lookup (text checkpoint.keyVersion) = none ∧ new.status = .failed ∧
      new.failureCode = some "UNKNOWN_KEY_VERSION" ∧
      new.failureReason =
        some ((text "unknown HMAC key version: " ++ text checkpoint.keyVersion).take maxFailureReason)

section

variable {ι κ : Type} [DecidableEq ι] [Fintype ι] [DecidableEq κ] (env : Exporting) (calls : ι → Call)
  (jobs : κ → AuditCall)

theorem exporter_ends (now : Deployment ι κ) (reached : (deploy env calls jobs).Reaches now) (k : κ)
    (exporter : Exporter) (polls : Nat) (call : jobs k = .run exporter polls)
    (begins : now.audit.sessions k = some ((jobs k).program env).run) (queue : Finset Nat)
    (queues : QueueCovers queue now.audit.store) (enough : queue.card ≤ polls)
    (candid : NoWrongKey (SigningKey calls) exporter.keyring)
    (legible : Legible env.toRuntime now.audit.store.ledger) (loads : Text → Option Json)
    (undoes : Undoes env.toRuntime loads)
    (narrow : ∀ event ∈ now.audit.store.ledger.events.rows, event.sequence < 2 ^ 63)
    (supply : Nat → Choice) (unhindered : Unhindered exporter.leaseDuration supply) :
    ∃ final rest, now.Reaches final ∧
      runAlone (auditing κ) k ((jobs k).program env).run now.audit.store supply =
        some (.ok .exported, final.audit.store, rest) ∧
      finished (auditing κ) final.audit k = some (.ok .exported) ∧
      QueueDrained env exporter now.audit.store final.audit.store := by
  have life := (free_deployed env calls jobs now reached).disciplined.inv.life
  have sane := builds_never_clash env calls jobs now reached exporter.keyring candid legible loads
    undoes narrow exporter rfl
  have drains := attains_value_exporter k env exporter polls now.audit.store life sane
    (.inr ⟨queue, queues, enough⟩)
  have ends : AttainsValue (auditing κ) k (Unhindered exporter.leaseDuration)
      (fun outcome final => outcome = .exported ∧ QueueDrained env exporter now.audit.store final)
      ((jobs k).program env) now.audit.store := by
    rw [call]
    exact attains_value_bind (auditing κ) k _ _ _ _ _ _ drains fun _ final drained =>
      attains_value_pure (auditing κ) k _ _ _ final ⟨rfl, drained⟩
  obtain ⟨_, final, rest, ran, _, _, rfl, rfl, drained⟩ := ends supply unhindered
  have run := run_alone_reaches (auditing κ) k _ now.audit supply rest _ final begins ran
  exact ⟨_, rest, audit_reaches now _ run, ran, (finished_done (auditing κ) _ k _).mpr
    (Function.update_self ..), drained⟩

end

theorem plus_fits (moment : Instant) (duration : Int) (bound : 0 ≤ (moment.micros : Int) + duration ∧
    (moment.micros : Int) + duration < endOfTime) : ∃ expires, moment.plus duration = .ok expires :=
  ⟨_, dif_pos bound⟩

theorem sample_fits : ∃ expires, (sampleMoment 0).plus 120000000 = .ok expires := plus_fits _ _ (by decide)

theorem sample_no_wrong_key : NoWrongKey (SigningKey sampleCalls) sampleKeyring :=
  fun version _ key found signs =>
    Option.some.inj (found.symm.trans (sample_keys version key signs))

-- The sample package is requested, and not yet claimed.
theorem sample_request :
    ∃ now ∈ runSchedule (auditing Bool) (List.replicate 6 false)
      (archivingSessions sampleExports) sampleChoices,
    (∃ row ∈ now.1.store.packages 1, row.status = .pending ∧ row.instrumentId = "scale-7") ∧
    now.1.store.packages 0 = none ∧
      now.1.store.nextId = 2 := by decide +kernel

end CalibrationLedger
