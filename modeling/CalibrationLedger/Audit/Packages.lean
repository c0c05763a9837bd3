import CalibrationLedger.Audit.Deployment

set_option autoImplicit false

-- The life of a package, whoever works on it and however stale their claims are.
namespace CalibrationLedger

open JsonText Digest Interleaving Histories

def refused {α : Type} : Except Rejection α → Option Rejection
  | .ok _ => none
  | .error rejection => some rejection

-- The constraint that stopped a query, if one did.
def AuditQuery.rejection : (request : AuditQuery) → Reply request → Option Rejection
  | .insertPackage _, reply => refused reply
  | .claimSkipLocked _ _ _, reply => refused reply
  | .claimById _ _ _ _, reply => refused reply
  | .settleSkipLocked _, reply => refused reply
  | .settleById _ _, reply => refused reply
  | .finalWrite _ _, reply => refused reply
  | .finishCancelled _, reply => refused reply
  | .failOrCancel _ _ _, reply => refused reply
  | .requestRetry _, reply => refused reply
  | .cancelPackage _, reply => refused reply
  | .insertConsumer _, reply => refused reply
  | .advanceCursor _ _ _ _, reply => refused reply
  | _, _ => none

theorem moves_ready (action : Action) (old new : AuditPackage) (moves : Moves action old new)
    (ready : new.status = .ready) :
    old.status = .building := by
  cases moves with
  | complete claimed old archive now building owned => exact building
  | claim old workerId moment expires eligible => cases ready
  | settle old moment due => cases ready
  | retry old now failed => cases ready
  | withdraw old now pending => cases ready
  | requestCancel old now building => cases ready
  | confirm exit claimed old now asked owned => cases ready
  | fail claimed old code reason now building owned => cases ready

section

variable {κ : Type} (i : κ) (store : AuditStore κ)

theorem unfinished_no_artifact (life : Lifecycle store) (id : Nat) (row : AuditPackage)
    (found : store.packages id = some row) (unfinished : row.status ≠ .ready) :
    store.artifacts row.packageId = none := by
  cases stored : store.artifacts row.packageId with
  | none => rfl
  | some artifact =>
      obtain ⟨n, other, at_n, named, ready, _⟩ := life.stored row.packageId artifact stored
      have same := life.distinct n id other row at_n found (.inl named)
      subst same
      rw [found] at at_n
      cases at_n
      exact absurd ready unfinished

theorem transact_accepted {α : Type} (life : Lifecycle store) (action : α → Action) (id : Nat)
    (decision : Decision α) (decided : Decided action (store.packages id) decision) :
    refused (store.transact i action id decision).1 = none := by
  rcases decided with ⟨unwritten, _⟩ | ⟨old, new, found, written, moves, delivers⟩
  · rw [AuditStore.transact, unwritten]
    rfl
  · have shaped := in_order_shape new (moves_in_order _ old new moves (life.order id old found))
    rw [AuditStore.transact, written]
    dsimp only
    rw [if_neg (by simp [shaped])]
    rcases delivers with ⟨_, none⟩ | ⟨archive, now, completes, delivered⟩
    · rw [none]
      rfl
    · have building := moves_ready _ old new moves (by rw [completes]; rfl)
      have absent := unfinished_no_artifact store life id old found (by rw [building]; decide)
      rw [delivered]
      dsimp only
      rw [if_neg (by simp [AuditPackage.artifact, absent])]
      rfl

theorem claim_accepted (life : Lifecycle store) (workerId : String) (moment : Instant) (expires : Py Instant)
    (candidate : Option AuditPackage)
    (chosen : ∀ row, candidate = some row → store.packages row.id = some row ∧ row.eligible moment = true) :
    refused (store.claim i workerId moment expires candidate).1 = none := by
  cases candidate with
  | none => rfl
  | some row =>
      obtain ⟨found, eligible⟩ := chosen row rfl
      cases expires with
      | error _ => rfl
      | ok expires =>
          rw [AuditStore.claim]
          exact transact_accepted i store
            life _ _ _ (.inr ⟨row, _, found, rfl, .claim row workerId moment expires eligible,
            .inl ⟨by simp [AuditPackage.claim], rfl⟩⟩)

theorem answer_unrefused (life : Lifecycle store) (choice : Choice) (request : AuditQuery)
    (careful : CheckedBefore request store) :
    request.rejection (store.answer i choice request).1 ≠ some .stateShape ∧
      request.rejection (store.answer i choice request).1 ≠ some .artifactKey := by
  have accepted : ∀ {rejection : Option Rejection}, rejection = none → rejection ≠ some .stateShape ∧
      rejection ≠ some .artifactKey := by
    rintro _ rfl
    exact ⟨by simp, by simp⟩
  cases request with
  | insertPackage draft =>
      have shaped : ({ draft with id := store.nextId + choice.gap } : AuditPackage).stateShape = true :=
        in_order_shape draft careful.order
      dsimp only [AuditQuery.rejection, AuditStore.answer]
      rw [AuditStore.insertPackage]
      split
      · exact ⟨by simp [refused], by simp [refused]⟩
      · split
        · exact ⟨by simp [refused], by simp [refused]⟩
        · split
          · rename_i unshaped
            rw [shaped] at unshaped
            cases unshaped
          · exact accepted rfl
  | claimSkipLocked workerId moment leaseDuration =>
      refine accepted (claim_accepted i store life workerId moment _ _ fun row found => ?_)
      have chosen := List.find?_some found
      simp only [Bool.and_eq_true] at chosen
      exact ⟨(mem_rows store life.filed row).mp (List.mem_of_find?_eq_some found), chosen.1⟩
  | claimById id workerId moment expires =>
      refine accepted (claim_accepted i store life workerId moment _ _ fun row found => ?_)
      obtain ⟨at_id, eligible⟩ := Option.filter_eq_some_iff.mp found
      rw [(life.filed.packages id row at_id).1]
      exact ⟨at_id, eligible⟩
  | settleSkipLocked moment =>
      dsimp only [AuditQuery.rejection, AuditStore.answer]
      rw [AuditStore.settleAll, if_pos]
      · exact accepted rfl
      · refine List.all_eq_true.mpr fun row inside => ?_
        obtain ⟨listed, chosen⟩ := List.mem_filter.mp inside
        simp only [Bool.and_eq_true] at chosen
        have found := (mem_rows store life.filed row).mp listed
        exact in_order_shape _ (moves_in_order _ row _ (.settle row moment (.inr chosen.1))
            (life.order row.id row found))
  | settleById id moment =>
      dsimp only [AuditQuery.rejection, AuditStore.answer]
      cases found : store.packages id with
      | none => exact accepted rfl
      | some row =>
          exact accepted (transact_accepted i store
              life _ _ _ (.inr ⟨row, _, found, rfl, .settle row moment (careful row found),
            .inl ⟨by simp [AuditPackage.applyCancelled], rfl⟩⟩))
  | finalWrite claimed archive =>
      exact accepted (transact_accepted i store life _ _ _ (final_write_decided claimed archive _ _))
  | finishCancelled claimed =>
      exact accepted (transact_accepted i store life _ _ _ (finish_cancelled_decided claimed _ _))
  | failOrCancel claimed code reason =>
      exact accepted (transact_accepted i store life _ _ _ (fail_or_cancel_decided claimed code reason _ _))
  | requestRetry packageId =>
      dsimp only [AuditQuery.rejection, AuditStore.answer]
      cases found : store.byPackageId packageId with
      | none => exact accepted rfl
      | some row =>
          refine accepted (transact_accepted i store life _ _ _ ?_)
          rw [(mem_rows store life.filed row).mp (List.mem_of_find?_eq_some found)]
          exact retry_decided packageId choice.clock row
  | cancelPackage packageId =>
      dsimp only [AuditQuery.rejection, AuditStore.answer]
      cases found : store.byPackageId packageId with
      | none => exact accepted rfl
      | some row =>
          refine accepted (transact_accepted i store life _ _ _ ?_)
          rw [(mem_rows store life.filed row).mp (List.mem_of_find?_eq_some found)]
          exact cancel_decided packageId choice.clock row
  | insertConsumer draft =>
      dsimp only [AuditQuery.rejection, AuditStore.answer]
      rw [AuditStore.insertConsumer]
      split
      · exact ⟨by simp [refused], by simp [refused]⟩
      · exact accepted rfl
  | advanceCursor id predecessor checkpointId now =>
      dsimp only [AuditQuery.rejection, AuditStore.answer]
      rw [AuditStore.advanceCursor]
      split
      · exact accepted rfl
      · split
        · exact accepted rfl
        · split
          · exact ⟨by simp [refused], by simp [refused]⟩
          · exact accepted rfl
  | _ => exact accepted rfl

end

section

variable {ι κ : Type} [DecidableEq ι] [Fintype ι] [DecidableEq κ] (env : Exporting) (calls : ι → Call)
  (jobs : κ → AuditCall)

theorem packages_live_in_order (now : Deployment ι κ) (reached : (deploy env calls jobs).Reaches now) :
    (∀ id row, now.audit.store.packages id = some row → row.stateShape = true ∧
      ((now.audit.store.artifacts row.packageId).isSome = true ↔ row.status = .ready) ∧
      ∀ artifact, now.audit.store.artifacts row.packageId = some artifact →
        row.artifactSha256 = some artifact.sha256 ∧ row.artifactSizeBytes = some artifact.sizeBytes) ∧
    (∀ packageId artifact, now.audit.store.artifacts packageId = some artifact →
      ∃ id row, now.audit.store.packages id = some row ∧ row.packageId = packageId) ∧
    (∀ i request resume choice, now.audit.sessions i = some (.call (.sql request) resume) →
      request.rejection (now.audit.store.answer i choice request).1 ≠ some .stateShape ∧
        request.rejection (now.audit.store.answer i choice request).1 ≠ some .artifactKey) ∧
    (∀ later : Deployment ι κ, now.Reaches later → ∀ id row, now.audit.store.packages id = some row →
      ∃ new, later.audit.store.packages id = some new ∧
        (row.status = .ready → new.status = .ready) ∧ (row.status = .cancelled → new.status = .cancelled) ∧
        (row.status = .cancelling → new.status = .cancelling ∨ new.status = .cancelled) ∧
        new.instrumentId = row.instrumentId ∧ new.checkpointId = row.checkpointId ∧
        new.idempotencyKey = row.idempotencyKey ∧ new.requestFingerprint = row.requestFingerprint ∧
        new.createdAt = row.createdAt) ∧
    ∀ i packageId outcome, jobs i = .cancel packageId →
      finished (auditing κ) now.audit i = some (.ok outcome) →
      ∀ later : Deployment ι κ, now.Reaches later → later.audit.store.artifacts packageId = none := by
  have deployed := free_deployed env calls jobs now reached
  have life := deployed.disciplined.inv.life
  refine ⟨fun id row found => ?_, fun packageId artifact stored => ?_,
    fun i request resume choice session => ?_,
    fun later onward id row found => ?_, fun i packageId outcome asks ended later onward => ?_⟩
  · refine ⟨in_order_shape row (life.order id row found), ⟨fun some => ?_, life.kept id row found⟩,
      fun artifact stored => ?_⟩
    · by_contra unfinished
      rw [unfinished_no_artifact now.audit.store life id row found unfinished] at some
      cases some
    · obtain ⟨n, other, at_n, named, _, digest, size⟩ := life.stored row.packageId artifact stored
      have same := life.distinct n id other row at_n found (.inl named)
      subst same
      rw [found] at at_n
      cases at_n
      exact ⟨digest, size⟩
  · obtain ⟨id, row, found, named, _⟩ := life.stored packageId artifact stored
    exact ⟨id, row, found, named⟩
  · obtain ⟨owed, _⟩ :=
      deployed.disciplined.verified i _ session _ deployed.disciplined.inv
        (audit_rely_refl False nameless i _)
    exact answer_unrefused i now.audit.store life choice request owed.1
  · obtain ⟨new, at_id, evolves⟩ := (free_onward env calls jobs now later reached onward).rows id row found
    obtain ⟨_, _, key, fingerprint, instrument, checkpoint, created⟩ := by
      simpa only [AuditPackage.identity, Prod.mk.injEq] using evolves.same
    refine ⟨new, at_id, fun ready => ?_, evolves.cancelled, fun asked => ?_, instrument, checkpoint,
      key, fingerprint, created⟩
    · rw [evolves.ready ready]
      exact ready
    · rcases evolves.cancelling asked with done | rfl
      · exact .inr done
      · exact .inl asked
  · have withdrawn : Withdrawn packageId now.audit.store := by
      have concluded :=
        deployed_concluded False nameless nameless_unique env calls jobs now deployed i _ ended
      rw [asks] at concluded
      exact concluded
    obtain ⟨id, row, found, rfl, status⟩ := withdrawn
    obtain ⟨new, at_id, evolves⟩ := (free_onward env calls jobs now later reached onward).rows id row found
    have still := (free_deployed env calls jobs later (reached.trans onward)).disciplined.inv.life
    rw [← evolves_package_id row new evolves]
    refine unfinished_no_artifact later.audit.store still id new at_id ?_
    rcases status with asked | done
    · rcases evolves.cancelling asked with done | rfl
      · simp [done]
      · simp [asked]
    · simp [evolves.cancelled done]

end

-- A package is asked for and given up.
def sampleWithdrawal : Bool → AuditCall
  | false => .create "scale-7" "export-1" none
  | true => .cancel (sampleUuid 9)

theorem sample_package_lives :
    ∃ now : Deployment Bool Bool, (deploy sampleExporting sampleCalls sampleWithdrawal).Reaches now ∧
    (∃ row, now.audit.store.packages 1 = some row ∧ row.status = .cancelled ∧ row.stateShape = true) ∧
    now.audit.store.artifacts (sampleUuid 9) = none := by
  have ran : ∃ final ∈ runSchedule (auditing Bool) (List.replicate 6 false ++ [true])
    (sampleSessions sampleWithdrawal) sampleChoices,
      (∃ row ∈ final.1.store.packages 1, row.status = .cancelled) ∧
      ∃ outcome ∈ finished (auditing Bool) final.1 true, outcome.isOk = true := by decide +kernel
  obtain ⟨⟨final, rest⟩, run, ⟨row, found, status⟩, outcome, ended, fine⟩ := ran
  obtain ⟨ledger, reached, _⟩ := sample_deployment sampleWithdrawal _ final rest run
  obtain ⟨orderly, _, _, _, gone⟩ :=
    packages_live_in_order sampleExporting sampleCalls sampleWithdrawal _ reached
  cases outcome with
  | error error => cases fine
  | ok value =>
      exact ⟨_, reached, ⟨row, found, status, (orderly 1 row found).1⟩, gone true _ value rfl ended _ .refl⟩

end CalibrationLedger
