import CalibrationLedger.Audit.Readiness
import CalibrationLedger.Library.Moments
import Mathlib.Data.List.DropRight

set_option autoImplicit false

-- What clients are shown of packages and consumers, and the archives they download.
-- The audit services commit between the SELECTs of one request.
namespace CalibrationLedger

open JsonText Digest Interleaving Histories Moments

-- isoformat_utc of a column that may be NULL.
def isoColumn : Option Instant → Py Json
  | some instant => do return .str (← isoformatUtc ⟨instant, some 0⟩)
  | none => throw .attributeError

def isoOrNull : Option Instant → Py Json
  | some instant => isoColumn (some instant)
  | none => return .null

def numberColumn (column : Option Nat) : Json := (column.map fun number => (.int number : Json)).getD .null

def AuditPackage.artifactView (package : AuditPackage) : Py Json :=
  if package.status = .ready then do
    let readyAt ← isoColumn package.readyAt
    return .obj (dict [
      ("sha256", optional package.artifactSha256),
      ("size_bytes", numberColumn package.artifactSizeBytes),
      ("event_count", numberColumn package.eventCount),
      ("ready_at", readyAt)])
  else return .null

def AuditPackage.failureView (package : AuditPackage) : Py Json :=
  if package.status = .failed then do
    let failedAt ← isoColumn package.failedAt
    return .obj (dict [
      ("code", optional package.failureCode),
      ("reason", (package.failureReason.map fun reason => (.str reason : Json)).getD .null),
      ("failed_at", failedAt)])
  else return .null

def AuditPackage.cancellationView (package : AuditPackage) : Py Json :=
  match package.cancelRequestedAt with
  | none => return .null
  | some requested => do
      let requestedAt ← isoColumn (some requested)
      let cancelledAt ← isoOrNull package.cancelledAt
      return .obj (dict [("requested_at", requestedAt), ("cancelled_at", cancelledAt)])

def auditPackageView (package : AuditPackage) : Py Dict := do
  let artifact ← package.artifactView
  let failure ← package.failureView
  let cancellation ← package.cancellationView
  let createdAt ← isoColumn (some package.createdAt)
  let updatedAt ← isoColumn (some package.updatedAt)
  return dict [
    ("package_id", string package.packageId.toText),
    ("instrument_id", string package.instrumentId),
    ("checkpoint_id", string package.checkpointId.toText),
    ("status", string package.status.name),
    ("attempt_count", .int package.attemptCount),
    ("event_count", numberColumn package.eventCount),
    ("boundary", .obj (dict [
      ("checkpoint_id", string package.checkpointId.toText),
      ("request_fingerprint", string package.requestFingerprint)])),
    ("artifact", artifact),
    ("failure", failure),
    ("cancellation", cancellation),
    ("created_at", createdAt),
    ("updated_at", updatedAt)]

def AuditConsumer.cursorView (consumer : AuditConsumer) (checkpoint : Option Checkpoint) : Py Json :=
  match consumer.lastCheckpointId with
  | none => return .null
  | some checkpointId => do
      let acknowledgedAt ← isoColumn consumer.lastAcknowledgedAt
      return .obj (dict [
        ("checkpoint_id", string checkpointId.toText),
        ("leaf_count", numberColumn (checkpoint.map Checkpoint.leafCount)),
        ("last_event_sequence", (checkpoint.map fun row => (.int row.lastEventSequence : Json)).getD .null),
        ("acknowledged_at", acknowledgedAt)])

def auditConsumerView (consumer : AuditConsumer) (checkpoint : Option Checkpoint) : Py Dict := do
  let current ← consumer.cursorView checkpoint
  let createdAt ← isoColumn (some consumer.createdAt)
  let updatedAt ← isoColumn (some consumer.updatedAt)
  return dict [
    ("consumer_id", string consumer.consumerId.toText),
    ("consumer_name", string consumer.consumerName),
    ("last_acknowledged_checkpoint", current),
    ("created_at", createdAt),
    ("updated_at", updatedAt)]

inductive AuditLookup where
  | selectPackage (packageId : Uuid)
  | getArtifact (packageId : Uuid)
  | selectConsumer (consumerId : Uuid)
  | getCheckpoint (checkpointId : Uuid)

@[reducible] def AuditFound : AuditLookup → Type
  | .selectPackage _ => Option AuditPackage
  | .getArtifact _ => Option AuditPackageArtifact
  | .selectConsumer _ => Option AuditConsumer
  | .getCheckpoint _ => Option Checkpoint

abbrev AuditLookups : Signature := ⟨AuditLookup, AuditFound⟩

section

variable {κ : Type}

def AuditStore.byConsumerId (store : AuditStore κ) (consumerId : Uuid) : Option AuditConsumer :=
  store.consumerRows.find? fun row => row.consumerId = consumerId

def AuditStore.lookUp : (query : AuditLookup) → AuditStore κ → AuditFound query
  | .selectPackage packageId, store => store.byPackageId packageId
  | .getArtifact packageId, store => store.artifacts packageId
  | .selectConsumer consumerId, store => store.byConsumerId consumerId
  | .getCheckpoint checkpointId, store => store.ledger.checkpoint checkpointId

end

abbrev AuditRead (α : Type) := ExceptT PyError (Program AuditLookups) α

def lookUp (query : AuditLookup) : AuditRead (AuditFound query) :=
  ExceptT.lift (Program.statement (S := AuditLookups) query)

-- The answer to a request whose statements find these moments, one after the other.
def reply {κ α : Type} (request : AuditRead α) (moments : Nat → AuditStore κ) : Py α :=
  (readAlong AuditStore.lookUp request.run moments).1

def getPackage (packageId : Uuid) : AuditRead AuditPackage := do
  match ← lookUp (.selectPackage packageId) with
  | none => throw (notFoundError "audit_package" packageId.toText)
  | some package => return package

def packageNotReady (packageId : Uuid) (status : PackageStatus) : PyError :=
  packageError "AUDIT_PACKAGE_NOT_READY"
    ("the package is " ++ status.name ++ "; the download is available when ready") packageId status
    [("retryable", .bool (status = .failed))]

def artifactMissing (packageId : Uuid) : PyError :=
  .ledger ⟨"AUDIT_ARTIFACT_MISSING", text "the package is marked ready but its archive is absent", 500,
    [("package_id", string packageId.toText)]⟩

def getReadyArtifact (packageId : Uuid) : AuditRead (AuditPackage × AuditPackageArtifact) := do
  let package ← getPackage packageId
  if package.status ≠ .ready then throw (packageNotReady packageId package.status)
  else
    match ← lookUp (.getArtifact package.packageId) with
    | none => throw (artifactMissing packageId)
    | some artifact => return (package, artifact)

def getAuditPackage (packageId : Uuid) : AuditRead Dict := do
  let package ← getPackage packageId
  let view ← auditPackageView package
  return dict [("package", .obj view)]

-- str.isalnum goes by Unicode tables, so it stays a parameter.
def safeInstrument (isalnum : Char → Bool) (instrumentId : String) : String :=
  let replaced := instrumentId.toList.map fun character =>
    if isalnum character || character = '-' || character = '_' then character else '-'
  let stripped := (replaced.dropWhile fun character => character = '-').rdropWhile fun character =>
    character = '-'
  if stripped = [] then "instrument" else String.ofList stripped

def downloadName (isalnum : Char → Bool) (package : AuditPackage) : String :=
  "audit-package-" ++ safeInstrument isalnum package.instrumentId ++ "-" ++ package.packageId.toText ++ ".zip"

def latin1 (content : String) : Bool := content.toList.all fun character => character.toNat < 256

-- The response encodes its header values as Latin-1; a UnicodeEncodeError is a ValueError.
def encodeLatin1 (content : String) : Py Bytes :=
  if latin1 content then .ok
    (content.toList.map fun character => UInt8.ofNat character.toNat) else .error .valueError

structure Download where
  content : Bytes
  disposition : Bytes
  sha256 : Bytes
deriving DecidableEq

def contentDisposition (isalnum : Char → Bool) (package : AuditPackage) : String :=
  "attachment; filename=\"" ++ downloadName isalnum package ++ "\""

def downloadResponse (isalnum : Char → Bool) (package : AuditPackage) (artifact : AuditPackageArtifact) :
    Py Download := do
  let disposition ← encodeLatin1 (contentDisposition isalnum package)
  let sha256 ← encodeLatin1 artifact.sha256
  return ⟨artifact.zipContent, disposition, sha256⟩

def downloadAuditPackage (isalnum : Char → Bool) (packageId : Uuid) : AuditRead Download := do
  let (package, artifact) ← getReadyArtifact packageId
  downloadResponse isalnum package artifact

def getConsumer (consumerId : Uuid) : AuditRead AuditConsumer := do
  match ← lookUp (.selectConsumer consumerId) with
  | none => throw (notFoundError "audit_consumer" consumerId.toText)
  | some consumer => return consumer

def currentCheckpoint (consumer : AuditConsumer) : AuditRead (Option Checkpoint) :=
  match consumer.lastCheckpointId with
  | none => return none
  | some checkpointId => lookUp (.getCheckpoint checkpointId)

def getAuditConsumer (consumerId : Uuid) : AuditRead Dict := do
  let consumer ← getConsumer consumerId
  let checkpoint ← currentCheckpoint consumer
  let view ← auditConsumerView consumer checkpoint
  return dict [("consumer", .obj view)]

-- What may stand in a download's name: what isalnum accepts, ASCII letters and digits,
-- and three marks; no quote ends the header's parameter early.
def PlainName (isalnum : Char → Bool) (name : List Char) : Prop :=
  ∀ character ∈ name, isalnum character = true ∨ character.isAlphanum = true ∨ character ∈ ['-', '_', '.']

theorem plain_append (isalnum : Char → Bool) (left right : List Char) (first : PlainName isalnum left)
    (second : PlainName isalnum right) :
    PlainName isalnum (left ++ right) := by
  intro character member
  rcases List.mem_append.mp member with inside | inside
  · exact first character inside
  · exact second character inside

theorem hex_digits_alphanum (data : Bytes) : ∀ digit ∈ hexDigits data, digit.isAlphanum = true := by
  intro digit member
  obtain ⟨byte, _, inside⟩ := List.mem_flatMap.mp member
  have bound := byte.toNat_lt
  have small : ∀ n < 16, (Nat.digitChar n).isAlphanum = true := by decide
  simp only [List.mem_cons, List.not_mem_nil, or_false] at inside
  rcases inside with rfl | rfl
  · exact small _ (by omega)
  · exact small _ (by omega)

theorem uuid_plain (isalnum : Char → Bool) (id : Uuid) : PlainName isalnum id.toText.toList := by
  intro character member
  rw [Uuid.toText, String.toList_ofList] at member
  have digit (inside : character ∈ hexDigits id.bytes) : character.isAlphanum = true :=
    hex_digits_alphanum id.bytes character inside
  simp only [List.mem_append, List.mem_cons] at member
  grind [List.mem_of_mem_take, List.mem_of_mem_drop]

theorem safe_instrument_plain (isalnum : Char → Bool) (instrumentId : String) :
    PlainName isalnum (safeInstrument isalnum instrumentId).toList := by
  intro character member
  rw [safeInstrument] at member
  split at member
  · have letters : "instrument".toList.all Char.isAlphanum = true := by decide
    exact .inr (.inl (List.all_eq_true.mp letters character member))
  · rw [String.toList_ofList] at member
    have inside := (List.dropWhile_suffix _).subset ((List.rdropWhile_prefix _ _).subset member)
    obtain ⟨original, _, rfl⟩ := List.mem_map.mp inside
    by_cases kept : (isalnum original || original = '-' || original = '_') = true
    · rw [if_pos kept]
      simp only [Bool.or_eq_true, decide_eq_true_eq] at kept
      rcases kept with (accepted | dash) | underscore
      · exact .inl accepted
      · exact .inr (.inr (by simp [dash]))
      · exact .inr (.inr (by simp [underscore]))
    · rw [if_neg kept]
      exact .inr (.inr (by simp))

theorem download_name_plain (isalnum : Char → Bool) (package : AuditPackage) :
    PlainName isalnum (downloadName isalnum package).toList := by
  have fixed : ∀ literal ∈ ["audit-package-", "-", ".zip"], PlainName isalnum literal.toList := by
    intro literal member character inside
    have marks : ["audit-package-", "-", ".zip"].all (fun other =>
        other.toList.all fun mark => mark.isAlphanum || ['-', '_', '.'].contains mark) = true := by decide
    have marked := List.all_eq_true.mp (List.all_eq_true.mp marks literal member) character inside
    exact .inr (by simpa using marked)
  simp only [downloadName, String.toList_append]
  refine plain_append
    _ _ _ (plain_append _ _ _ (plain_append _ _ _ (plain_append _ _ _ (fixed _ (by simp)) ?_)
      (fixed _ (by simp))) ?_)
    (fixed _ (by simp))
  · exact safe_instrument_plain isalnum package.instrumentId
  · exact uuid_plain isalnum package.packageId

-- No letter or digit of the instrument id is beyond Latin-1.
def LettersInLatin1 (isalnum : Char → Bool) (instrumentId : String) : Prop :=
  ∀ character ∈ instrumentId.toList, isalnum character = true → character.toNat < 256

theorem latin1_append (left right : String) : latin1 (left ++ right) = (latin1 left && latin1 right) := by
  rw [latin1, String.toList_append, List.all_append]
  rfl

theorem alphanum_latin1 (content : List Char)
    (ascii : ∀ character ∈ content, character.isAlphanum = true ∨ character = '-') :
    latin1 (String.ofList content) = true := by
  rw [latin1, String.toList_ofList, List.all_eq_true]
  intro character inside
  rcases ascii character inside with letter | rfl
  · have ranges : (decide ('A'.val ≤ character.val ∧ character.val ≤ 'Z'.val) ||
        decide ('a'.val ≤ character.val) && decide (character.val ≤ 'z'.val) ||
        decide ('0'.val ≤ character.val) && decide (character.val ≤ '9'.val)) = true := letter
    have code : character.toNat = character.val.toNat := rfl
    simp [UInt32.le_iff_toNat_le] at ranges
    simp
    omega
  · decide

theorem uuid_latin1 (id : Uuid) : latin1 id.toText = true := by
  refine alphanum_latin1 _ fun character member => ?_
  have digit (inside : character ∈ hexDigits id.bytes) : character.isAlphanum = true :=
    hex_digits_alphanum id.bytes character inside
  simp only [List.mem_append, List.mem_cons] at member
  grind [List.mem_of_mem_take, List.mem_of_mem_drop]

theorem stripped_member (content : List Char) (character : Char) (other : character ≠ '-') :
    character ∈ (content.dropWhile fun mark => mark = '-').rdropWhile (fun mark => mark = '-') ↔
    character ∈ content := by
  have front : ∀ marks : List Char, character ∈ marks.dropWhile (fun mark => mark = '-') ↔
      character ∈ marks := by
    intro marks
    induction marks with
    | nil => simp
    | cons mark rest ih =>
        rw [List.dropWhile_cons]
        split
        · rename_i dash
          rw [ih, List.mem_cons, or_iff_right]
          rintro rfl
          exact other (by simpa using dash)
        · rfl
  rw [List.rdropWhile, List.mem_reverse, front, List.mem_reverse, front]

theorem safe_instrument_latin1 (isalnum : Char → Bool) (instrumentId : String) :
    latin1 (safeInstrument isalnum instrumentId) = true ↔ LettersInLatin1 isalnum instrumentId := by
  have shown : ∀ character : Char, 256 ≤ character.toNat →
      (character ∈ (safeInstrument isalnum instrumentId).toList ↔ character ∈ instrumentId.toList ∧
        isalnum character = true) := by
    intro character beyond
    have dash : character ≠ '-' := by rintro rfl; exact absurd beyond (by decide)
    have underscore : character ≠ '_' := by rintro rfl; exact absurd beyond (by decide)
    have kept := stripped_member (instrumentId.toList.map fun mark =>
      if isalnum mark || mark = '-' || mark = '_' then mark else '-') character dash
    have mapped : (character ∈ instrumentId.toList.map fun mark =>
        if isalnum mark || mark = '-' || mark = '_' then mark else '-') ↔
          character ∈ instrumentId.toList ∧ isalnum character = true := by
      rw [List.mem_map]
      constructor
      · rintro ⟨mark, inside, is⟩
        split at is
        · rename_i accepted
          subst is
          exact ⟨inside, by simpa [dash, underscore] using accepted⟩
        · exact absurd is.symm dash
      · rintro ⟨inside, accepted⟩
        exact ⟨character, inside, by simp [accepted]⟩
    rw [safeInstrument]
    split
    · rename_i nothing
      rw [nothing] at kept
      rw [← mapped, ← kept]
      have letters : "instrument".toList.all (fun letter => letter.toNat < 256) = true := by decide
      refine iff_of_false (fun inside => ?_) (by simp)
      have small := List.all_eq_true.mp letters character inside
      simp only [decide_eq_true_eq] at small
      omega
    · rw [String.toList_ofList, kept, mapped]
  rw [latin1, List.all_eq_true, LettersInLatin1]
  constructor
  · intro all character inside accepted
    by_contra beyond
    have small := all character ((shown character (not_lt.mp beyond)).mpr ⟨inside, accepted⟩)
    exact beyond (of_decide_eq_true small)
  · intro spelt character inside
    by_contra beyond
    have large : 256 ≤ character.toNat := by simpa using beyond
    obtain ⟨there, accepted⟩ := (shown character large).mp inside
    have small := spelt character there accepted
    omega

example : latin1 (safeInstrument (fun _ => true) "scale-7") = true ∧
    latin1 (safeInstrument (fun _ => true) "温度-1") = false := by decide +kernel

theorem download_sent (isalnum : Char → Bool) (package : AuditPackage) (artifact : AuditPackageArtifact)
    (digest : latin1 artifact.sha256 = true) :
    (LettersInLatin1 isalnum package.instrumentId →
      ∃ download, downloadResponse isalnum package artifact = .ok download ∧
      download.content = artifact.zipContent) ∧
    (¬ LettersInLatin1 isalnum package.instrumentId →
          downloadResponse isalnum package artifact = .error .valueError) := by
  have header : latin1 (contentDisposition isalnum package) =
      latin1 (safeInstrument isalnum package.instrumentId) := by
    have parameter : latin1 "attachment; filename=\"" = true := by decide +kernel
    have front : latin1 "audit-package-" = true := by decide +kernel
    have dash : latin1 "-" = true := by decide +kernel
    have suffix : latin1 ".zip" = true := by decide +kernel
    have quote : latin1 "\"" = true := by decide +kernel
    unfold contentDisposition downloadName
    simp only [latin1_append, parameter, front, dash, suffix, quote, uuid_latin1, Bool.true_and,
      Bool.and_true]
  rw [downloadResponse, encodeLatin1, encodeLatin1, digest, header, if_pos rfl]
  constructor
  · intro spelt
    rw [if_pos ((safe_instrument_latin1 isalnum _).mpr spelt)]
    exact ⟨_, rfl, rfl⟩
  · intro misspelt
    rw [if_neg fun sent => misspelt ((safe_instrument_latin1 isalnum _).mp sent)]
    rfl

theorem iso_column (instant : Instant) : isoColumn (some instant) = .ok (.str (utcText instant)) := by
  rw [isoColumn, isoformat_utc_text]
  rfl

theorem iso_or_null (column : Option Instant) : ∃ shown, isoOrNull column = .ok shown := by
  cases column with
  | none => exact ⟨.null, rfl⟩
  | some instant => exact ⟨_, iso_column instant⟩

theorem iso_present (column : Option Instant) (present : column.isSome = true) :
    ∃ shown, isoColumn column = .ok shown := by
  obtain ⟨instant, rfl⟩ := Option.isSome_iff_exists.mp present
  exact ⟨_, iso_column instant⟩

theorem artifact_view (package : AuditPackage) (order : package.InOrder) :
    ∃ artifact, package.artifactView = .ok artifact ∧ (artifact = .null ↔ package.status ≠ .ready) := by
  rw [AuditPackage.artifactView]
  by_cases ready : package.status = .ready
  · obtain ⟨shown, made⟩ := iso_present package.readyAt (by rw [order.finished, ready]; rfl)
    rw [if_pos ready, made]
    exact ⟨_, rfl, by simp [ready]⟩
  · rw [if_neg ready]
    exact ⟨.null, rfl, by simp [ready]⟩

theorem failure_view (package : AuditPackage) (order : package.InOrder) :
    ∃ failure, package.failureView = .ok failure ∧ (failure = .null ↔ package.status ≠ .failed) := by
  rw [AuditPackage.failureView]
  by_cases failed : package.status = .failed
  · obtain ⟨shown, made⟩ := iso_present package.failedAt (by rw [order.broken, failed]; rfl)
    rw [if_pos failed, made]
    exact ⟨_, rfl, by simp [failed]⟩
  · rw [if_neg failed]
    exact ⟨.null, rfl, by simp [failed]⟩

theorem cancellation_view (package : AuditPackage) (order : package.InOrder) :
    ∃ cancellation, package.cancellationView = .ok cancellation ∧
      (cancellation = .null ↔ package.status ≠ .cancelling ∧ package.status ≠ .cancelled) := by
  have asked := order.asked
  rw [AuditPackage.cancellationView]
  cases requested : package.cancelRequestedAt with
  | none =>
      rw [requested] at asked
      have neither := of_decide_eq_false asked.symm
      exact ⟨.null, rfl, by simpa using neither⟩
  | some instant =>
      rw [requested] at asked
      have either := of_decide_eq_true asked.symm
      obtain ⟨cancelled, made⟩ := iso_or_null package.cancelledAt
      dsimp only
      rw [iso_column, made]
      refine ⟨_, rfl, ?_⟩
      rcases either with status | status <;> simp [status]

theorem package_view_shown (package : AuditPackage) (order : package.InOrder) :
    ∃ view, auditPackageView package = .ok view ∧ getItem "status" view = string package.status.name ∧
      (getItem "artifact" view = .null ↔ package.status ≠ .ready) ∧
      (getItem "failure" view = .null ↔ package.status ≠ .failed) ∧
      (getItem "cancellation" view = .null ↔ package.status ≠ .cancelling ∧ package.status ≠ .cancelled) := by
  obtain ⟨artifact, archived, ready⟩ := artifact_view package order
  obtain ⟨failure, explained, failed⟩ := failure_view package order
  obtain ⟨cancellation, withdrawn, asked⟩ := cancellation_view package order
  refine ⟨_, (bind_ok _ _ _).mpr
    ⟨artifact, archived, (bind_ok _ _ _).mpr ⟨failure, explained, (bind_ok _ _ _).mpr
    ⟨cancellation, withdrawn,
      (bind_ok _ _ _).mpr ⟨_, iso_column _, (bind_ok _ _ _).mpr ⟨_, iso_column _, rfl⟩⟩⟩⟩⟩, ?_⟩
  simp only [get_item_dict]
  exact ⟨rfl, ready, failed, asked⟩

section

variable {κ : Type} (store : AuditStore κ) (life : Lifecycle store)

include life

theorem by_package_found (packageId : Uuid) (row : AuditPackage)
    (found : store.byPackageId packageId = some row) :
    store.packages row.id = some row ∧ row.packageId = packageId :=
  ⟨(mem_rows store life.filed row).mp (List.mem_of_find?_eq_some found), by simpa using List.find?_some found⟩

theorem by_package_kept (id : Nat) (row : AuditPackage) (held : store.packages id = some row) :
    store.byPackageId row.packageId = some row := by
  have own := (life.filed.packages id row held).1
  subst own
  have present : (store.byPackageId row.packageId).isSome := by
    rw [AuditStore.byPackageId, List.find?_isSome]
    exact ⟨row, (mem_rows store life.filed row).mpr held, by simp⟩
  obtain ⟨other, is⟩ := Option.isSome_iff_exists.mp present
  obtain ⟨there, named⟩ := by_package_found store life row.packageId other is
  have same := life.distinct other.id row.id other row there held (.inl named)
  rw [same, held] at there
  rw [is, Option.some.inj there]

end

theorem reply_look {κ α : Type} (query : AuditLookup) (next : AuditFound query → AuditRead α)
    (moments : Nat → AuditStore κ) :
    reply (lookUp query >>= next) moments = reply (next ((moments 0).lookUp query)) fun turn =>
      moments (turn + 1) := rfl

section

variable {ι κ : Type} [DecidableEq ι] [Fintype ι] [DecidableEq κ] (env : Exporting) (calls : ι → Call)
  (jobs : κ → AuditCall)

-- What every answer keeps, and the ledger growing under the audit tables, holds all along.
theorem audit_run (holds : AuditStore κ → Prop)
    (grown : ∀ store ledger, LedgerGrows store.ledger ledger → holds store → holds (store.over ledger))
    (answered : ∀ i statement store before response next after, Lifecycle store →
      (∀ request, statement = .sql request → CheckedBefore request store) →
      auditRespond i statement store before = some (response, next, after) → holds store → holds next)
    (now later : Deployment ι κ) (reached : (deploy env calls jobs).Reaches now) (onward : now.Reaches later)
    (start : holds now.audit.store) : holds later.audit.store := by
  induction onward with
  | refl => exact start
  | tail run step ih =>
      have deployed := free_deployed env calls jobs _ (reached.trans run)
      obtain ⟨_, moved, _⟩ := deployed_step False nameless nameless_unique env calls jobs _ _ deployed step
      cases step with
      | ledger after step => exact grown _ _ moved.ledger ih
      | audit after step =>
          obtain ⟨i, exec | crash⟩ := step
          · cases exec with
            | step query resume response store supply rest active answer =>
                obtain ⟨owed, _⟩ := deployed.disciplined.verified i _ active _ deployed.disciplined.inv
                  (audit_rely_refl False nameless i _)
                refine answered i query _ supply response store rest deployed.disciplined.inv.life
                  (fun request is => ?_) answer ih
                subst is
                exact owed.1
          · cases crash with
            | step query resume active => exact ih

theorem forward_run (now later : Deployment ι κ) (reached : (deploy env calls jobs).Reaches now)
    (onward : now.Reaches later) :
    Forward now.audit.store later.audit.store := by
  refine audit_run env calls jobs (Forward now.audit.store) (fun store ledger grows forward => ?_)
    (fun i statement store before response next after life careful answer forward => ?_) now later
      reached onward (forward_refl _)
  · refine forward_trans _ _ _ forward
      ⟨⟨grows, fun _ row found => ⟨row, found, evolves_refl row⟩, List.prefix_rfl, List.prefix_rfl⟩, ?_⟩
    exact fun _ _ stored => stored
  · exact forward_trans _ _ _ forward
      (forward_respond i statement store before response next after life careful answer)

variable (moments : Nat → Deployment ι κ) (onward : ∀ turn, (moments turn).Reaches (moments (turn + 1)))

include onward

theorem deployment_moments (turn : Nat) : (moments 0).Reaches (moments turn) := by
  induction turn with
  | zero => exact .refl
  | succ turn ih => exact ih.trans (onward turn)

variable (isalnum : Char → Bool) (packageId : Uuid)

omit onward [DecidableEq ι] [Fintype ι] [DecidableEq κ] in
theorem download_reply (stores : Nat → AuditStore κ) : reply (downloadAuditPackage isalnum packageId) stores =
    match (stores 0).byPackageId packageId with
    | none => .error (notFoundError "audit_package" packageId.toText)
    | some package =>
        if package.status ≠ .ready then .error (packageNotReady packageId package.status)
        else
          match (stores 1).artifacts package.packageId with
          | none => .error (artifactMissing packageId)
          | some artifact => downloadResponse isalnum package artifact := by
  rw [downloadAuditPackage, getReadyArtifact, getPackage, LawfulMonad.bind_assoc,
    LawfulMonad.bind_assoc, reply_look]
  have answer : (stores 0).lookUp (.selectPackage packageId) = (stores 0).byPackageId packageId := rfl
  rw [answer]
  cases found : (stores 0).byPackageId packageId with
  | none => rfl
  | some package =>
      dsimp only
      rw [LawfulMonad.pure_bind]
      by_cases ready : package.status = .ready
      · have archive : (stores 1).lookUp (.getArtifact package.packageId) =
          (stores 1).artifacts package.packageId := rfl
        rw [if_neg (not_not.mpr ready), if_neg (not_not.mpr ready), LawfulMonad.bind_assoc,
          reply_look, archive]
        cases (stores 1).artifacts package.packageId <;> rfl
      · rw [if_pos ready, if_pos ready]
        rfl

omit onward in
include env calls jobs in
-- A download finds no row, a row that is not ready, or the whole archive of a ready one,
-- whatever commits between its two statements; and then the same archive ever after. An
-- instrument id with letters beyond Latin-1 makes a header no response can carry.
theorem downloads_are_settled (reached : (deploy env calls jobs).Reaches (moments 0)) :
    ((moments 0).audit.store.byPackageId packageId = none ∧
      reply (downloadAuditPackage isalnum packageId) (fun turn => (moments turn).audit.store) =
        .error (notFoundError "audit_package" packageId.toText)) ∨
    (∃ row, (moments 0).audit.store.byPackageId packageId = some row ∧ row.status ≠ .ready ∧
      reply (downloadAuditPackage isalnum packageId) (fun turn => (moments turn).audit.store) =
        .error (packageNotReady packageId row.status) ∧
      ∀ now, (requestRetry packageId now (some row)).write.isSome = decide (row.status = .failed)) ∨
    ∃ row artifact, (moments 0).audit.store.byPackageId packageId = some row ∧ row.status = .ready ∧
      (moments 0).audit.store.artifacts packageId = some artifact ∧
      row.artifactSha256 = some artifact.sha256 ∧
      row.artifactSizeBytes = some artifact.sizeBytes ∧ PlainName isalnum (downloadName isalnum row).toList ∧
      (Claims jobs (moments 0).audit.store →
        (LettersInLatin1 isalnum row.instrumentId → ∃ download,
          downloadResponse isalnum row artifact = .ok download ∧
          download.content = artifact.zipContent) ∧
        (¬ LettersInLatin1 isalnum row.instrumentId →
          downloadResponse isalnum row artifact = .error .valueError)) ∧
      ∀ later : Nat → Deployment ι κ, (moments 0).Reaches (later 0) →
        (∀ turn, (later turn).Reaches (later (turn + 1))) →
        reply (downloadAuditPackage isalnum packageId) (fun turn => (later turn).audit.store) =
          downloadResponse isalnum row artifact := by
  have life := (free_deployed env calls jobs _ reached).disciplined.inv.life
  cases found : (moments 0).audit.store.byPackageId packageId with
  | none =>
      refine .inl ⟨rfl, ?_⟩
      rw [download_reply, found]
  | some row =>
      obtain ⟨held, rfl⟩ := by_package_found _ life packageId row found
      by_cases ready : row.status = .ready
      · refine .inr (.inr ?_)
        obtain ⟨artifact, stored⟩ := Option.isSome_iff_exists.mp (life.kept row.id row held ready)
        obtain ⟨id, other, there, named, _, digest, size⟩ := life.stored _ artifact stored
        obtain rfl := life.distinct id row.id other row there held (.inl named)
        obtain rfl : row = other := Option.some.inj (held.symm.trans there)
        refine ⟨row, artifact, rfl, ready, stored, digest, size, download_name_plain isalnum row,
          fun claims => ?_,
          fun later further onwards => ?_⟩
        · obtain ⟨_, other, _, _, _, _, _, _, _, there, _, hashed, _⟩ :=
            ready_archive env calls jobs _ reached claims row.id row held ready
          obtain rfl : artifact = other := Option.some.inj (stored.symm.trans there)
          refine download_sent isalnum row artifact ?_
          rw [hashed]
          exact alphanum_latin1 _ fun character inside => .inl (hex_digits_alphanum _ character inside)
        have forward (turn : Nat) : Forward (moments 0).audit.store (later turn).audit.store :=
          forward_run env calls jobs _ _ reached (further.trans (deployment_moments later onwards turn))
        obtain ⟨same, at_later, evolves⟩ := (forward 0).onward.rows row.id row held
        rw [evolves.ready ready] at at_later
        have lives := (free_deployed env calls jobs _ (reached.trans further)).disciplined.inv.life
        rw [download_reply, by_package_kept _ lives row.id row at_later]
        dsimp only
        rw [if_neg (not_not.mpr ready), (forward 1).artifacts _ artifact stored]
      · refine .inr (.inl ⟨row, rfl, ready, ?_, fun now => ?_⟩)
        · rw [download_reply, found]
          dsimp only
          rw [if_pos ready]
        · rw [requestRetry]
          cases row.status <;> rfl

end

-- The package the exporter of the sample built, downloaded.
theorem sample_download :
    ∃ (now : Deployment Bool Bool) (row : AuditPackage) (artifact : AuditPackageArtifact)
      (download : Download),
    (deploy sampleArchiving sampleCalls sampleExports).Reaches now ∧ row.eventCount = some 1 ∧
      now.audit.store.artifacts row.packageId = some artifact ∧ row.artifactSha256 = some artifact.sha256 ∧
      reply (downloadAuditPackage Char.isAlphanum row.packageId) (fun _ => now.audit.store) = .ok download ∧
      download.content = artifact.zipContent := by
  obtain ⟨now, row, reached, _, held, ready, counted⟩ := sample_exported
  have life := (free_deployed sampleArchiving sampleCalls sampleExports now reached).disciplined.inv.life
  have found := by_package_kept _ life 1 row held
  have claims : Claims sampleExports now.audit.store := by
    intro k claimed keyring call
    cases k <;> cases call
  have ascii : LettersInLatin1 Char.isAlphanum row.instrumentId := fun character _ letter => by
    have sent := alphanum_latin1 [character] (by simpa using .inl letter)
    simpa [latin1] using sent
  rcases downloads_are_settled sampleArchiving sampleCalls sampleExports
    (fun _ => now) Char.isAlphanum row.packageId
    reached with ⟨missing, _⟩ | ⟨other, same, unready, _⟩ | ⟨other, artifact, same, _, stored, digest,
      _, _, sent, settled⟩
  · rw [found] at missing
    cases missing
  · obtain rfl : row = other := Option.some.inj (found.symm.trans same)
    exact absurd ready unready
  · obtain rfl : row = other := Option.some.inj (found.symm.trans same)
    obtain ⟨download, answered, content⟩ := (sent claims).1 ascii
    exact ⟨_, row, artifact, download, reached, counted, stored, digest,
      (settled (fun _ => now) .refl fun _ => .refl).trans answered, content⟩

end CalibrationLedger
