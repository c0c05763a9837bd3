import CalibrationLedger.History

set_option autoImplicit false

-- What a caller asks for, as the fingerprint covers it.
namespace CalibrationLedger

open JsonText Digest Interleaving

structure Submission where
  eventType : EventType
  businessKey : String
  previousEventId : Option Uuid
  instrumentId : Option String
  operatorId : String
  reportDigest : Option String
  reason : Option String
deriving DecidableEq

def Submission.members (submission : Submission) : List (String × Json) :=
  match submission.eventType with
  | .report => [("event_type", string "report"), ("business_key", string submission.businessKey),
      ("instrument_id", optional submission.instrumentId), ("operator_id", string submission.operatorId),
      ("report_digest", optional submission.reportDigest)]
  | .revision => [("event_type", string "revision"), ("business_key", string submission.businessKey),
      ("previous_event_id", optional (submission.previousEventId.map Uuid.toText)),
      ("instrument_id", optional submission.instrumentId), ("operator_id", string submission.operatorId),
      ("report_digest", optional submission.reportDigest)]
  | .revocation => [("event_type", string "revocation"), ("business_key", string submission.businessKey),
      ("previous_event_id", optional (submission.previousEventId.map Uuid.toText)),
      ("operator_id", string submission.operatorId), ("reason", optional submission.reason)]

-- The fields a kind of submission does not have.
def Submission.Shaped (submission : Submission) : Prop :=
  match submission.eventType with
  | .report => submission.previousEventId = none ∧ submission.reason = none
  | .revision => submission.reason = none
  | .revocation => submission.instrumentId = none ∧ submission.reportDigest = none

-- A revocation inherits its instrument and asks for none.
def Event.submitted (row : Event) : Submission where
  eventType := row.eventType
  businessKey := row.businessKey
  previousEventId := row.previousEventId
  instrumentId := if row.eventType = .revocation then none else some row.instrumentId
  operatorId := row.operatorId
  reportDigest := row.reportDigest
  reason := row.reason

def reportSubmission (request : SubmitReport) (reportDigest : String) : Submission where
  eventType := .report
  businessKey := request.businessKey
  previousEventId := none
  instrumentId := some request.instrumentId
  operatorId := request.operatorId
  reportDigest := some reportDigest
  reason := none

def revisionSubmission (previousEventId : Uuid) (request : SubmitRevision) (reportDigest : String) :
    Submission where
  eventType := .revision
  businessKey := request.businessKey
  previousEventId := some previousEventId
  instrumentId := some request.instrumentId
  operatorId := request.operatorId
  reportDigest := some reportDigest
  reason := none

def revocationSubmission (previousEventId : Uuid) (request : SubmitRevocation) : Submission where
  eventType := .revocation
  businessKey := request.businessKey
  previousEventId := some previousEventId
  instrumentId := none
  operatorId := request.operatorId
  reportDigest := none
  reason := some request.reason

-- The submissions of a call, once its reports are canonicalized.
def Call.submissions (rt : Runtime) : Call → Py (List Submission)
  | .report request => do
      let reportDigest ← digestJson rt request.report
      return [reportSubmission request reportDigest]
  | .batch requests => do
      let prepared ← prepareBatch rt 0 requests
      return prepared.map fun item => reportSubmission item.request item.reportDigest
  | .revision previousEventId request => do
      let reportDigest ← digestJson rt request.report
      return [revisionSubmission previousEventId request reportDigest]
  | .revocation previousEventId request => return [revocationSubmission previousEventId request]
  | .sealing _ => return []

theorem cut_rejoined (digits : List Char) :
    digits.take 8 ++ ((digits.drop 8).take 4 ++ ((digits.drop 12).take 4 ++
    ((digits.drop 16).take 4 ++ digits.drop 20))) = digits := by
  have step : ∀ from_ width, (digits.drop from_).take width ++ digits.drop (from_ + width) =
      digits.drop from_ :=
    fun from_ width => by rw [← List.drop_drop, List.take_append_drop]
  rw [step 16 4, step 12 4, step 8 4, List.take_append_drop]

theorem uuid_text_injective (a b : Uuid) (same : a.toText = b.toText) : a = b := by
  have lengths : ∀ id : Uuid, (hexDigits id.bytes).length = 32 := fun id => by rw [hex_length, id.size]
  have lists := congrArg String.toList same
  simp only [Uuid.toText, String.toList_ofList] at lists
  have left := lengths a
  have right := lengths b
  generalize shapeA : hexDigits a.bytes = digits at lists left
  generalize shapeB : hexDigits b.bytes = others at lists right
  obtain ⟨lists, fifth⟩ := List.append_inj' lists (by simp [left, right])
  obtain ⟨lists, fourth⟩ := List.append_inj' lists (by simp [left, right])
  obtain ⟨lists, third⟩ := List.append_inj' lists (by simp [left, right])
  obtain ⟨first, second⟩ := List.append_inj' lists (by simp [left, right])
  have whole : digits = others := by
    rw [← cut_rejoined digits, ← cut_rejoined others, first, (List.cons.inj second).2,
      (List.cons.inj third).2,
      (List.cons.inj fourth).2, (List.cons.inj fifth).2]
  have bytes : a.bytes = b.bytes :=
    hex_injective _ _ (congrArg String.ofList (shapeA.trans (whole.trans shapeB.symm)))
  cases a
  cases b
  cases bytes
  rfl

theorem string_injective (a b : String) (same : string a = string b) : a = b :=
  text_injective a b (by simpa [string] using same)

theorem optional_injective (a b : Option String) (same : optional a = optional b) : a = b := by
  cases a <;> cases b <;> simp [optional, string] at same ⊢
  exact text_injective _ _ same

theorem parent_injective (a b : Option Uuid)
    (same : optional (a.map Uuid.toText) = optional (b.map Uuid.toText)) :
    a = b := by
  have texts := optional_injective _ _ same
  cases a <;> cases b <;> simp at texts ⊢
  exact uuid_text_injective _ _ texts

theorem members_kind (submission : Submission) (value : Json) :
    ("event_type", value) ∈ submission.members ↔ value = string submission.eventType.name := by
  unfold Submission.members
  split <;> rename_i kind <;> simp [kind, EventType.name]

theorem members_key (submission : Submission) (value : Json) :
    ("business_key", value) ∈ submission.members ↔ value = string submission.businessKey := by
  unfold Submission.members
  split <;> simp

theorem members_operator (submission : Submission) (value : Json) :
    ("operator_id", value) ∈ submission.members ↔ value = string submission.operatorId := by
  unfold Submission.members
  split <;> simp

theorem members_instrument (submission : Submission) (value : Json)
    (kind : submission.eventType ≠ .revocation) :
    ("instrument_id", value) ∈ submission.members ↔ value = optional submission.instrumentId := by
  unfold Submission.members
  split <;> simp_all

theorem members_digest (submission : Submission) (value : Json) (kind : submission.eventType ≠ .revocation) :
    ("report_digest", value) ∈ submission.members ↔ value = optional submission.reportDigest := by
  unfold Submission.members
  split <;> simp_all

theorem members_parent (submission : Submission) (value : Json) (kind : submission.eventType ≠ .report) :
    ("previous_event_id", value) ∈ submission.members ↔
    value = optional (submission.previousEventId.map Uuid.toText) := by
  unfold Submission.members
  split <;> simp_all

theorem members_reason (submission : Submission) (value : Json) (kind : submission.eventType = .revocation) :
    ("reason", value) ∈ submission.members ↔ value = optional submission.reason := by
  unfold Submission.members
  split <;> simp_all

theorem members_injective (a b : Submission) (left : a.Shaped) (right : b.Shaped)
    (same : ∀ entry, entry ∈ a.members ↔ entry ∈ b.members) : a = b := by
  have kinds : a.eventType = b.eventType := by
    have names := string_injective _ _ ((members_kind b _).mp ((same _).mp ((members_kind a _).mpr rfl)))
    revert names
    cases a.eventType <;> cases b.eventType <;> simp [EventType.name]
  have keys := string_injective _ _ ((members_key b _).mp ((same _).mp ((members_key a _).mpr rfl)))
  have operators :=
    string_injective _ _ ((members_operator b _).mp ((same _).mp ((members_operator a _).mpr rfl)))
  have parents : a.eventType ≠ .report → a.previousEventId = b.previousEventId := fun kind =>
    parent_injective _ _ ((members_parent b _ (kinds ▸ kind)).mp
        ((same _).mp ((members_parent a _ kind).mpr rfl)))
  have instruments : a.eventType ≠ .revocation → a.instrumentId = b.instrumentId := fun kind =>
    optional_injective _ _ ((members_instrument b _ (kinds ▸ kind)).mp
        ((same _).mp ((members_instrument a _ kind).mpr rfl)))
  have digests : a.eventType ≠ .revocation → a.reportDigest = b.reportDigest := fun kind =>
    optional_injective _ _ ((members_digest b _ (kinds ▸ kind)).mp
        ((same _).mp ((members_digest a _ kind).mpr rfl)))
  have reasons : a.eventType = .revocation → a.reason = b.reason := fun kind =>
    optional_injective _ _ ((members_reason b _ (kinds ▸ kind)).mp
        ((same _).mp ((members_reason a _ kind).mpr rfl)))
  obtain ⟨kind, businessKey, previousEventId, instrumentId, operatorId, reportDigest, reason⟩ := a
  obtain ⟨otherKind, otherKey, otherPrevious, otherInstrument, otherOperator, otherDigest, otherReason⟩ := b
  cases kind <;> cases kinds <;> simp_all [Submission.Shaped]

section

variable (rt : Runtime)

def fingerprintInput (submission : Submission) : Bytes := bytesOf rt (.obj (dict submission.members))

theorem members_plain (submission : Submission) : ∀ entry ∈ submission.members, plain entry.2 = true := by
  unfold Submission.members
  split <;> simp [string, optional_plain]

theorem members_encodable (submission : Submission) : ∀ entry ∈ submission.members, encodable entry.2 := by
  unfold Submission.members
  split <;> simp [string, optional_encodable, encodable, text_scalars]

theorem sort_keys_fixed (value : Json) (simple : plain value = true) : sortKeys value = value := by
  cases value with
  | arr _ => cases simple
  | obj _ => cases simple
  | _ => rfl

theorem sorted_dict_members (members : List (String × Json))
    (simple : ∀ entry ∈ members, plain entry.2 = true) :
    sortMembers (dict members) = dict members := by
  rw [sort_members_map]
  refine (List.map_congr_left fun entry member => ?_).trans (List.map_id _)
  obtain ⟨source, inside, rfl⟩ := List.mem_map.mp member
  rw [sort_keys_fixed _ (simple source inside)]
  rfl

theorem fingerprint_input_injective (a b : Submission) (left : a.Shaped) (right : b.Shaped)
    (same : fingerprintInput rt a = fingerprintInput rt b) : a = b := by
  have writtenA := bytes_of_encodable rt _ (dict_encodable a.members (members_encodable a))
  have writtenB := bytes_of_encodable rt _ (dict_encodable b.members (members_encodable b))
  rw [show bytesOf rt (.obj (dict a.members)) = bytesOf rt (.obj (dict b.members)) from same] at writtenA
  have sorted := canonical_json_injective rt _ _ _ writtenA writtenB
  simp only [sortKeys, Value.obj.injEq, sorted_dict_members _ (members_plain _)] at sorted
  have perm := (List.perm_insertionSort before _).symm.trans
    ((List.Perm.of_eq sorted).trans (List.perm_insertionSort before _))
  have inside : ∀ (key : String) (value : Json) (members : List (String × Json)),
      (text key, value) ∈ dict members ↔ (key, value) ∈ members := by
    intro key value members
    constructor
    · intro member
      obtain ⟨⟨name, held⟩, found, shape⟩ := List.mem_map.mp member
      obtain ⟨names, rfl⟩ := Prod.mk.inj shape
      rw [← text_injective name key names]
      exact found
    · exact fun member => List.mem_map_of_mem member
  refine members_injective a b left right fun entry => ?_
  rw [← inside entry.1 entry.2 a.members, ← inside entry.1 entry.2 b.members]
  exact perm.mem_iff

theorem submission_members (row : Event) : row.submission = row.submitted.members := by
  unfold Event.submission Submission.members Event.submitted
  cases row.eventType <;> rfl

theorem row_shaped (rows : List Event) (row : Event) (formed : WellFormed rt row)
    (lineage : Lineage rows row) :
    row.submitted.Shaped := by
  have payload := formed.payload
  unfold Event.payloadShape at payload
  unfold Lineage at lineage
  cases kind : row.eventType <;> rw [kind] at payload lineage <;>
    simp_all [Submission.Shaped, Event.submitted]

theorem row_fingerprint (row : Event) (formed : WellFormed rt row) :
    row.contentFingerprint = sha256Hex rt (fingerprintInput rt row.submitted) := by
  rw [formed.fingerprint, submission_members]
  rfl

theorem fingerprint_of_members (submission : Submission) (found : String)
    (made : fingerprint rt submission.members = .ok found) :
    found = sha256Hex rt (fingerprintInput rt submission) :=
  fingerprint_value rt _ (members_encodable submission) found made

theorem fingerprint_made (submission : Submission) :
    ∃ found, fingerprint rt submission.members = .ok found := by
  rw [fingerprint, bytes_of_encodable rt _ (dict_encodable submission.members (members_encodable submission))]
  exact ⟨_, rfl⟩

theorem different_fingerprints (a b : Submission) (left : a.Shaped) (right : b.Shaped)
    (free : CollisionFree rt.toHashFunction [fingerprintInput rt a, fingerprintInput rt b])
    (different : a ≠ b) :
    sha256Hex rt (fingerprintInput rt a) ≠ sha256Hex rt (fingerprintInput rt b) := fun same =>
  different (fingerprint_input_injective rt a b left right
    (free _ (by simp) _ (by simp) (hex_injective _ _ same)))

theorem call_shaped (call : Call) (submissions : List Submission)
    (asked : call.submissions rt = .ok submissions) (submission : Submission)
    (member : submission ∈ submissions) : submission.Shaped := by
  cases call with
  | sealing sealer =>
      cases asked
      cases member
  | report request =>
      obtain ⟨reportDigest, _, shape⟩ := (bind_ok _ _ _).mp asked
      cases shape
      rw [List.mem_singleton.mp member]
      exact ⟨rfl, rfl⟩
  | batch requests =>
      obtain ⟨prepared, _, shape⟩ := (bind_ok _ _ _).mp asked
      cases shape
      obtain ⟨item, _, rfl⟩ := List.mem_map.mp member
      exact ⟨rfl, rfl⟩
  | revision previousEventId request =>
      obtain ⟨reportDigest, _, shape⟩ := (bind_ok _ _ _).mp asked
      cases shape
      rw [List.mem_singleton.mp member]
      rfl
  | revocation previousEventId request =>
      cases asked
      rw [List.mem_singleton.mp member]
      exact ⟨rfl, rfl⟩

theorem prepared_fingerprint (item : PreparedReport) (prepared : Prepared rt item) :
    item.fingerprint = sha256Hex rt (fingerprintInput rt (reportSubmission item.request item.reportDigest)) :=
  (prepared ⟨List.replicate 16 0, rfl⟩ ⟨0, by decide⟩).2

theorem row_differs (signing : Text → Bytes → Prop) {ι : Type} (store : Store ι)
    (sound : Sound rt signing store) (row : Event) (member : row ∈ store.events.rows)
    (submission : Submission) (shaped : submission.Shaped) (different : submission ≠ row.submitted)
    (free : CollisionFree rt.toHashFunction
      [fingerprintInput rt submission, fingerprintInput rt row.submitted]) :
    row.contentFingerprint ≠ sha256Hex rt (fingerprintInput rt submission) := by
  obtain ⟨formed, lineage⟩ := sound.rows row (.inl member)
  rw [row_fingerprint rt row formed]
  exact (different_fingerprints rt submission row.submitted shaped
      (row_shaped rt _ row formed lineage) free different).symm

end

end CalibrationLedger
