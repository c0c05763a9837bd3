import CalibrationLedger.Answers
import CalibrationLedger.Soundness

set_option autoImplicit false

-- Which exceptions leave the verifier, and on what receipts.
namespace CalibrationLedger

open JsonText Digest HashTree

-- InvalidProofError and KeyConfigurationError, of whose messages and details more can be asked.
def Structured (tells : Text → List (String × Json) → Prop) : PyError → Prop
  | .keyConfiguration message => tells message []
  | .ledger error => error.code = "INVALID_PROOF" ∧ tells error.message error.details
  | _ => False

-- What the verifier's except clauses answer with one of those.
def Handled (tells : Text → List (String × Json) → Prop) : PyError → Prop
  | .keyError => True
  | .typeError => True
  | .valueError => True
  | error => Structured tells error

def RaisesOnly {α : Type} (allowed : PyError → Prop) (outcome : Py α) : Prop :=
  ∀ error, outcome = .error error → allowed error

section

variable {α β : Type} (allowed : PyError → Prop)

@[simp]
theorem raises_only_ok (value : α) : RaisesOnly allowed (.ok value) := fun _ raised => by cases raised

@[simp]
theorem raises_only_pure (value : α) : RaisesOnly allowed (pure value) := raises_only_ok allowed value

@[simp]
theorem raises_only_error (error : PyError) : RaisesOnly allowed (.error error : Py α) ↔ allowed error := by
  constructor
  · exact fun only => only error rfl
  · intro fine other raised
    cases raised
    exact fine

@[simp]
theorem raises_only_throw (error : PyError) : RaisesOnly allowed (throw error : Py α) ↔ allowed error :=
  raises_only_error allowed error

theorem raises_only_bind (first : Py α) (next : α → Py β) : RaisesOnly allowed (first >>= next) ↔
    RaisesOnly allowed first ∧ ∀ value, first = .ok value → RaisesOnly allowed (next value) := by
  cases first with
  | error error =>
      have stops : (Except.error error >>= next : Py β) = .error error := rfl
      rw [stops, raises_only_error, raises_only_error]
      simp
  | ok value =>
      have goes : (Except.ok value >>= next : Py β) = next value := rfl
      rw [goes]
      simp

@[simp]
theorem raises_only_map (change : α → β) (outcome : Py α) :
    RaisesOnly allowed (change <$> outcome) ↔ RaisesOnly allowed outcome := by
  rw [map_eq_pure_bind, raises_only_bind]
  simp

end

-- The messages and details the verifier writes itself.
structure OwnWords (tells : Text → List (String × Json) → Prop) : Prop where
  bare : ∀ reason : String, tells (text reason) []
  quoting : ∀ (reason key : String) (content : Text), Scalars content →
    tells (text reason) [(key, .str content)]

section

variable {tells : Text → List (String × Json) → Prop}

theorem structured_handled (error : PyError) (structured : Structured tells error) : Handled tells error := by
  cases error <;> first | exact structured | trivial

theorem raises_only_translating {α : Type} (allowed : PyError → Prop) (reason : String) (outcome : Py α)
    (own : OwnWords tells) (wide : ∀ error, Structured tells error → allowed error)
    (handled : ∀ error, allowed error → Handled tells error) :
    RaisesOnly allowed (translating reason outcome) ↔ RaisesOnly (Handled tells) outcome := by
  have translated : allowed (invalidProof reason []) := wide _ ⟨rfl, own.bare reason⟩
  cases outcome with
  | ok value => simp [translating]
  | error error =>
      cases error <;> simp only [translating, raises_only_error, Handled, translated]
      all_goals exact ⟨handled _, wide _⟩

end

-- Tries the code makes of a receipt's values.
section

variable (rt : Runtime) {tells : Text → List (String × Json) → Prop}

@[simp]
theorem subscript_handled (key : String) (data : Json) : RaisesOnly (Handled tells) (subscript key data) := by
  cases data with
  | obj members =>
      rw [subscript]
      split <;> simp [Handled]
  | _ => simp [subscript, Handled]

theorem decode_hash_handled (own : OwnWords tells) (value : Json) (field : String) :
    RaisesOnly (Handled tells) (decodeHash value field) := by
  have refused : ∀ reason, Handled tells (invalidProof reason [("field", string field)]) := fun reason =>
    ⟨rfl, own.quoting reason "field" (text field) (text_scalars field)⟩
  unfold decodeHash
  repeat' split
  all_goals simp [refused]

@[simp]
theorem iterate_handled (value : Json) : RaisesOnly (Handled tells) (iterate value) := by
  cases value <;> simp [iterate, Handled]

@[simp]
theorem signature_handled (payload key : Bytes) (signature : Text) :
    RaisesOnly (Handled tells) (verifyCheckpointSignature rt.toHashFunction payload signature key) := by
  rw [verifyCheckpointSignature]
  split <;> simp [Handled]

theorem encode_utf8_handled (content : Text) : RaisesOnly (Handled tells) (encodeUtf8 content) := by
  induction content with
  | nil => simp [encodeUtf8]
  | cons point rest ih =>
      cases point with
      | scalar char =>
          rw [encodeUtf8]
          exact (raises_only_map (Handled tells) _ _).mpr ih
      | surrogate unit => simp [encodeUtf8, Handled]

theorem canonical_json_handled (value : Json) : RaisesOnly (Handled tells) (canonicalJson rt value) := by
  by_cases finite : nonFinite value = true
  · simp [canonicalJson, dumps, finite, Handled]
  · simpa [canonicalJson, dumps, finite] using encode_utf8_handled _

@[simp]
theorem str_of_handled (value : Json) :
    RaisesOnly (Handled tells) (strOf rt value) ↔ rt.strExhausts value = false := by
  rw [strOf]
  cases rt.strExhausts value <;> simp [Handled, Structured]

theorem str_of_ok (value : Json) (content : Text) :
    strOf rt value = .ok content ↔ rt.strExhausts value = false ∧ content = pyStr rt value := by
  rw [strOf]
  cases rt.strExhausts value <;> simp [eq_comm]

theorem read_steps_handled (own : OwnWords tells) (index : Nat) (path : List Json) :
    RaisesOnly (Handled tells) (readSteps index path) := by
  induction path generalizing index with
  | nil => simp [readSteps]
  | cons item rest ih => simp [readSteps, raises_only_bind, decode_hash_handled own, ih]

theorem read_sides_handled (own : OwnWords tells) (steps : List (Json × Bytes)) :
    RaisesOnly (Handled tells) (readSides steps) := by
  have refused : Handled tells (invalidProof "inclusion proof contains an invalid side" []) :=
    ⟨rfl, own.bare _⟩
  have sides : ∀ side, RaisesOnly (Handled tells) (readSide side) := by
    intro side
    unfold readSide
    repeat' split
    all_goals simp [refused]
    all_goals trivial
  induction steps with
  | nil => simp [readSides]
  | cons step rest ih => simp [readSides, raises_only_bind, sides, ih]

theorem read_hashes_handled (own : OwnWords tells) (index : Nat) (items : List Json) :
    RaisesOnly (Handled tells) (readHashes index items) := by
  induction items generalizing index with
  | nil => simp [readHashes]
  | cons item rest ih => simp [readHashes, raises_only_bind, decode_hash_handled own, ih]

theorem ensure_raises (allowed : PyError → Prop) (own : OwnWords tells)
    (wide : ∀ error, Structured tells error → allowed error) (condition : Bool) (reason : String) :
    RaisesOnly allowed (ensure condition reason) := by
  rw [ensure]
  split
  · simp
  · exact (raises_only_error allowed _).mpr (wide _ ⟨rfl, own.bare reason⟩)

end

-- A number of a receipt that int() takes or refuses with a ValueError or TypeError.
def Countable (value : Json) : Prop := ∀ sign, value ≠ .float (.infinity sign)

-- Within the range of datetime in UTC.
def DateTime.InRange (moment : DateTime) : Prop := ∀ offset, moment.offset = some offset →
  0 ≤ (moment.wall.micros : Int) - offset ∧ (moment.wall.micros : Int) - offset < endOfTime

-- A time of a receipt: a text, and in range if it is a date at all.
def Dated (rt : Runtime) (value : Json) : Prop :=
  ∃ content, value = .str content ∧
    ∀ moment, rt.fromisoformat (replace "Z" "+00:00" content) = some moment → moment.InRange

-- What is made of an object's members comes to text within the stack's reach: str() of these
-- members, then canonical_json of the whole.
def Shallow (rt : Runtime) (data : Dict) (keys : List String) (made : Py Dict) : Prop :=
  ∀ members, made = .ok members →
    (∀ key ∈ keys, rt.strExhausts (getItem key data) = false) ∧
      rt.dumpsExhausts false true (.obj members) = false

section

variable (rt : Runtime) {tells : Text → List (String × Json) → Prop}

theorem int_handled (value : Json) : RaisesOnly (Handled tells) (pyInt rt value) ↔ Countable value := by
  cases value with
  | str content =>
      rw [pyInt]
      split <;> simp [Countable, Handled]
  | float number => cases number <;> simp [pyInt, Countable, Handled, Structured]
  | _ => simp [pyInt, Countable, Handled]

theorem to_utc_handled (moment : DateTime) : RaisesOnly (Handled tells) moment.toUtc ↔ moment.InRange := by
  obtain ⟨wall, offset⟩ := moment
  cases offset with
  | none => simp [DateTime.toUtc, DateTime.InRange]
  | some offset =>
      rw [DateTime.toUtc]
      dsimp only
      by_cases bound : 0 ≤ (wall.micros : Int) - offset ∧ (wall.micros : Int) - offset < endOfTime
      · rw [dif_pos bound]
        simpa [DateTime.InRange] using bound
      · rw [dif_neg bound]
        simpa [DateTime.InRange, Handled, Structured] using bound

theorem time_handled (value : Json) :
    RaisesOnly (Handled tells) (timestampText rt (.json value)) ↔ Dated rt value := by
  cases value with
  | str content =>
      rw [timestampText]
      cases parsed : rt.fromisoformat (replace "Z" "+00:00" content) with
      | none => simp [Dated, parsed, Handled]
      | some moment => simp [Dated, parsed, isoformatUtc, to_utc_handled]
  | _ => simp [timestampText, Dated, Handled, Structured]

theorem written_handled (data : Dict) (keys : List String) (made : Py Dict) : RaisesOnly (Handled tells) (do
      let members ← made
      named rt data keys
      dumped rt (.obj members)) ↔ RaisesOnly (Handled tells) made ∧ Shallow rt data keys made := by
  have names : RaisesOnly (Handled tells) (named rt data keys) ↔
      ∀ key ∈ keys, rt.strExhausts (getItem key data) = false := by
    rw [named]
    split
    · rename_i exhausts
      obtain ⟨key, listed, deep⟩ := List.any_eq_true.mp exhausts
      refine iff_of_false (by simp [Handled, Structured]) fun shallow => ?_
      rw [shallow key listed] at deep
      cases deep
    · rename_i shallow
      exact iff_of_true (by simp) (by simpa using shallow)
  have whole : ∀ members, RaisesOnly (Handled tells) (dumped rt (.obj members)) ↔
      rt.dumpsExhausts false true (.obj members) = false := by
    intro members
    rw [dumped]
    cases rt.dumpsExhausts false true (.obj members)
    · simp [canonical_json_handled]
    · simp [Handled, Structured]
  simp only [raises_only_bind, names, whole, Shallow]
  refine and_congr_right fun _ => forall_congr' fun members => imp_congr_right fun _ =>
    and_congr_right fun shallow => ?_
  have passes : named rt data keys = .ok () := by
    rw [named, if_neg]
    simpa using shallow
  simp [passes]

def EventShallow (event : Json) : Prop :=
  Shallow rt (dictOf event) ["event_id", "record_id", "previous_event_id"]
    (eventCommitment rt (jsonFields "occurred_at" (dictOf event)))

theorem event_bytes_handled (event : Json) : RaisesOnly (Handled tells) (parsedEventBytes rt (dictOf event)) ↔
    Dated rt (getItem "occurred_at" (dictOf event)) ∧ EventShallow rt event := by
  have made : RaisesOnly (Handled tells) (eventCommitment rt (jsonFields "occurred_at" (dictOf event))) ↔
      Dated rt (getItem "occurred_at" (dictOf event)) := by
    simp [eventCommitment, jsonFields, time_handled]
  rw [parsedEventBytes, written_handled, made, EventShallow]

theorem signing_bytes_handled (checkpoint : Json) :
    RaisesOnly (Handled tells) (parsedCheckpointBytes rt (dictOf checkpoint)) ↔
    Dated rt (getItem "created_at" (dictOf checkpoint)) ∧
    Shallow rt (dictOf checkpoint) ["checkpoint_id", "previous_checkpoint_id"]
      (checkpointPayload rt (jsonFields "created_at" (dictOf checkpoint))) := by
  have made : RaisesOnly (Handled tells)
    (checkpointPayload rt (jsonFields "created_at" (dictOf checkpoint))) ↔
      Dated rt (getItem "created_at" (dictOf checkpoint)) := by
    simp [checkpointPayload, jsonFields, time_handled]
  rw [parsedCheckpointBytes, written_handled, made]

-- An object with a signature and a key version.
structure Versioned (data version signature : Json) : Prop where
  versioned : subscript "key_version" data = .ok version
  signed : subscript "signature" data = .ok signature

-- A checkpoint object with a signature and a version the keyring knows.
def Keyed (keyring : Keyring) (data : Json) : Prop :=
  ∃ version signature key, Versioned data version signature ∧
    requireKey keyring (pyStr rt version) = .ok key

def unknownVersion (version : Text) : Text := text "unknown HMAC key version: " ++ version

-- An unknown key version can be told, and a checkpoint of a known one has a time.
structure Signable (tells : Text → List (String × Json) → Prop) (keyring : Keyring) (data : Json) : Prop where
  told : ∀ version signature, Versioned data version signature → keyring.lookup (pyStr rt version) = none →
    tells (unknownVersion (pyStr rt version)) []
  created : Keyed rt keyring data → Dated rt (getItem "created_at" (dictOf data))

structure CheckpointShallow (keyring : Keyring) (data : Json) : Prop where
  version : ∀ version, subscript "key_version" data = .ok version → rt.strExhausts version = false
  signature : ∀ version signature, Versioned data version signature → rt.strExhausts signature = false
  payload : Keyed rt keyring data → Shallow rt (dictOf data) ["checkpoint_id", "previous_checkpoint_id"]
    (checkpointPayload rt (jsonFields "created_at" (dictOf data)))

theorem require_key_handled (keyring : Keyring) (version : Text) :
    RaisesOnly (Handled tells) (requireKey keyring version) ↔
    (keyring.lookup version = none → tells (unknownVersion version) []) := by
  rw [requireKey]
  cases keyring.lookup version <;> simp [Handled, Structured, unknownVersion]

theorem signing_bytes_encodable (data : Json) (payload : Bytes)
    (written : checkpointSigningBytes rt (jsonFields "created_at" (dictOf data)) = .ok payload) :
    ∃ created, ∀ entry ∈ payloadMembers rt (jsonFields "created_at" (dictOf data)) created,
    encodable entry.2 := by
  obtain ⟨members, shaped, encoded⟩ := (bind_ok _ _ _).mp written
  obtain ⟨created, _, whole⟩ := (bind_ok _ _ _).mp shaped
  cases whole
  exact ⟨created, (dict_encodable_iff _).mp (canonical_json_encodable rt _ payload encoded)⟩

theorem signed_name_scalars (data : Json) (payload : Bytes)
    (written : checkpointSigningBytes rt (jsonFields "created_at" (dictOf data)) = .ok payload) :
    Scalars (pyStr rt (getItem "checkpoint_id" (dictOf data))) := by
  obtain ⟨created, accepted⟩ := signing_bytes_encodable rt data payload written
  exact accepted ("checkpoint_id", .str (pyStr rt (getItem "checkpoint_id" (dictOf data))))
    (by simp [payloadMembers, jsonFields])

theorem checkpoint_name_text (data : Json) (payload : Bytes)
    (written : checkpointSigningBytes rt (jsonFields "created_at" (dictOf data)) = .ok payload) :
    ∃ name, checkpointName rt (dictOf data) = .str name ∧ Scalars name := by
  have scalars := signed_name_scalars rt data payload written
  rw [checkpointName]
  rw [getItem] at scalars
  cases found : member (text "checkpoint_id") (dictOf data) with
  | none => exact ⟨text "unknown", rfl, text_scalars "unknown"⟩
  | some value =>
      rw [found] at scalars
      exact ⟨pyStr rt value, rfl, scalars⟩

theorem signed_handled (own : OwnWords tells) (data : Json) (keyring : Keyring) :
    RaisesOnly (Handled tells) (verifySignedCheckpoint rt data keyring) ↔
      Signable rt tells keyring data ∧ CheckpointShallow rt keyring data := by
  have fields : RaisesOnly (Handled tells) (signedCheckpointFields rt data keyring) ↔
      Signable rt tells keyring data ∧ CheckpointShallow rt keyring data := by
    simp only [signedCheckpointFields, raises_only_bind, subscript_handled, str_of_handled, str_of_ok,
      require_key_handled,
      signing_bytes_handled, raises_only_pure, implies_true, true_and, and_true]
    constructor
    · intro raises
      refine ⟨⟨fun version signature held unknown => ?_, ?_⟩,
        ⟨fun version versioned => (raises version versioned).1, ?_, ?_⟩⟩
      · obtain ⟨spoken, later⟩ := raises version held.versioned
        obtain ⟨written, last⟩ := later _ ⟨spoken, rfl⟩ signature held.signed
        exact (last _ ⟨written, rfl⟩).1 unknown
      · rintro ⟨version, signature, key, held, known⟩
        obtain ⟨spoken, later⟩ := raises version held.versioned
        obtain ⟨written, last⟩ := later _ ⟨spoken, rfl⟩ signature held.signed
        exact ((last _ ⟨written, rfl⟩).2 key known).1
      · intro version signature held
        obtain ⟨spoken, later⟩ := raises version held.versioned
        exact (later _ ⟨spoken, rfl⟩ signature held.signed).1
      · rintro ⟨version, signature, key, held, known⟩
        obtain ⟨spoken, later⟩ := raises version held.versioned
        obtain ⟨written, last⟩ := later _ ⟨spoken, rfl⟩ signature held.signed
        exact ((last _ ⟨written, rfl⟩).2 key known).2
    · rintro ⟨signable, shallow⟩ version versioned
      refine ⟨shallow.version version versioned, ?_⟩
      rintro _ ⟨_, rfl⟩ signature signed
      have held : Versioned data version signature := ⟨versioned, signed⟩
      refine ⟨shallow.signature version signature held, ?_⟩
      rintro _ ⟨_, rfl⟩
      refine ⟨signable.told version signature held, fun key known => ?_⟩
      have keyed : Keyed rt keyring data := ⟨version, signature, key, held, known⟩
      exact ⟨signable.created keyed, shallow.payload keyed⟩
  rw [verifySignedCheckpoint, raises_only_bind,
    raises_only_translating (Handled tells) _ _ own structured_handled (fun _ => id), fields]
  refine and_iff_left_of_imp fun _ outcome read => ?_
  obtain ⟨signature, key, payload⟩ := outcome
  dsimp only
  rw [raises_only_bind]
  refine ⟨signature_handled rt payload key signature, fun genuine _ => ?_⟩
  cases genuine with
  | true => simp
  | false =>
      obtain ⟨written, made, _⟩ := signed_fields_written rt data keyring _ (translating_ok _ _ _ read)
      obtain ⟨name, shown, scalars⟩ := checkpoint_name_text rt data written made
      simp only [Bool.false_eq_true, if_false, raises_only_throw, shown]
      exact ⟨rfl, own.quoting _ _ name scalars⟩

def hashAt (key : String) (data : Json) (field : String) : Py Bytes :=
  do decodeHash (← subscript key data) field

def countAt (key : String) (data : Json) : Py Int := do pyInt rt (← subscript key data)

def nameAt (key : String) (data : Json) : Py Text := do return pyStr rt (← subscript key data)

def textAt (key : String) (data : Json) : Py Text := do strOf rt (← subscript key data)

def stepsAt (proof : Json) : Py (List InclusionStep) := do
  let path ← iterate (← subscript "path" proof)
  readSides (← readSteps 0 path)

def hashesAt (consistency : Json) : Py (List Bytes) := do
  let items ← iterate (← subscript "hashes" consistency)
  readHashes 0 items

-- An event with a leaf hash, and a status beside it.
structure EventRead (receipt : Dict) (event status : Json) (leaf : Bytes) : Prop where
  found : subscript "event" (.obj receipt) = .ok event
  stated : subscript "witness_status" (.obj receipt) = .ok status
  hashed : hashAt "leaf_hash" event "event.leaf_hash" = .ok leaf

-- The leaf hash is that of the event.
def Genuine (receipt : Dict) (status : Json) (leaf : Bytes) : Prop :=
  ∃ event data, EventRead receipt event status leaf ∧
    parsedEventBytes rt (dictOf event) = .ok data ∧ leaf = leafHash rt.toHashFunction data

theorem hash_at_handled (own : OwnWords tells) (key : String) (data : Json) (field : String) :
    RaisesOnly (Handled tells) (hashAt key data field) := by
  simp [hashAt, raises_only_bind, decode_hash_handled own]

theorem count_at_handled (key : String) (data : Json) :
    RaisesOnly (Handled tells) (countAt rt key data) ↔ ∀ value, subscript key data = .ok value →
    Countable value := by
  simp [countAt, raises_only_bind, int_handled]

@[simp]
theorem name_at_handled (key : String) (data : Json) : RaisesOnly (Handled tells) (nameAt rt key data) := by
  simp [nameAt]

theorem text_at_handled (key : String) (data : Json) :
    RaisesOnly (Handled tells) (textAt rt key data) ↔ ∀ value, subscript key data = .ok value →
    rt.strExhausts value = false := by
  simp [textAt, raises_only_bind]

theorem text_at_ok (key : String) (data : Json) (name : Text)
    (shallow : ∀ value, subscript key data = .ok value → rt.strExhausts value = false) :
    textAt rt key data = .ok name ↔ nameAt rt key data = .ok name := by
  simp only [textAt, nameAt, bind_ok, str_of_ok]
  refine exists_congr fun value => and_congr_right fun found => ?_
  simp [shallow value found, pure, Except.pure, eq_comm]

theorem steps_at_handled (own : OwnWords tells) (proof : Json) :
    RaisesOnly (Handled tells) (stepsAt proof) := by
  simp [stepsAt, raises_only_bind, read_steps_handled own, read_sides_handled own]

theorem hashes_at_handled (own : OwnWords tells) (consistency : Json) :
    RaisesOnly (Handled tells) (hashesAt consistency) := by
  simp [hashesAt, raises_only_bind, read_hashes_handled own]

theorem read_event_steps (receipt : Dict) : readEvent rt receipt = (do
    let event ← subscript "event" (.obj receipt)
    let status ← subscript "witness_status" (.obj receipt)
    let claimed ← hashAt "leaf_hash" event "event.leaf_hash"
    let data ← parsedEventBytes rt (dictOf event)
    return ⟨status, claimed, leafHash rt.toHashFunction data⟩) := by
  simp only [readEvent, hashAt, bind_assoc]

theorem read_event_handled (own : OwnWords tells) (receipt : Dict) :
    RaisesOnly (Handled tells) (readEvent rt receipt) ↔
    ∀ event status leaf, EventRead receipt event status leaf →
      Dated rt (getItem "occurred_at" (dictOf event)) ∧ EventShallow rt event := by
  have hashes := fun key data field => hash_at_handled own key data field
  simp only [read_event_steps, raises_only_bind, subscript_handled, hashes, event_bytes_handled,
    raises_only_pure,
    implies_true, true_and, and_true]
  constructor
  · intro raises event status leaf read
    exact raises event read.found status read.stated leaf read.hashed
  · intro dated event found status stated leaf hashed
    exact dated event status leaf ⟨found, stated, hashed⟩

theorem read_event_genuine (receipt : Dict) (status : Json) (leaf : Bytes) :
    readEvent rt receipt = .ok ⟨status, leaf, leaf⟩ ↔ Genuine rt receipt status leaf := by
  simp only [read_event_steps, bind_ok]
  constructor
  · rintro ⟨event, found, stated, present, claimed, hashed, data, written, whole⟩
    cases whole
    exact ⟨event, data, ⟨found, present, hashed⟩, written, rfl⟩
  · rintro ⟨event, data, ⟨found, stated, hashed⟩, written, rfl⟩
    exact ⟨event, found, status, stated, _, hashed, data, written, rfl⟩

theorem signed_written (data : Json) (keyring : Keyring)
    (signed : verifySignedCheckpoint rt data keyring = .ok ()) :
    ∃ payload, checkpointSigningBytes rt (jsonFields "created_at" (dictOf data)) = .ok payload := by
  obtain ⟨fields, read, _⟩ := (bind_ok _ _ _).mp signed
  obtain ⟨payload, written, _⟩ := signed_fields_written rt data keyring fields (translating_ok _ _ _ read)
  exact ⟨payload, written⟩

theorem signed_countable (data : Json) (keyring : Keyring)
    (signed : verifySignedCheckpoint rt data keyring = .ok ()) (value : Json)
    (found : subscript "leaf_count" data = .ok value) : Countable value := by
  obtain ⟨payload, written⟩ := signed_written rt data keyring signed
  obtain ⟨created, accepted⟩ := signing_bytes_encodable rt data payload written
  have item : getItem "leaf_count" (dictOf data) = value := subscript_item _ _ _ found
  have count := accepted ("leaf_count", getItem "leaf_count" (dictOf data))
    (by simp [payloadMembers, jsonFields])
  rintro sign rfl
  rw [item] at count
  exact count

structure Shown (receipt : Dict) (checkpoint proof : Json) : Prop where
  found : subscript "checkpoint" (.obj receipt) = .ok checkpoint
  proven : subscript "inclusion_proof" (.obj receipt) = .ok proof

-- The checkpoint's signature is right, and its root and the path are readable.
structure Walked (receipt : Dict) (keyring : Keyring) (checkpoint proof : Json) (root : Bytes)
    (steps : List InclusionStep) :
    Prop where
  shown : Shown receipt checkpoint proof
  signed : verifySignedCheckpoint rt checkpoint keyring = .ok ()
  rooted : hashAt "root_hash" checkpoint "checkpoint.root_hash" = .ok root
  stepped : stepsAt proof = .ok steps

-- The proof is for a tree of the checkpoint's size.
structure Sized (receipt : Dict) (keyring : Keyring) (checkpoint proof : Json) (root : Bytes)
    (steps : List InclusionStep) (size : Int) : Prop where
  walked : Walked rt receipt keyring checkpoint proof root steps
  tree : countAt rt "tree_size" proof = .ok size
  counted : countAt rt "leaf_count" checkpoint = .ok size

-- The event is in the tree.
def Included (receipt : Dict) (keyring : Keyring) (leaf : Bytes) (checkpoint : Json) (root : Bytes) : Prop :=
  ∃ proof steps size index, Sized rt receipt keyring checkpoint proof root steps size ∧
    countAt rt "leaf_index" proof = .ok index ∧
    verifyInclusion rt.toHashFunction leaf index size steps root = true

theorem read_inclusion_steps (receipt : Dict) (keyring : Keyring) (leaf : Bytes) :
    readInclusion rt receipt keyring leaf = (do
    let checkpoint ← subscript "checkpoint" (.obj receipt)
    let proof ← subscript "inclusion_proof" (.obj receipt)
    verifySignedCheckpoint rt checkpoint keyring
    let root ← hashAt "root_hash" checkpoint "checkpoint.root_hash"
    let steps ← stepsAt proof
    let size ← countAt rt "tree_size" proof
    let count ← countAt rt "leaf_count" checkpoint
    ensure (size == count) "inclusion proof tree size does not match checkpoint"
    let index ← countAt rt "leaf_index" proof
    return ⟨checkpoint, root, verifyInclusion rt.toHashFunction leaf index size steps root⟩) := by
  simp only [readInclusion, hashAt, stepsAt, countAt, bind_assoc]

theorem read_inclusion_handled (own : OwnWords tells) (receipt : Dict) (keyring : Keyring) (leaf : Bytes) :
    RaisesOnly (Handled tells) (readInclusion rt receipt keyring leaf) ↔
      (∀ checkpoint proof, Shown receipt checkpoint proof →
        Signable rt tells keyring checkpoint ∧ CheckpointShallow rt keyring checkpoint) ∧
      (∀ checkpoint proof root steps value, Walked rt receipt keyring checkpoint proof root steps →
        subscript "tree_size" proof = .ok value → Countable value) ∧
      (∀ checkpoint proof root steps size value, Sized rt receipt keyring checkpoint proof root steps size →
        subscript "leaf_index" proof = .ok value → Countable value) := by
  have checks := fun condition reason => ensure_raises (Handled tells) own structured_handled condition reason
  have hashes := fun key data field => hash_at_handled own key data field
  have steps := fun proof => steps_at_handled own proof
  simp only [read_inclusion_steps, raises_only_bind, subscript_handled, hashes, steps, checks,
    count_at_handled,
    signed_handled rt own, raises_only_pure, implies_true, true_and, and_true]
  constructor
  · intro raises
    refine ⟨fun checkpoint proof shown => (raises checkpoint shown.found proof shown.proven).1, ?_, ?_⟩
    · rintro checkpoint proof root steps value ⟨shown, signed, rooted, stepped⟩ present
      exact ((raises checkpoint shown.found proof shown.proven).2 () signed root rooted steps stepped).1
        value present
    · rintro checkpoint proof root steps size value ⟨⟨shown, signed, rooted, stepped⟩, tree, counted⟩ present
      exact (((raises checkpoint shown.found proof shown.proven).2
          () signed root rooted steps stepped).2 size tree).2 size
        counted () (by simp [ensure]) value present
  · rintro ⟨signable, trees, indices⟩ checkpoint found proof proven
    have shown : Shown receipt checkpoint proof := ⟨found, proven⟩
    refine ⟨signable checkpoint proof shown, fun _ signed root rooted steps stepped => ?_⟩
    have walked : Walked rt receipt keyring checkpoint proof root steps := ⟨shown, signed, rooted, stepped⟩
    refine ⟨fun value => trees checkpoint proof root steps value walked, fun size tree =>
      ⟨signed_countable rt checkpoint keyring signed, fun count counted _ same value present => ?_⟩⟩
    have sizes : size = count := by simpa using ensure_ok _ _ _ same
    subst sizes
    exact indices checkpoint proof root steps size value ⟨walked, tree, counted⟩ present

theorem read_inclusion_included (receipt : Dict) (keyring : Keyring) (leaf : Bytes) (checkpoint : Json)
    (root : Bytes) :
    readInclusion rt receipt keyring leaf = .ok ⟨checkpoint, root, true⟩ ↔
    Included rt receipt keyring leaf checkpoint root := by
  simp only [read_inclusion_steps, bind_ok]
  constructor
  · rintro ⟨found, foundCheckpoint, proof, proven, _, signed, read, rooted, steps, stepped, size, tree,
      count, counted, _, same,
      index, indexed, whole⟩
    have sizes : size = count := by simpa using ensure_ok _ _ _ same
    subst sizes
    have verified := congrArg InclusionStage.included (Except.ok.inj whole)
    have named := congrArg InclusionStage.checkpoint (Except.ok.inj whole)
    have expected := congrArg InclusionStage.expectedRoot (Except.ok.inj whole)
    dsimp only at verified named expected
    subst named expected
    exact ⟨proof, steps, size, index,
      ⟨⟨⟨foundCheckpoint, proven⟩, signed, rooted, stepped⟩, tree, counted⟩, indexed, verified⟩
  · rintro ⟨proof, steps, size, index, ⟨⟨⟨found, proven⟩, signed, rooted, stepped⟩, tree, counted⟩,
      indexed, verified⟩
    refine ⟨checkpoint, found, proof, proven, (), signed, root, rooted, steps, stepped, size, tree,
      size, counted, (),
      by simp [ensure], index, indexed, ?_⟩
    rw [verified]
    rfl

-- The older checkpoint is signed and is the one the checkpoint names.
structure Linked (keyring : Keyring) (checkpoint consistency old : Json) : Prop where
  found : subscript "old_checkpoint" consistency = .ok old
  signed : verifySignedCheckpoint rt old keyring = .ok ()
  adjacent : nameAt rt "checkpoint_id" old =
    .ok (pyStr rt (getItem "previous_checkpoint_id" (dictOf checkpoint)))
  linked : pyEq (getItem "previous_root_hash" (dictOf checkpoint)) (getItem "root_hash" (dictOf old)) = true

-- The proof aims at the checkpoint, and the hashes are readable.
structure Bridged (keyring : Keyring) (checkpoint consistency old : Json) : Prop where
  linked : Linked rt keyring checkpoint consistency old
  target : ∃ name, nameAt rt "new_checkpoint_id" consistency = .ok name ∧
    nameAt rt "checkpoint_id" checkpoint = .ok name
  hashed : ∃ hashes, hashesAt consistency = .ok hashes

theorem read_consistency_steps (checkpoint consistency previousId : Json) (keyring : Keyring) (root : Bytes) :
    readConsistency rt checkpoint consistency previousId keyring root = (do
      let old ← subscript "old_checkpoint" consistency
      verifySignedCheckpoint rt old keyring
      let oldName ← nameAt rt "checkpoint_id" old
      ensure (oldName == pyStr rt previousId) "consistency proof is not for the adjacent checkpoint"
      ensure (pyEq (getItem "previous_root_hash" (dictOf checkpoint)) (getItem "root_hash" (dictOf old)))
        "checkpoint predecessor root linkage is broken"
      let target ← textAt rt "new_checkpoint_id" consistency
      let own ← nameAt rt "checkpoint_id" checkpoint
      ensure (target == own) "consistency proof target checkpoint does not match"
      let hashes ← hashesAt consistency
      let oldSize ← countAt rt "old_size" consistency
      let newSize ← countAt rt "new_size" consistency
      let oldCount ← countAt rt "leaf_count" old
      ensure (oldSize == oldCount) "old consistency size does not match predecessor"
      let newCount ← countAt rt "leaf_count" checkpoint
      ensure (newSize == newCount) "new consistency size does not match checkpoint"
      let oldRoot ← hashAt "root_hash" old "old_checkpoint.root_hash"
      return verifyConsistency rt.toHashFunction oldSize newSize oldRoot root hashes) := by
  simp only [readConsistency, nameAt, textAt, hashAt, hashesAt, countAt, bind_assoc, pure_bind]

theorem read_consistency_handled (own : OwnWords tells) (checkpoint consistency : Json)
    (keyring : Keyring) (root : Bytes) (signed : verifySignedCheckpoint rt checkpoint keyring = .ok ()) :
    RaisesOnly (Handled tells)
      (readConsistency rt checkpoint consistency (getItem "previous_checkpoint_id" (dictOf checkpoint))
        keyring root) ↔
      (∀ old, subscript "old_checkpoint" consistency = .ok old →
        Signable rt tells keyring old ∧ CheckpointShallow rt keyring old) ∧
      (∀ old name, Linked rt keyring checkpoint consistency old →
        subscript "new_checkpoint_id" consistency = .ok name →
        rt.strExhausts name = false) ∧
      (∀ old value, Bridged rt keyring checkpoint consistency old →
        subscript "old_size" consistency = .ok value →
        Countable value) ∧
      (∀ old size value, Bridged rt keyring checkpoint consistency old →
        countAt rt "old_size" consistency = .ok size →
        subscript "new_size" consistency = .ok value → Countable value) := by
  have checks := fun condition reason => ensure_raises (Handled tells) own structured_handled condition reason
  have digests := fun key data field => hash_at_handled own key data field
  have hashes := fun proof => hashes_at_handled own proof
  simp only [read_consistency_steps, raises_only_bind, subscript_handled, digests, name_at_handled,
    text_at_handled, hashes,
    checks, count_at_handled, signed_handled rt own, raises_only_pure, implies_true, true_and, and_true]
  constructor
  · intro raises
    have later (old : Json) (linked : Linked rt keyring checkpoint consistency old) :=
      (raises old linked.found).2 () linked.signed _ linked.adjacent () (by simp [ensure]) ()
        (by simp [ensure, linked.linked])
    refine ⟨fun old found => (raises old found).1, fun old name linked => (later old linked).1 name, ?_, ?_⟩
    · rintro old value ⟨linked, ⟨name, target, own⟩, hashes, hashed⟩
      obtain ⟨spoken, onward⟩ := later old linked
      exact (onward name ((text_at_ok rt _ _ name spoken).mpr target) name own ()
          (by simp [ensure]) hashes hashed).1 value
    · rintro old size value ⟨linked, ⟨name, target, own⟩, hashes, hashed⟩ sized
      obtain ⟨spoken, onward⟩ := later old linked
      exact ((onward name ((text_at_ok rt _ _ name spoken).mpr target) name own ()
          (by simp [ensure]) hashes hashed).2 size
        sized).1 value
  · rintro ⟨signable, targets, olds, news⟩ old found
    refine ⟨signable old found, ?_⟩
    intro _ verified oldName adjacent _ near _ rooted
    have close : oldName = pyStr rt (getItem "previous_checkpoint_id" (dictOf checkpoint)) := by
      simpa using ensure_ok _ _ _ near
    subst close
    have linked : Linked rt keyring checkpoint consistency old :=
      ⟨found, verified, adjacent, ensure_ok _ _ _ rooted⟩
    refine ⟨fun name => targets old name linked, ?_⟩
    intro name target own owned _ same hashes hashed
    have aimed : name = own := by simpa using ensure_ok _ _ _ same
    subst aimed
    have spoken : nameAt rt "new_checkpoint_id" consistency = .ok name :=
      (text_at_ok rt _ _ name fun value => targets old value linked).mp target
    have bridged : Bridged rt keyring checkpoint consistency old :=
      ⟨linked, ⟨name, spoken, owned⟩, hashes, hashed⟩
    refine ⟨fun value => olds old value bridged, fun size sized =>
      ⟨fun value => news old size value bridged sized, ?_⟩⟩
    intro newSize _
    exact ⟨signed_countable rt old keyring verified,
      fun _ _ _ _ => signed_countable rt checkpoint keyring signed⟩

-- A checkpoint and a receipt with no predecessor's part.
structure First (receipt : Dict) (checkpoint : Json) : Prop where
  alone : getItem "previous_checkpoint_id" (dictOf checkpoint) = .null
  rootless : getItem "previous_root_hash" (dictOf checkpoint) = .null
  bare : getItem "consistency_proof" receipt = .null

-- A checkpoint that names a predecessor, and a receipt with an object for it.
structure Later (receipt : Dict) (checkpoint : Json) (members : Dict) : Prop where
  preceded : getItem "previous_checkpoint_id" (dictOf checkpoint) ≠ .null
  proven : getItem "consistency_proof" receipt = .obj members

theorem predecessor_answers (own : OwnWords tells) (receipt : Dict) (keyring : Keyring)
    (checkpoint : Json) (root : Bytes) :
    RaisesOnly (Structured tells) (verifyPredecessor rt receipt keyring checkpoint root) ↔
      ∀ members, Later receipt checkpoint members →
      RaisesOnly (Handled tells) (readConsistency rt checkpoint (.obj members)
        (getItem "previous_checkpoint_id" (dictOf checkpoint)) keyring root) := by
  have checks := fun condition reason => ensure_raises (Structured tells) own (fun _ => id) condition reason
  rw [verifyPredecessor]
  by_cases alone : getItem "previous_checkpoint_id" (dictOf checkpoint) = .null
  · rw [if_pos alone]
    refine iff_of_true
      ((raises_only_bind (Structured tells) _ _).mpr ⟨checks _ _, fun _ _ => checks _ _⟩)
        fun members later => ?_
    exact absurd alone later.preceded
  · rw [if_neg alone]
    split
    · rename_i members proven
      rw [raises_only_bind, raises_only_translating (Structured tells) _ _ own
        (fun _ => id) structured_handled]
      rw [and_iff_left fun _ _ => checks _ _]
      rw [proven]
      constructor
      · intro raises others later
        have same : members = others := Value.obj.inj (proven.symm.trans later.proven)
        rw [← same]
        exact raises
      · intro raises
        exact raises members ⟨alone, proven⟩
    · rename_i missing
      refine iff_of_true
        ((raises_only_throw (Structured tells) _).mpr ⟨rfl, own.bare _⟩) fun members later => ?_
      exact absurd later.proven (missing members)

theorem first_verified (receipt : Dict) (keyring : Keyring) (checkpoint : Json) (root : Bytes)
    (first : First receipt checkpoint) :
    verifyPredecessor rt receipt keyring checkpoint root = .ok () := by
  rw [verifyPredecessor]
  rw [if_pos first.alone, first.rootless, first.bare]
  rfl

theorem predecessor_verified (receipt : Dict) (keyring : Keyring) (checkpoint : Json) (root : Bytes)
    (verified : verifyPredecessor rt receipt keyring checkpoint root = .ok ()) :
    First receipt checkpoint ∨ ∃ value, subscript "checkpoint_id" checkpoint = .ok value := by
  rw [verifyPredecessor] at verified
  by_cases alone : getItem "previous_checkpoint_id" (dictOf checkpoint) = .null
  · rw [if_pos alone] at verified
    obtain ⟨_, rootless, bare⟩ := (bind_ok _ _ _).mp verified
    exact .inl ⟨alone, by simpa using ensure_ok _ _ _ rootless, by simpa using ensure_ok _ _ _ bare⟩
  · rw [if_neg alone] at verified
    split at verified
    · obtain ⟨consistent, read, _⟩ := (bind_ok _ _ _).mp verified
      have stages := translating_ok _ _ _ read
      simp only [read_consistency_steps, nameAt, bind_ok] at stages
      obtain ⟨_, _, _, _, _, _, _, _, _, _, _, _, _, ⟨value, found, _⟩, _⟩ := stages
      exact .inr ⟨value, found⟩
    · cases verified

theorem subscript_answers (key : String) (data : Json) :
    RaisesOnly (Structured tells) (subscript key data) ↔ ∃ value, subscript key data = .ok value := by
  cases read : subscript key data with
  | ok value => simp
  | error error =>
      have kind : ¬ Structured tells error := by
        cases data with
        | obj members =>
            rw [subscript] at read
            split at read
            · cases read
            · cases read
              exact id
        | _ =>
            cases read
            exact id
      simp [kind]

theorem sealed_answers (own : OwnWords tells) (receipt : Dict) (keyring : Keyring) (leaf : Bytes) :
    RaisesOnly (Structured tells) (verifySealed rt receipt keyring leaf) ↔
      RaisesOnly (Handled tells) (readInclusion rt receipt keyring leaf) ∧
      ∀ checkpoint root, Included rt receipt keyring leaf checkpoint root →
        (∀ members, Later receipt checkpoint members →
          RaisesOnly (Handled tells) (readConsistency rt checkpoint (.obj members)
          (getItem "previous_checkpoint_id" (dictOf checkpoint)) keyring root)) ∧
        (First receipt checkpoint → ∃ value, subscript "checkpoint_id" checkpoint = .ok value) := by
  have checks := fun condition reason => ensure_raises (Structured tells) own (fun _ => id) condition reason
  rw [verifySealed, raises_only_bind, raises_only_translating (Structured tells) _ _ own
    (fun _ => id) structured_handled]
  refine and_congr_right fun _ => ?_
  simp only [raises_only_bind, checks, predecessor_answers rt own, subscript_answers, raises_only_pure,
    implies_true, true_and,
    and_true]
  constructor
  · intro raises checkpoint root included
    have read := (read_inclusion_included rt receipt keyring leaf checkpoint root).mpr included
    obtain ⟨later, named⟩ := raises ⟨checkpoint, root, true⟩ (by rw [read]; rfl) () rfl
    exact ⟨later, fun first => named () (first_verified rt receipt keyring checkpoint root first)⟩
  · rintro fine ⟨checkpoint, root, included⟩ read _ passed
    have verified := ensure_ok _ _ _ passed
    dsimp only at verified
    subst verified
    obtain ⟨later, named⟩ := fine checkpoint root
      ((read_inclusion_included rt receipt keyring leaf checkpoint root).mp (translating_ok _ _ _ read))
    refine ⟨later, fun _ preceded => ?_⟩
    rcases predecessor_verified rt receipt keyring checkpoint root preceded with first | named
    · exact named first
    · exact named

-- Every time, number and name the verifier gets to is one it can take, and what it quotes of a
-- receipt can be said.
structure Answerable (tells : Text → List (String × Json) → Prop) (receipt : Dict) (keyring : Keyring) :
    Prop where
  occurred : ∀ event status leaf, EventRead receipt event status leaf →
    Dated rt (getItem "occurred_at" (dictOf event))
  stated : ∀ status leaf, Genuine rt receipt status leaf → status ≠ string "pending" →
    status ≠ string "sealed" →
    tells (text "unknown witness status") [("witness_status", status)]
  signable : ∀ leaf checkpoint proof, Genuine rt receipt (string "sealed") leaf →
    Shown receipt checkpoint proof →
    Signable rt tells keyring checkpoint
  treeSize : ∀ leaf checkpoint proof root steps value, Genuine rt receipt (string "sealed") leaf →
    Walked rt receipt keyring checkpoint proof root steps → subscript "tree_size" proof = .ok value →
    Countable value
  leafIndex : ∀ leaf checkpoint proof root steps size value, Genuine rt receipt (string "sealed") leaf →
    Sized rt receipt keyring checkpoint proof root steps size →
    subscript "leaf_index" proof = .ok value → Countable value
  named : ∀ leaf checkpoint root, Genuine rt receipt (string "sealed") leaf →
    Included rt receipt keyring leaf checkpoint root →
    First receipt checkpoint → ∃ value, subscript "checkpoint_id" checkpoint = .ok value
  oldSignable : ∀ leaf checkpoint root members old, Genuine rt receipt (string "sealed") leaf →
    Included rt receipt keyring leaf checkpoint root → Later receipt checkpoint members →
    subscript "old_checkpoint" (.obj members) = .ok old → Signable rt tells keyring old
  oldSize : ∀ leaf checkpoint root members old value, Genuine rt receipt (string "sealed") leaf →
    Included rt receipt keyring leaf checkpoint root → Later receipt checkpoint members →
    Bridged rt keyring checkpoint (.obj members) old → subscript "old_size" (.obj members) = .ok value →
    Countable value
  newSize : ∀ leaf checkpoint root members old size value, Genuine rt receipt (string "sealed") leaf →
    Included rt receipt keyring leaf checkpoint root → Later receipt checkpoint members →
    Bridged rt keyring checkpoint (.obj members) old → countAt rt "old_size" (.obj members) = .ok size →
    subscript "new_size" (.obj members) = .ok value → Countable value

-- Nothing the verifier turns into text is nested beyond the stack's reach.
structure Fathomable (receipt : Dict) (keyring : Keyring) : Prop where
  event : ∀ event status leaf, EventRead receipt event status leaf → EventShallow rt event
  checkpoint : ∀ leaf checkpoint proof, Genuine rt receipt (string "sealed") leaf →
    Shown receipt checkpoint proof →
    CheckpointShallow rt keyring checkpoint
  old : ∀ leaf checkpoint root members old, Genuine rt receipt (string "sealed") leaf →
    Included rt receipt keyring leaf checkpoint root → Later receipt checkpoint members →
    subscript "old_checkpoint" (.obj members) = .ok old → CheckpointShallow rt keyring old
  target : ∀ leaf checkpoint root members old name, Genuine rt receipt (string "sealed") leaf →
    Included rt receipt keyring leaf checkpoint root → Later receipt checkpoint members →
    Linked rt keyring checkpoint (.obj members) old →
    subscript "new_checkpoint_id" (.obj members) = .ok name →
    rt.strExhausts name = false

theorem included_signed (receipt : Dict) (keyring : Keyring) (leaf : Bytes) (checkpoint : Json)
    (root : Bytes) (included : Included rt receipt keyring leaf checkpoint root) :
    verifySignedCheckpoint rt checkpoint keyring = .ok () := by
  obtain ⟨_, _, _, _, sized, _⟩ := included
  exact sized.walked.signed

theorem receipt_answers (own : OwnWords tells) (receipt : Dict) (keyring : Keyring) :
    RaisesOnly (Structured tells) (verifyReceipt rt receipt keyring) ↔
      RaisesOnly (Handled tells) (readEvent rt receipt) ∧
      (∀ status leaf, Genuine rt receipt status leaf → status ≠ string "pending" → status ≠ string "sealed" →
        tells (text "unknown witness status") [("witness_status", status)]) ∧
      ∀ leaf, Genuine rt receipt (string "sealed") leaf →
          RaisesOnly (Structured tells) (verifySealed rt receipt keyring leaf) := by
  have checks := fun condition reason => ensure_raises (Structured tells) own (fun _ => id) condition reason
  have apart : string "sealed" ≠ string "pending" := by decide
  have pending : RaisesOnly (Structured tells) (verifyPending receipt) := by
    rw [verifyPending, raises_only_bind]
    exact ⟨checks _ _, fun _ _ => raises_only_pure (Structured tells) _⟩
  rw [verifyReceipt, raises_only_bind, raises_only_translating (Structured tells) _ _ own
    (fun _ => id) structured_handled]
  refine and_congr_right fun _ => ?_
  simp only [raises_only_bind, checks, true_and]
  constructor
  · intro raises
    have stage (status : Json) (leaf : Bytes) (genuine : Genuine rt receipt status leaf) := by
      have read := (read_event_genuine rt receipt status leaf).mpr genuine
      exact raises ⟨status, leaf, leaf⟩ (by rw [read]; rfl) () (by simp [ensure])
    constructor
    · intro status leaf genuine unwaiting unsealed
      have answers := stage status leaf genuine
      rw [if_neg unwaiting, if_neg unsealed] at answers
      exact ((raises_only_throw (Structured tells) _).mp answers).2
    · intro leaf genuine
      have answers := stage (string "sealed") leaf genuine
      rw [if_neg apart, if_pos rfl] at answers
      exact answers
  · rintro ⟨stated, fine⟩ ⟨status, claimed, calculated⟩ read _ passed
    have same : claimed = calculated := by simpa using ensure_ok _ _ _ passed
    subst same
    have genuine := (read_event_genuine rt receipt status claimed).mp (translating_ok _ _ _ read)
    dsimp only
    split
    · exact pending
    · rename_i unwaiting
      split
      · rename_i sealing
        subst sealing
        exact fine claimed genuine
      · rename_i unsealed
        exact (raises_only_throw (Structured tells) _).mpr
          ⟨rfl, stated status claimed genuine unwaiting unsealed⟩

theorem answers_iff_answerable (own : OwnWords tells) (receipt : Dict) (keyring : Keyring) :
    RaisesOnly (Structured tells) (verifyReceipt rt receipt keyring) ↔
      Answerable rt tells receipt keyring ∧ Fathomable rt receipt keyring := by
  rw [receipt_answers rt own, read_event_handled rt own]
  simp only [sealed_answers rt own, read_inclusion_handled rt own]
  constructor
  · rintro ⟨events, stated, fine⟩
    have later := fun leaf checkpoint root members genuine included after =>
      (read_consistency_handled rt own checkpoint (.obj members) keyring root
          (included_signed rt receipt keyring leaf checkpoint
        root included)).mp (((fine leaf genuine).2 checkpoint root included).1 members after)
    constructor
    · refine ⟨fun event status leaf read => (events event status leaf read).1, stated, ?_, ?_, ?_,
        ?_, ?_, ?_, ?_⟩
      · exact fun leaf checkpoint proof genuine shown => ((fine leaf genuine).1.1 checkpoint proof shown).1
      · exact fun leaf checkpoint proof root steps value genuine =>
          (fine leaf genuine).1.2.1 checkpoint proof root steps value
      · exact fun leaf checkpoint proof root steps size value genuine =>
          (fine leaf genuine).1.2.2 checkpoint proof root steps size value
      · exact fun leaf checkpoint root genuine included => ((fine leaf genuine).2 checkpoint root included).2
      · exact fun leaf checkpoint root members old genuine included after found =>
          ((later leaf checkpoint root members genuine included after).1 old found).1
      · exact fun leaf checkpoint root members old value genuine included after =>
          (later leaf checkpoint root members genuine included after).2.2.1 old value
      · exact fun leaf checkpoint root members old size value genuine included after =>
          (later leaf checkpoint root members genuine included after).2.2.2 old size value
    · refine ⟨fun event status leaf read => (events event status leaf read).2, ?_, ?_, ?_⟩
      · exact fun leaf checkpoint proof genuine shown => ((fine leaf genuine).1.1 checkpoint proof shown).2
      · exact fun leaf checkpoint root members old genuine included after found =>
          ((later leaf checkpoint root members genuine included after).1 old found).2
      · exact fun leaf checkpoint root members old name genuine included after =>
          (later leaf checkpoint root members genuine included after).2.1 old name
  · rintro ⟨able, deep⟩
    refine ⟨fun event status leaf read =>
      ⟨able.occurred event status leaf read, deep.event event status leaf read⟩, able.stated,
      fun leaf genuine => ⟨⟨?_, ?_, ?_⟩, fun checkpoint root included => ⟨fun members after => ?_, ?_⟩⟩⟩
    · exact fun checkpoint proof shown =>
        ⟨able.signable leaf checkpoint proof genuine shown,
          deep.checkpoint leaf checkpoint proof genuine shown⟩
    · exact fun checkpoint proof root steps value =>
        able.treeSize leaf checkpoint proof root steps value genuine
    · exact fun checkpoint proof root steps size value =>
        able.leafIndex leaf checkpoint proof root steps size value genuine
    · refine (read_consistency_handled rt own checkpoint (.obj members) keyring root
        (included_signed rt receipt keyring leaf checkpoint root included)).mpr ⟨?_, ?_, ?_, ?_⟩
      · exact fun old found =>
          ⟨able.oldSignable leaf checkpoint root members old genuine included after found,
          deep.old leaf checkpoint root members old genuine included after found⟩
      · exact fun old name => deep.target leaf checkpoint root members old name genuine included after
      · exact fun old value => able.oldSize leaf checkpoint root members old value genuine included after
      · exact fun old size value =>
          able.newSize leaf checkpoint root members old size value genuine included after
    · exact able.named leaf checkpoint root genuine included

end

section

variable (rt : Runtime)

theorem verified_name_scalars (receipt : Dict) (keyring : Keyring) (result : Verification)
    (verified : verifyReceipt rt receipt keyring = .ok result) :
    ∀ name ∈ result.checkpointId, Scalars name := by
  obtain ⟨event, _, verified⟩ := (bind_ok _ _ _).mp verified
  obtain ⟨_, _, verified⟩ := (bind_ok _ _ _).mp verified
  split at verified
  · obtain ⟨_, _, whole⟩ := (bind_ok _ _ _).mp verified
    cases whole
    simp
  · split at verified
    · obtain ⟨stage, read, verified⟩ := (bind_ok _ _ _).mp verified
      obtain ⟨_, _, verified⟩ := (bind_ok _ _ _).mp verified
      obtain ⟨_, _, verified⟩ := (bind_ok _ _ _).mp verified
      obtain ⟨value, found, whole⟩ := (bind_ok _ _ _).mp verified
      cases whole
      obtain ⟨_, signed, _⟩ := read_inclusion_ok rt receipt keyring _ stage (translating_ok _ _ _ read)
      obtain ⟨payload, written⟩ := signed_written rt stage.checkpoint keyring signed
      have scalars := signed_name_scalars rt stage.checkpoint payload written
      rw [subscript_item _ _ _ found] at scalars
      simpa using scalars
    · cases verified

-- Both dumps of an error with these details have the stack for them.
def Displayed (id message : Text) (details : List (String × Json)) : Prop :=
  rt.dumpsExhausts false false (errorContent id ⟨"INVALID_PROOF", message, 422, details⟩) = false ∧
    rt.dumpsExhausts true true (refusalContent "INVALID_PROOF" message details) = false

-- What JSONResponse and the command can put into text.
def Renderable (id message : Text) (details : List (String × Json)) : Prop :=
  Scalars message ∧ (∀ entry ∈ details, encodable entry.2) ∧ Displayed rt id message details

def anyWords : Text → List (String × Json) → Prop := fun _ _ => True

theorem any_words_own : OwnWords anyWords := ⟨fun _ => trivial, fun _ _ _ _ => trivial⟩

theorem details_displayed (id message : Text) (details : List (String × Json))
    (shallow : ∀ entry ∈ details, entry.2.depth + 3 ≤ rt.nesting) : Displayed rt id message details := by
  have roomy := rt.roomy
  have inner : membersDepth (dict details) ≤ rt.nesting - 3 :=
    (dict_depth_le details _).mpr fun entry inside => Nat.le_sub_of_add_le (shallow entry inside)
  constructor
  · apply rt.dumpsFits
    rw [error_content_depth]
    dsimp only
    omega
  · apply rt.dumpsFits
    rw [refusal_content_depth]
    omega

theorem renderable_own (id : Text) : OwnWords (Renderable rt id) := by
  constructor
  · exact fun reason => ⟨text_scalars reason, by simp, details_displayed rt id _ [] (by simp)⟩
  · intro reason key content scalars
    have roomy := rt.roomy
    have quoted : encodable (.str content) := scalars
    refine ⟨text_scalars reason, by simpa using quoted, details_displayed rt id _ _ ?_⟩
    simpa [Value.depth] using roomy

theorem error_response_ok (id : Text) (scalars : Scalars id) (error : LedgerError) :
    (∃ response, errorResponse rt id error = .ok response) ↔
      rt.dumpsExhausts false false (errorContent id error) = false ∧ Scalars error.message ∧
        ∀ entry ∈ error.details, encodable entry.2 := by
  rw [← error_content_encodable id scalars error, ← render_content_ok]
  constructor
  · rintro ⟨response, made⟩
    obtain ⟨body, rendered, _⟩ := (bind_ok _ _ _).mp made
    exact ⟨body, rendered⟩
  · rintro ⟨body, rendered⟩
    exact ⟨_, (bind_ok _ _ _).mpr ⟨body, rendered, rfl⟩⟩

theorem result_answered (id : Text) (describe : CliFault → Text) (receipt : Dict) (keyring : Keyring)
    (result : Verification) (verified : verifyReceipt rt receipt keyring = .ok result) :
    (∃ response, verifyRoute rt id receipt keyring = .ok response) ∧
      ∃ printed, verifyMain rt describe receipt keyring = .ok printed := by
  have roomy := rt.roomy
  have fits : rt.dumpsExhausts false false (verificationContent result) = false :=
    rt.dumpsFits _ _ _ (by rw [verification_content_depth]; omega)
  have accepted : encodable (verificationContent result) := by
    have named := verified_name_scalars rt receipt keyring result verified
    refine dict_encodable _ ?_
    cases id : result.checkpointId with
    | none => simp [encodable]
    | some name => simpa [encodable] using named name id
  obtain ⟨body, rendered⟩ := (render_content_ok rt _).mpr ⟨fits, accepted⟩
  refine ⟨?_, _, main_prints rt describe receipt keyring result verified⟩
  rw [verifyRoute, verified]
  exact ⟨_, (bind_ok _ _ _).mpr ⟨body, rendered, rfl⟩⟩

-- The endpoint and the command answer exactly if what the verifier raises can be put into text.
theorem answered_iff_renderable (id : Text) (scalars : Scalars id) (describe : CliFault → Text)
    (receipt : Dict) (keyring : Keyring) :
    (RaisesOnly (Structured anyWords) (verifyReceipt rt receipt keyring) ∧
      (∃ response, verifyRoute rt id receipt keyring = .ok response) ∧
      ∃ printed, verifyMain rt describe receipt keyring = .ok printed) ↔
    RaisesOnly (Structured (Renderable rt id)) (verifyReceipt rt receipt keyring) := by
  cases outcome : verifyReceipt rt receipt keyring with
  | ok result => simpa using result_answered rt id describe receipt keyring result outcome
  | error error =>
      rw [raises_only_error, raises_only_error, verifyRoute, verifyMain, outcome]
      cases error with
      | keyConfiguration message =>
          have small : ∀ details : List (String × Json), (∀ entry ∈ details, entry.2.depth = 0) →
              membersDepth (dict details) + 3 ≤ rt.nesting := by
            intro details flat
            have roomy := rt.roomy
            have inner := (dict_depth_le details 0).mpr fun entry inside => (flat entry inside).le
            omega
          have printed : ∃ printed, printJson rt 2 (refusalContent "UNKNOWN_KEY_VERSION" message []) =
              .ok printed := by
            refine (print_json_ok rt _ _).mpr (rt.dumpsFits _ _ _ ?_)
            rw [refusal_content_depth]
            exact small [] (by simp)
          have sent := error_response_ok rt id scalars
            ⟨"UNKNOWN_KEY_VERSION", message, 422, [("retryable", .bool false)]⟩
          have fits : rt.dumpsExhausts false false
              (errorContent id ⟨"UNKNOWN_KEY_VERSION", message, 422, [("retryable", .bool false)]⟩) =
                false := by
            refine rt.dumpsFits _ _ _ ?_
            rw [error_content_depth]
            exact small _ (by simp [Value.depth])
          rw [fits] at sent
          have told : Displayed rt id message [] := details_displayed rt id message [] (by simp)
          simp only [Except.mapError, printOutcome, printed, sent, Structured, anyWords, Renderable, told]
          simp [encodable]
      | ledger error =>
          obtain ⟨code, message, status, details⟩ := error
          dsimp only [Except.mapError, printOutcome]
          rw [error_response_ok rt id scalars]
          by_cases invalid : code = "INVALID_PROOF"
          · subst invalid
            rw [if_pos rfl, print_json_ok]
            simp only [Structured, anyWords, Renderable, Displayed, true_and]
            constructor
            · intro both
              exact ⟨both.1.2.1, both.1.2.2, both.1.1, both.2⟩
            · intro shown
              exact ⟨⟨shown.2.2.1, shown.1, shown.2.1⟩, shown.2.2.2⟩
          · simp [Structured, invalid]
      | _ => simp [Structured]

theorem subscript_depth (key : String) (data value : Json) (found : subscript key data = .ok value) :
    value.depth < data.depth := by
  cases data with
  | obj members =>
      rw [subscript] at found
      split at found
      · rename_i held inside
        cases found
        exact member_depth _ _ _ inside
      · cases found
  | _ => cases found

theorem get_item_depth (key : String) (data : Dict) : (getItem key data).depth ≤ membersDepth data := by
  rw [getItem]
  cases found : member (text key) data with
  | none => exact Nat.zero_le _
  | some value => exact Nat.le_of_lt_succ (member_depth _ _ _ found)

theorem optional_str_depth (value : Json) : (optionalStr rt value).depth = 0 := by
  cases value <;> rfl

theorem event_commitment_depth (data members : Dict)
    (made : eventCommitment rt (jsonFields "occurred_at" data) = .ok members) :
    membersDepth members ≤ membersDepth data := by
  obtain ⟨occurred, _, whole⟩ := (bind_ok _ _ _).mp made
  cases whole
  rw [dict_depth_le]
  simp [commitmentMembers, jsonFields, Value.depth, optional_str_depth, get_item_depth]

theorem checkpoint_payload_depth (data members : Dict)
    (made : checkpointPayload rt (jsonFields "created_at" data) = .ok members) :
    membersDepth members ≤ membersDepth data := by
  obtain ⟨created, _, whole⟩ := (bind_ok _ _ _).mp made
  cases whole
  rw [dict_depth_le]
  simp [payloadMembers, jsonFields, Value.depth, optional_str_depth, get_item_depth]

theorem dict_of_depth (data : Json) : membersDepth (dictOf data) ≤ data.depth := by
  cases data with
  | obj members => exact Nat.le_succ _
  | _ => exact Nat.zero_le _

theorem shallow_within (data : Json) (keys : List String) (made : Py Dict)
    (room : data.depth + 1 ≤ rt.nesting)
    (within : ∀ members, made = .ok members → membersDepth members ≤ membersDepth (dictOf data)) :
    Shallow rt (dictOf data) keys made := by
  intro members written
  have inner := within members written
  have outer := dict_of_depth data
  refine ⟨fun key _ => rt.strFits _ ?_, rt.dumpsFits _ _ _ ?_⟩
  · have item := get_item_depth key (dictOf data)
    omega
  · rw [Value.depth]
    omega

theorem checkpoint_within (keyring : Keyring) (data : Json) (room : data.depth + 1 ≤ rt.nesting) :
    CheckpointShallow rt keyring data := by
  refine ⟨fun version found => ?_, fun version signature held => ?_, fun _ => ?_⟩
  · have inner := subscript_depth _ _ _ found
    exact rt.strFits _ (by omega)
  · have inner := subscript_depth _ _ _ held.signed
    exact rt.strFits _ (by omega)
  · exact shallow_within rt data _ _ room fun members => checkpoint_payload_depth rt (dictOf data) members

theorem fathomable_within (receipt : Dict) (keyring : Keyring)
    (room : (Value.obj receipt : Json).depth ≤ rt.nesting) :
    Fathomable rt receipt keyring := by
  have consistency (checkpoint : Json) (members : Dict) (after : Later receipt checkpoint members) :
      (Value.obj members : Json).depth + 1 ≤ rt.nesting := by
    have inner := get_item_depth "consistency_proof" receipt
    rw [after.proven] at inner
    rw [Value.depth] at room
    omega
  refine ⟨fun event status leaf read => ?_, fun leaf checkpoint proof _ shown => ?_, ?_, ?_⟩
  · have inner := subscript_depth _ _ _ read.found
    exact shallow_within rt event _ _ (by omega) fun members =>
      event_commitment_depth rt (dictOf event) members
  · have inner := subscript_depth _ _ _ shown.found
    exact checkpoint_within rt keyring checkpoint (by omega)
  · intro leaf checkpoint root members old _ _ after found
    have outer := consistency checkpoint members after
    have inner := subscript_depth _ _ _ found
    exact checkpoint_within rt keyring old (by omega)
  · intro leaf checkpoint root members old name _ _ after _ found
    have outer := consistency checkpoint members after
    have inner := subscript_depth _ _ _ found
    exact rt.strFits _ (by omega)

end

-- An event that is genuine, with any status beside it.
def statedReceipt (status : Json) : Dict := dict [
  ("event", .obj (dict [
    ("occurred_at", string "2024-02-29T12:34:56.000789Z"),
    ("leaf_hash", string "d0e0942114c4c12c79e8cc2b6602fc7dc7ec70d523185f0b8ac0fd2a3a72a804")])),
  ("witness_status", status)]

-- The verifier's error is fine, but its details cannot be sent.
example : verifyReceipt reference (statedReceipt (.float .nan)) [] =
      .error (invalidProof "unknown witness status" [("witness_status", .float .nan)]) ∧
    verifyRoute reference (text "r-1") (statedReceipt (.float .nan)) [] = .error .valueError := by
  decide +kernel

-- A receipt whose event has no time at all.
def undatedReceipt : Dict := dict [
  ("event", .obj (dict
    [("leaf_hash", string "0000000000000000000000000000000000000000000000000000000000000000")])),
  ("witness_status", string "pending")]

end CalibrationLedger
