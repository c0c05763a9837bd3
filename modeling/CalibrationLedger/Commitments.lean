import CalibrationLedger.Domain

set_option autoImplicit false

-- What a row's commitment and signing bytes are, and that they pin every field
-- they are computed from.
namespace CalibrationLedger

open JsonText Digest

theorem replace_from_absent (first : CodePoint) (pattern replacement content rest : Text)
    (absent : first ∉ content) :
    replaceFrom (first :: pattern) replacement 0 (content ++ rest) =
      content ++ replaceFrom (first :: pattern) replacement 0 rest := by
  induction content with
  | nil => rfl
  | cons point tail ih =>
      obtain ⟨different, later⟩ : first ≠ point ∧ first ∉ tail := by simpa using absent
      have mismatch : (first :: pattern).isPrefixOf (point :: (tail ++ rest)) = false := by
        rw [List.isPrefixOf_cons_cons]
        simp [different]
      rw [List.cons_append, replaceFrom, mismatch]
      simp [ih later]

theorem padded_digits_plain (width number : Nat) :
    ∀ digit ∈ paddedDigits width number, digit ≠ '+' ∧ digit ≠ 'Z' := by
  induction width generalizing number with
  | zero => simp [paddedDigits]
  | succ width ih =>
      intro digit member
      rcases List.mem_append.mp member with inside | last
      · exact ih _ digit inside
      · have small : ∀ n < 10, Nat.digitChar n ≠ '+' ∧ Nat.digitChar n ≠ 'Z' := by decide
        rw [List.mem_singleton.mp last]
        exact small (number % 10) (Nat.mod_lt _ (by decide))

theorem iso_digits_plain (instant : Instant) : ∀ digit ∈ isoDigits instant, digit ≠ '+' ∧ digit ≠ 'Z' := by
  intro digit member
  simp only [isoDigits, List.mem_append, List.mem_cons] at member
  rcases member with (((((((h | rfl | h) | rfl | h) | rfl | h) | rfl | h) | rfl | h) | rfl | h))
  all_goals first | exact padded_digits_plain _ _ digit h | decide

-- isoformat_utc of an instant: the digits and a Z.
def utcText (instant : Instant) : Text := (isoDigits instant).map .scalar ++ text "Z"

theorem digits_absent (instant : Instant) (char : Char) (mark : char = '+' ∨ char = 'Z') :
    CodePoint.scalar char ∉ (isoDigits instant).map CodePoint.scalar := by
  intro member
  obtain ⟨digit, inside, same⟩ := List.mem_map.mp member
  obtain ⟨plus, zulu⟩ := iso_digits_plain instant digit inside
  rcases mark with rfl | rfl
  · exact plus (CodePoint.scalar.inj same)
  · exact zulu (CodePoint.scalar.inj same)

theorem isoformat_utc_text (instant : Instant) : isoformatUtc ⟨instant, some 0⟩ = .ok (utcText instant) := by
  have shifted : DateTime.toUtc ⟨instant, some 0⟩ = .ok instant := by
    have bound := instant.bound
    simp [DateTime.toUtc, bound]
  rw [isoformatUtc, shifted]
  exact congrArg Except.ok (replace_from_absent _ _ _ _ _ (digits_absent instant '+' (.inl rfl)))

theorem replace_utc_text (instant : Instant) : replace "Z" "+00:00" (utcText instant) = isoformat instant :=
  replace_from_absent _ _ _ _ _ (digits_absent instant 'Z' (.inr rfl))

theorem utc_text_scalars (instant : Instant) : Scalars (utcText instant) :=
  scalars_append _ _ ⟨isoDigits instant, rfl⟩ (text_scalars "Z")

theorem member_dict (key : String) (members : List (String × Json)) :
    member (text key) (dict members) = (members.find? fun entry => entry.1 = key).map Prod.snd := by
  induction members with
  | nil => rfl
  | cons entry rest ih =>
      obtain ⟨name, value⟩ := entry
      by_cases same : name = key
      · simp [member, dict, same]
      · have different : text name ≠ text key := fun equal => same (text_injective name key equal)
        simpa [member, dict, same, different] using ih

def plain : Json → Bool
  | .arr _ => false
  | .obj _ => false
  | _ => true

theorem sort_keys_plain (value row : Json) (simple : plain row = true)
    (same : sortKeys value = sortKeys row) :
    value = row := by
  cases row with
  | arr _ => cases simple
  | obj _ => cases simple
  | null => cases value <;> simp_all [sortKeys]
  | bool _ => cases value <;> simp_all [sortKeys]
  | int _ => cases value <;> simp_all [sortKeys]
  | float _ => cases value <;> simp_all [sortKeys]
  | str _ => cases value <;> simp_all [sortKeys]

theorem perm_same_keys (a b : Dict) (perm : a.Perm b) (keys : a.map Prod.fst = b.map Prod.fst)
    (distinct : (a.map Prod.fst).Nodup) : a = b := by
  induction a generalizing b with
  | nil => exact perm.nil_eq
  | cons first rest ih =>
      cases b with
      | nil => cases keys
      | cons other others =>
          obtain ⟨key, laterKeys⟩ := List.cons.inj keys
          obtain ⟨fresh, later⟩ := List.nodup_cons.mp distinct
          have head : first = other := by
            rcases List.mem_cons.mp (perm.mem_iff.mp List.mem_cons_self) with same | inside
            · exact same
            · have listed := List.mem_map_of_mem (f := Prod.fst) inside
              rw [← laterKeys] at listed
              exact absurd listed fresh
          subst head
          rw [ih others perm.cons_inv laterKeys later]

theorem dict_pinned (rt : Runtime) (a b : List (String × Json)) (data : Bytes)
    (keys : a.map Prod.fst = b.map Prod.fst) (distinct : (a.map Prod.fst).Nodup)
    (simple : ∀ entry ∈ b, plain entry.2 = true) (left : canonicalJson rt (.obj (dict a)) = .ok data)
    (right : canonicalJson rt (.obj (dict b)) = .ok data) : a = b := by
  have sorted := canonical_json_injective rt _ _ data left right
  simp only [sortKeys, Value.obj.injEq, sort_members_map] at sorted
  have perm := (List.perm_insertionSort before _).symm.trans
    ((List.Perm.of_eq sorted).trans (List.perm_insertionSort before _))
  have texts : (dict a).map Prod.fst = (dict b).map Prod.fst := by
    have mapped := congrArg (List.map text) keys
    simpa [dict, Function.comp_def] using mapped
  have nodup : ((dict a).map Prod.fst).Nodup := by
    have injective : Function.Injective text := fun x y => text_injective x y
    have mapped := distinct.map injective
    simpa [dict, Function.comp_def] using mapped
  have values := perm_same_keys _ _ perm (by simpa [Function.comp_def] using texts)
    (by simpa [Function.comp_def] using nodup)
  clear left right sorted perm texts nodup distinct
  induction a generalizing b with
  | nil =>
      cases b with
      | nil => rfl
      | cons _ _ => cases keys
  | cons first rest ih =>
      cases b with
      | nil => cases keys
      | cons other others =>
          obtain ⟨key, value⟩ := first
          obtain ⟨name, row⟩ := other
          obtain ⟨sameKey, laterKeys⟩ := List.cons.inj keys
          simp only [dict, List.map_cons, List.cons.injEq, Prod.mk.injEq] at values
          have same := sort_keys_plain value row (simple ⟨name, row⟩ List.mem_cons_self) values.1.2
          rw [show key = name from sameKey, same,
            ih others laterKeys (fun entry later => simple entry (List.mem_cons_of_mem _ later)) values.2]

@[simp] theorem plain_int (number : Int) : plain (.int number) = true := rfl

@[simp] theorem plain_str (content : Text) : plain (.str content) = true := rfl

theorem optional_plain (content : Option String) : plain (optional content) = true := by cases content <;> rfl

theorem optional_encodable (content : Option String) : encodable (optional content) := by
  cases content with
  | none => trivial
  | some content => exact text_scalars content

section

variable (rt : Runtime)

theorem optional_str (content : Option String) : optionalStr rt (optional content) = optional content := by
  cases content <;> rfl

-- The commitment of a row, field by field.
def Event.commitment (event : Event) : List (String × Json) :=
  commitmentMembers rt event.fields (utcText event.occurredAt)

def Checkpoint.payload (checkpoint : Checkpoint) : List (String × Json) :=
  payloadMembers rt checkpoint.fields (utcText checkpoint.createdAt)

theorem event_commitment_row (event : Event) :
    eventCommitment rt event.fields = .ok (dict (event.commitment rt)) := by
  rw [eventCommitment, show event.fields.time = .datetime ⟨event.occurredAt, some 0⟩ from rfl, timestampText,
    isoformat_utc_text]
  rfl

theorem checkpoint_payload_row (checkpoint : Checkpoint) :
    checkpointPayload rt checkpoint.fields = .ok (dict (checkpoint.payload rt)) := by
  rw [checkpointPayload, show checkpoint.fields.time =
    .datetime ⟨checkpoint.createdAt, some 0⟩ from rfl, timestampText,
    isoformat_utc_text]
  rfl

theorem commitment_plain (event : Event) : ∀ entry ∈ event.commitment rt, plain entry.2 = true := by
  simp [Event.commitment, commitmentMembers, Event.fields, string, optional_str, optional_plain]

theorem payload_plain (checkpoint : Checkpoint) : ∀ entry ∈ checkpoint.payload rt, plain entry.2 = true := by
  simp [Checkpoint.payload, payloadMembers, Checkpoint.fields, string, optional_str, optional_plain]

theorem dict_encodable (members : List (String × Json)) (values : ∀ entry ∈ members, encodable entry.2) :
    encodable (.obj (dict members)) := by
  apply (members_encodable_iff _).mpr
  intro entry member
  obtain ⟨source, inside, rfl⟩ := List.mem_map.mp member
  exact ⟨text_scalars source.1, values source inside⟩

theorem commitment_encodable (event : Event) : encodable (.obj (dict (event.commitment rt))) := by
  apply dict_encodable
  simp [Event.commitment, commitmentMembers, Event.fields, string, optional_str, optional_encodable,
    encodable, pyStr,
    text_scalars, utc_text_scalars]

theorem payload_encodable (checkpoint : Checkpoint) : encodable (.obj (dict (checkpoint.payload rt))) := by
  apply dict_encodable
  simp [Checkpoint.payload, payloadMembers, Checkpoint.fields, string, optional_str,
    optional_encodable, encodable,
    pyStr, text_scalars, utc_text_scalars]

def bytesOf (value : Json) : Bytes :=
  match canonicalJson rt value with
  | .ok data => data
  | .error _ => []

theorem bytes_of_encodable (value : Json) (accepted : encodable value) :
    canonicalJson rt value = .ok (bytesOf rt value) := by
  obtain ⟨data, written⟩ := canonical_json_accepts rt value accepted
  rw [bytesOf, written]

-- The canonical commitment bytes and signing bytes of rows.
def Event.bytes (event : Event) : Bytes := bytesOf rt (.obj (dict (event.commitment rt)))

def Checkpoint.bytes (checkpoint : Checkpoint) : Bytes := bytesOf rt (.obj (dict (checkpoint.payload rt)))

theorem event_bytes (event : Event) : eventCommitmentBytes rt event.fields = .ok (event.bytes rt) := by
  rw [eventCommitmentBytes, event_commitment_row]
  exact bytes_of_encodable rt _ (commitment_encodable rt event)

theorem checkpoint_bytes (checkpoint : Checkpoint) :
    checkpointSigningBytes rt checkpoint.fields = .ok (checkpoint.bytes rt) := by
  rw [checkpointSigningBytes, checkpoint_payload_row]
  exact bytes_of_encodable rt _ (payload_encodable rt checkpoint)

theorem commitment_keys_distinct (event : Fields) (occurred : Text) :
    ((commitmentMembers rt event occurred).map Prod.fst).Nodup := by
  simp [commitmentMembers]

theorem payload_keys_distinct (checkpoint : Fields) (created : Text) :
    ((payloadMembers rt checkpoint created).map Prod.fst).Nodup := by
  simp [payloadMembers]

theorem bind_ok {α β : Type} (first : Py α) (next : α → Py β) (result : β) :
    (first >>= next) = .ok result ↔ ∃ value, first = .ok value ∧ next value = .ok result := by
  cases first <;> simp [Bind.bind, Except.bind]

theorem map_along {α β γ : Type} (sources : List γ) (entries : List α) (each : α → Py β)
    (before : γ → α → Prop) (after : γ → β → Prop) (along : List.Forall₂ before sources entries)
    (fine : ∀ source entry, before source entry → ∃ result, each entry = .ok result ∧ after source result) :
    ∃ results, entries.mapM each = .ok results ∧ List.Forall₂ after sources results := by
  induction along with
  | nil => exact ⟨[], rfl, .nil⟩
  | cons related _ ih =>
      obtain ⟨result, first, stands⟩ := fine _ _ related
      obtain ⟨results, others, stand⟩ := ih
      exact ⟨result :: results, by rw [List.mapM_cons, first, others]; rfl, .cons stands stand⟩

theorem map_ok {α β : Type} (entries : List α) (each : α → Py β)
    (fine : ∀ entry ∈ entries, ∃ result, each entry = .ok result) :
    ∃ results, entries.mapM each = .ok results := by
  obtain ⟨results, mapped, _⟩ :=
    map_along entries entries each (fun source entry => source ∈ entries ∧ source = entry)
    (fun _ _ => True) (List.forall₂_same.mpr fun entry inside => ⟨inside, rfl⟩) fun source entry
      ⟨inside, same⟩ => by
      obtain ⟨result, first⟩ := fine source inside
      exact ⟨result, by rw [← same, first], trivial⟩
  exact ⟨results, mapped⟩

theorem event_bytes_pin (fields : Fields) (event : Event)
    (same : eventCommitmentBytes rt fields = .ok (event.bytes rt)) :
    eventCommitment rt fields = eventCommitment rt event.fields := by
  obtain ⟨commitment, made, written⟩ := (bind_ok _ _ _).mp same
  obtain ⟨occurred, read, shape⟩ := (bind_ok _ _ _).mp made
  cases shape
  rw [made, event_commitment_row]
  have row := bytes_of_encodable rt _ (commitment_encodable rt event)
  have members := dict_pinned rt (commitmentMembers rt fields occurred) (event.commitment rt) _ rfl
    (commitment_keys_distinct rt fields occurred) (commitment_plain rt event) written row
  rw [members]

theorem checkpoint_bytes_pin (fields : Fields) (checkpoint : Checkpoint)
    (same : checkpointSigningBytes rt fields = .ok (checkpoint.bytes rt)) :
    checkpointPayload rt fields = checkpointPayload rt checkpoint.fields := by
  obtain ⟨payload, made, written⟩ := (bind_ok _ _ _).mp same
  obtain ⟨created, read, shape⟩ := (bind_ok _ _ _).mp made
  cases shape
  rw [made, checkpoint_payload_row]
  have row := bytes_of_encodable rt _ (payload_encodable rt checkpoint)
  have members := dict_pinned rt (payloadMembers rt fields created) (checkpoint.payload rt) _ rfl
    (payload_keys_distinct rt fields created) (payload_plain rt checkpoint) written row
  rw [members]

end

end CalibrationLedger
