import CalibrationLedger.Library.Base64
import CalibrationLedger.Sealing

set_option autoImplicit false

-- How secrets are spelt, and the keyring that a process makes of its settings.
namespace CalibrationLedger

open JsonText Digest

def scalarOf : CodePoint → Option Char
  | .scalar char => some char
  | .surrogate _ => none

-- base64.b64decode(..., validate=True)
def b64decode (content : Text) : Option Bytes := do Base64.decode (← content.mapM scalarOf)

def base64Marker : Text := text "base64:"

-- What the value says the secret is, before its length is looked at.
def rawSecret (value : Text) : Py Bytes :=
  if base64Marker.isPrefixOf value then
    match b64decode (value.drop base64Marker.length) with
    | some secret => .ok secret
    | none => .error (.keyConfiguration (text "invalid base64 HMAC key"))
  else encodeUtf8 value

def decodeSecret (value : Text) : Py Bytes := do
  let secret ← rawSecret value
  if secret.length < 32 then throw (.keyConfiguration (text "HMAC keys must contain at least 32 bytes"))
  else return secret

structure Settings where
  hmacKeysJson : Option Text
  currentKeyVersion : String
  sealBatchSize : Nat
  positive : 0 < sealBatchSize

def stringMember : Text × Json → Option (Text × Text)
  | (version, .str value) => some (version, value)
  | _ => none

def decodeEntry (entry : Text × Text) : Py (Text × Bytes) := do return (entry.1, ← decodeSecret entry.2)

def decodeKeyring (currentKeyVersion : String) (raw : Dict) : Py Keyring := do
  let decoded ← (raw.filterMap stringMember).mapM decodeEntry
  if decoded.length ≠ raw.length then throw (.keyConfiguration (text "every HMAC key value must be a string"))
  else if (decoded.lookup (text currentKeyVersion)).isNone then
    throw (.keyConfiguration (text "LEDGER_CURRENT_KEY_VERSION is not present in keyring"))
  else return decoded

def Settings.keyring (loads : Text → Option Json) (settings : Settings) : Py Keyring :=
  match settings.hmacKeysJson with
  | none => .error (.keyConfiguration (text "LEDGER_HMAC_KEYS_JSON is required"))
  | some [] => .error (.keyConfiguration (text "LEDGER_HMAC_KEYS_JSON is required"))
  | some content =>
      match loads content with
      | none => .error (.keyConfiguration (text "LEDGER_HMAC_KEYS_JSON must be valid JSON"))
      | some (.obj (first :: rest)) => decodeKeyring settings.currentKeyVersion (first :: rest)
      | some _ => .error (.keyConfiguration (text "LEDGER_HMAC_KEYS_JSON must be a non-empty object"))

-- The sealer process builds its sealer once, before its loop.
def Settings.sealer (loads : Text → Option Json) (settings : Settings) : Py CheckpointSealer := do
  let keyring ← settings.keyring loads
  return {
    keyring
    currentKeyVersion := settings.currentKeyVersion
    batchSize := settings.sealBatchSize
    positive := settings.positive }

-- A secret as the base64 of a key, or as a text that encodes to it.
def Spells (secret : Text) (key : Bytes) : Prop :=
  secret = base64Marker ++ (Base64.encode key).map .scalar ∨ encodeUtf8 secret = .ok key ∧
    base64Marker.isPrefixOf secret = false

-- A JSON object that lists a keyring.
def KeyFile (keyring : Keyring) (members : Dict) : Prop :=
  List.Forall₂ (fun entry member => ∃ secret, member = (entry.1, .str secret) ∧
      Spells secret entry.2) keyring members

theorem scalars_mapped (chars : List Char) : (chars.map CodePoint.scalar).mapM scalarOf = some chars := by
  induction chars with
  | nil => rfl
  | cons char rest ih =>
      rw [List.map_cons, List.mapM_cons, ih]
      rfl

theorem spelt_decodes (secret : Text) (key : Bytes) (spells : Spells secret key)
    (long : 32 ≤ key.length) : decodeSecret secret = .ok key := by
  have enough : ¬key.length < 32 := by omega
  refine (bind_ok _ _ _).mpr ⟨key, ?_, if_neg enough⟩
  rw [rawSecret]
  rcases spells with rfl | ⟨encoded, unmarked⟩
  · have marked : base64Marker.isPrefixOf (base64Marker ++ (Base64.encode key).map .scalar) = true :=
      List.isPrefixOf_iff_prefix.mpr (List.prefix_append _ _)
    have decoded : b64decode ((Base64.encode key).map .scalar) = some key := by
      rw [b64decode, scalars_mapped]
      exact Base64.decode_encode key
    rw [if_pos marked, List.drop_left, decoded]
  · rw [if_neg (by simp [unmarked])]
    exact encoded

section

variable (keyring : Keyring) (members : Dict) (file : KeyFile keyring members)
  (long : ∀ entry ∈ keyring, 32 ≤ entry.2.length)

include file

theorem key_file_strings :
    ∃ entries, members.filterMap stringMember = entries ∧ entries.length = members.length ∧
    List.Forall₂ (fun entry spelt => spelt.1 = entry.1 ∧ Spells spelt.2 entry.2) keyring entries := by
  induction file with
  | nil => exact ⟨[], rfl, rfl, .nil⟩
  | cons listed _ ih =>
      obtain ⟨entries, mapped, counted, filed⟩ := ih
      obtain ⟨secret, rfl, spells⟩ := listed
      exact ⟨_, List.filterMap_cons_some rfl, by simp [mapped, counted],
        .cons ⟨rfl, spells⟩ (by rw [mapped]; exact filed)⟩

include long

theorem key_file_decodes (currentKeyVersion : String)
    (current : (keyring.lookup (text currentKeyVersion)).isSome) :
    decodeKeyring currentKeyVersion members = .ok keyring := by
  obtain ⟨entries, mapped, counted, filed⟩ := key_file_strings keyring members file
  have decoded : entries.mapM decodeEntry = .ok keyring := by
    clear mapped counted file current
    induction filed with
    | nil => rfl
    | @cons entry listed rest others spelt _ ih =>
        rw [List.mapM_cons]
        refine (bind_ok _ _ _).mpr
          ⟨entry, (bind_ok _ _ _).mpr ⟨entry.2, ?_, by rw [spelt.1]; rfl⟩,
            (bind_ok _ _ _).mpr ⟨rest, ih ?_, rfl⟩⟩
        · exact spelt_decodes _ _ spelt.2 (long entry List.mem_cons_self)
        · exact fun other inside => long other (List.mem_cons_of_mem _ inside)
  refine (bind_ok _ _ _).mpr ⟨keyring, by rw [mapped]; exact decoded, ?_⟩
  rw [if_neg (by rw [file.length_eq]; simp), if_neg (by simpa using current)]
  rfl

end

end CalibrationLedger
