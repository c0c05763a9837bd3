import CalibrationLedger.Commitments

set_option autoImplicit false

namespace CalibrationLedger

open JsonText Digest

abbrev Keyring := List (Text × Bytes)

def signCheckpoint (h : HashFunction) (payload key : Bytes) : String := hex (hmac h key payload)

-- hmac.compare_digest refuses a text with a character beyond ASCII.
def verifyCheckpointSignature (h : HashFunction) (payload : Bytes) (signature : Text) (key : Bytes) :
    Py Bool :=
  if signature.all fun point => point.value < 128 then .ok (signature == text (signCheckpoint h payload key))
  else .error .typeError

def requireKey (keyring : Keyring) (version : Text) : Py Bytes :=
  match keyring.lookup version with
  | some key => .ok key
  | none => .error (.keyConfiguration (text "unknown HMAC key version: " ++ version))

theorem hex_digits_ascii (data : Bytes) : ∀ digit ∈ hexDigits data, digit.toNat < 128 := by
  intro digit member
  obtain ⟨byte, _, inside⟩ := List.mem_flatMap.mp member
  have bound := byte.toNat_lt
  have small : ∀ n < 16, (Nat.digitChar n).toNat < 128 := by decide
  simp only [List.mem_cons, List.not_mem_nil, or_false] at inside
  rcases inside with rfl | rfl
  · exact small _ (by omega)
  · exact small _ (by omega)

theorem signature_accepted (h : HashFunction) (payload key : Bytes) :
    verifyCheckpointSignature h payload (text (signCheckpoint h payload key)) key = .ok true := by
  have ascii : (text (signCheckpoint h payload key)).all (fun point => point.value < 128) = true := by
    rw [List.all_eq_true]
    intro point member
    obtain ⟨digit, inside, rfl⟩ := List.mem_map.mp member
    rw [signCheckpoint, hex, String.toList_ofList] at inside
    exact decide_eq_true (hex_digits_ascii _ digit inside)
  rw [verifyCheckpointSignature, if_pos ascii]
  simp

end CalibrationLedger
