import CalibrationLedger.Library.JsonText

set_option autoImplicit false

-- Byte strings, their hexadecimal text and hash functions with 32-byte digests.
namespace Digest

open JsonText

abbrev Bytes := List UInt8

structure HashFunction where
  digest : Bytes → Bytes
  digest_length : ∀ data, (digest data).length = 32

-- No two different byte strings of the list share a digest. The list is always
-- finite: the strings some pair of computations really hashed.
def CollisionFree (h : HashFunction) (hashed : List Bytes) : Prop :=
  ∀ a ∈ hashed, ∀ b ∈ hashed, h.digest a = h.digest b → a = b

theorem collision_free_subset (h : HashFunction) (small large : List Bytes)
    (subset : ∀ data ∈ small, data ∈ large) (free : CollisionFree h large) : CollisionFree h small :=
  fun a left b right same => free a (subset a left) b (subset b right) same

def hexDigits (data : Bytes) : List Char :=
  data.flatMap fun byte => [Nat.digitChar (byte.toNat / 16), Nat.digitChar (byte.toNat % 16)]

def hex (data : Bytes) : String := String.ofList (hexDigits data)

def digitValue (char : Char) : Option Nat :=
  if '0' ≤ char ∧ char ≤ '9' then some (char.toNat - 48)
  else if 'a' ≤ char ∧ char ≤ 'f' then some (char.toNat - 87)
  else if 'A' ≤ char ∧ char ≤ 'F' then some (char.toNat - 55)
  else none

def blank (point : CodePoint) : Bool :=
  point.value = 32 || (decide (9 ≤ point.value) && decide (point.value ≤ 13))

-- Pairs of digits of either case; blanks may stand between two pairs.
def fromhex : Text → Option Bytes
  | [] => some []
  | first :: rest =>
      if blank first then fromhex rest
      else
        match first, rest with
        | .scalar high, .scalar low :: tail =>
            match digitValue high, digitValue low, fromhex tail with
            | some upper, some lower, some data => some (UInt8.ofNat (16 * upper + lower) :: data)
            | _, _, _ => none
        | _, _ => none

theorem digit_value_digit (value : Nat) (small : value < 16) :
    digitValue (Nat.digitChar value) = some value ∧ blank (.scalar (Nat.digitChar value)) = false := by
  have all : ∀ n < 16, digitValue (Nat.digitChar n) = some n ∧
    blank (.scalar (Nat.digitChar n)) = false := by decide
  exact all value small

theorem fromhex_digits (data : Bytes) : fromhex ((hexDigits data).map .scalar) = some data := by
  induction data with
  | nil => rfl
  | cons byte rest ih =>
      have bound := byte.toNat_lt
      obtain ⟨high, notBlank⟩ := digit_value_digit (byte.toNat / 16) (by omega)
      obtain ⟨low, _⟩ := digit_value_digit (byte.toNat % 16) (by omega)
      have whole : 16 * (byte.toNat / 16) + byte.toNat % 16 = byte.toNat := by omega
      have shape : (hexDigits (byte :: rest)).map CodePoint.scalar =
          .scalar (Nat.digitChar (byte.toNat / 16)) :: .scalar (Nat.digitChar (byte.toNat % 16)) ::
            (hexDigits rest).map .scalar := rfl
      rw [shape, fromhex, notBlank]
      simp only [Bool.false_eq_true, if_false, high, low, ih, whole, UInt8.ofNat_toNat]

theorem fromhex_hex (data : Bytes) : fromhex (text (hex data)) = some data := by
  rw [text, hex, String.toList_ofList]
  exact fromhex_digits data

theorem hex_injective (a b : Bytes) (same : hex a = hex b) : a = b := by
  have read := fromhex_hex a
  rw [same, fromhex_hex] at read
  exact (Option.some.inj read).symm

theorem hex_length (data : Bytes) : (hexDigits data).length = 2 * data.length := by
  induction data with
  | nil => rfl
  | cons byte rest ih =>
      have shape : (hexDigits (byte :: rest)).length = 2 + (hexDigits rest).length := by
        simp only [hexDigits, List.flatMap_cons, List.length_append, List.length_cons, List.length_nil]
      rw [shape, ih, List.length_cons]
      omega

def blockSize : Nat := 64

def padKey (h : HashFunction) (key : Bytes) : Bytes :=
  let short := if key.length > blockSize then h.digest key else key
  short ++ List.replicate (blockSize - short.length) 0

def hmac (h : HashFunction) (key message : Bytes) : Bytes :=
  let padded := padKey h key
  h.digest (padded.map (· ^^^ 0x5c) ++ h.digest (padded.map (· ^^^ 0x36) ++ message))

end Digest
