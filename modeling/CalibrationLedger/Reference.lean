import Mathlib.Data.Nat.Pairing
import CalibrationLedger.Canonical
import CalibrationLedger.Library.Sha256

set_option autoImplicit false

-- A runtime that computes: SHA-256 itself, datetime.fromisoformat on the texts
-- isoformat writes, and a float text of its own with the documented shape.
namespace CalibrationLedger

open JsonText Digest

def floatCode (number : FiniteFloat) : Nat :=
  Nat.pair number.negative.toNat
    (Nat.pair number.mantissa (Nat.pair (decide (number.exponent < 0)).toNat number.exponent.natAbs))

def floatText (number : FiniteFloat) : Text := .scalar 'e' :: decimal (floatCode number)

theorem float_code_injective (a b : FiniteFloat) (same : floatCode a = floatCode b) : a = b := by
  obtain ⟨negative, mantissa, exponent, lowest⟩ := a
  obtain ⟨sign, digits, scale, other⟩ := b
  simp only [floatCode, Nat.pair_eq_pair] at same
  obtain ⟨signs, mantissas, below, sizes⟩ := same
  have signsAgree : negative = sign := by cases negative <;> cases sign <;> simp_all
  have scales : exponent = scale := by
    by_cases left : exponent < 0 <;> by_cases right : scale < 0 <;> simp [left, right] at below <;> omega
  subst signsAgree mantissas scales
  rfl

theorem decimal_points (number : Int) : ∀ point ∈ decimal number,
    ∃ char, point = .scalar char ∧ (char.isDigit = true ∨ char = '-') := by
  have digits : ∀ n : Nat, ∀ point ∈ (Nat.toDigits 10 n).map CodePoint.scalar, ∃ char, point = .scalar char ∧
      (char.isDigit = true ∨ char = '-') := by
    intro n point member
    obtain ⟨char, inside, rfl⟩ := List.mem_map.mp member
    exact ⟨char, rfl, .inl (Nat.isDigit_of_mem_toDigits (by decide) (by decide) inside)⟩
  intro point member
  rw [decimal] at member
  split at member
  · rcases List.mem_cons.mp member with rfl | later
    · exact ⟨'-', rfl, .inr rfl⟩
    · exact digits _ point later
  · exact digits _ point member

theorem letter_not_integer (word : Text) (letter : Char) (inside : .scalar letter ∈ word)
    (other : letter.isDigit = false ∧ letter ≠ '-') (number : Int) : word ≠ decimal number := by
  intro same
  obtain ⟨char, shape, kind⟩ := decimal_points number _ (same ▸ inside)
  cases shape
  rcases kind with digit | minus
  · rw [other.1] at digit
    cases digit
  · exact other.2 minus

theorem float_tokens : NumberTokens (jsonFloat floatText) where
  injective a b same := by
    have other : ∀ number, floatText number ≠ text "NaN" ∧ floatText number ≠ text "Infinity" ∧
        floatText number ≠ text "-Infinity" := fun number => by simp [floatText, text]
    cases a with
    | finite a =>
        cases b with
        | finite b =>
            have codes := decimal_injective _ _ (List.cons.inj same).2
            rw [float_code_injective a b (by exact_mod_cast codes)]
        | nan => exact absurd same (other a).1
        | infinity sign =>
            cases sign <;> exact absurd same (by first | exact (other a).2.1 | exact (other a).2.2)
    | nan =>
        cases b with
        | finite b => exact absurd same.symm (other b).1
        | nan => rfl
        | infinity sign => cases sign <;> simp [jsonFloat, text] at same
    | infinity sign =>
        cases b with
        | finite b =>
            cases sign <;> exact absurd same.symm (by first | exact (other b).2.1 | exact (other b).2.2)
        | nan => cases sign <;> simp [jsonFloat, text] at same
        | infinity other => cases sign <;> cases other <;> simp [jsonFloat, text] at same ⊢
  token a := by
    cases a with
    | finite number =>
        intro point member
        rcases List.mem_cons.mp member with rfl | inside
        · decide
        · exact decimal_token _ point inside
    | nan =>
        unfold Token
        decide
    | infinity sign =>
        unfold Token
        cases sign <;> decide
  nonempty a := by
    cases a with
    | finite number => simp [jsonFloat, floatText]
    | nan => decide
    | infinity sign => cases sign <;> decide
  notInteger a n := by
    cases a with
    | finite number => exact letter_not_integer _ 'e' (by simp [jsonFloat, floatText]) (by decide) n
    | nan => exact letter_not_integer _ 'N' (by decide) (by decide) n
    | infinity sign => cases sign <;> exact letter_not_integer _ 'I' (by decide) (by decide) n
  notWord a := by
    cases a with
    | finite number => simp [jsonFloat, floatText, text]
    | nan => decide
    | infinity sign => cases sign <;> decide

def digitsAt (content : Text) (position width : Nat) : Nat :=
  ((content.drop position).take width).foldl (fun total point => 10 * total + (point.value - 48)) 0

-- The day count of a proleptic Gregorian date, years starting in March again.
def dayCount (year month day : Nat) : Nat :=
  let shifted := if month ≤ 2 then year - 1 else year
  let ordinal := (153 * (if 2 < month then month - 3 else month + 9) + 2) / 5 + day - 1
  shifted / 400 * 146097 + shifted % 400 * 365 + shifted % 400 / 4 - shifted % 400 / 100 + ordinal - 306

def microsOf (content : Text) : Nat :=
  dayCount (digitsAt content 0 4) (digitsAt content 5 2) (digitsAt content 8 2) * 86400000000 +
    digitsAt content 11 2 * 3600000000 + digitsAt content 14 2 * 60000000 + digitsAt content 17 2 * 1000000 +
    digitsAt content 20 6

def readIsoformat (content : Text) : Option DateTime :=
  let micros := microsOf content
  if bound : micros < endOfTime then
    let instant : Instant := ⟨micros, bound⟩
    if isoformat instant = content then some ⟨instant, some 0⟩ else none
  else none

def reference : Runtime where
  toHashFunction := sha256
  floatRepr := floatText
  floatTokens := float_tokens
  containerStr _ := text "[...]"
  intOfText _ := none
  fromisoformat := readIsoformat
  encodingErrorText _ := ""
  nesting := 900
  roomy := by decide
  strExhausts value := 900 < value.depth
  strFits value shallow := by simpa using shallow
  dumpsExhausts _ _ value := 900 < value.depth
  dumpsFits _ _ value shallow := by simpa using shallow

-- 2024-02-29T12:34:56.000789+00:00
example : isoformat ⟨63844806896000789, by decide⟩ = text "2024-02-29T12:34:56.000789+00:00" ∧
    readIsoformat (text "2024-02-29T12:34:56.000789+00:00") =
      some ⟨⟨63844806896000789, by decide⟩, some 0⟩ := by
  decide +kernel

end CalibrationLedger
