import Mathlib.Data.List.Basic

set_option autoImplicit false

-- The base64 encoding of bytes with its padding, and a strict decoder.
namespace Base64

def symbol (value : Nat) : Char :=
  if value < 26 then Char.ofNat (65 + value)
  else if value < 52 then Char.ofNat (97 + (value - 26))
  else if value < 62 then Char.ofNat (48 + (value - 52))
  else if value = 62 then '+'
  else '/'

def sextet (character : Char) : Option Nat :=
  let code := character.toNat
  if 65 ≤ code ∧ code ≤ 90 then some (code - 65)
  else if 97 ≤ code ∧ code ≤ 122 then some (code - 97 + 26)
  else if 48 ≤ code ∧ code ≤ 57 then some (code - 48 + 52)
  else if character = '+' then some 62
  else if character = '/' then some 63
  else none

def encode : List UInt8 → List Char
  | a :: b :: c :: rest =>
      symbol (a.toNat / 4) :: symbol (a.toNat % 4 * 16 + b.toNat / 16) ::
        symbol (b.toNat % 16 * 4 + c.toNat / 64) ::
        symbol (c.toNat % 64) :: encode rest
  | [a, b] => [symbol (a.toNat / 4), symbol (a.toNat % 4 * 16 + b.toNat / 16), symbol (b.toNat % 16 * 4), '=']
  | [a] => [symbol (a.toNat / 4), symbol (a.toNat % 4 * 16), '=', '=']
  | [] => []

def firstByte (w x : Nat) : UInt8 := UInt8.ofNat (w * 4 + x / 16)

def secondByte (x y : Nat) : UInt8 := UInt8.ofNat (x % 16 * 16 + y / 4)

def thirdByte (y z : Nat) : UInt8 := UInt8.ofNat (y % 4 * 64 + z)

-- Padding ends the data and nothing may follow it, except that padding to spare is
-- passed over where the last group is whole.
def decode : List Char → Option (List UInt8)
  | [] => some []
  | w :: x :: y :: z :: rest =>
      if y = '=' ∧ z = '=' ∧ rest = [] then do
        return [firstByte (← sextet w) (← sextet x)]
      else if z = '=' ∧ rest = [] then do
        let x ← sextet x
        let y ← sextet y
        return [firstByte (← sextet w) x, secondByte x y]
      else do
        let x ← sextet x
        let y ← sextet y
        let more ← (if rest.all (· = '=') then some [] else decode rest)
        return firstByte (← sextet w) x :: secondByte x y :: thirdByte y (← sextet z) :: more
  | _ => none

theorem sextet_symbol (value : Nat) (bound : value < 64) : sextet (symbol value) = some value := by
  have all : ∀ value < 64, sextet (symbol value) = some value := by decide
  exact all value bound

theorem symbol_unpadded (value : Nat) (bound : value < 64) : symbol value ≠ '=' := by
  intro padding
  have known := sextet_symbol value bound
  rw [padding] at known
  cases known

theorem first_byte (a : UInt8) (low : Nat) (small : low < 16) :
    firstByte (a.toNat / 4) (a.toNat % 4 * 16 + low) = a := by
  have whole : a.toNat / 4 * 4 + (a.toNat % 4 * 16 + low) / 16 = a.toNat := by omega
  rw [firstByte, whole, UInt8.ofNat_toNat]

theorem second_byte (b : UInt8) (high low : Nat) (small : low < 4) :
    secondByte (high * 16 + b.toNat / 16) (b.toNat % 16 * 4 + low) = b := by
  have bound := b.toNat_lt
  have whole : (high * 16 + b.toNat / 16) % 16 * 16 + (b.toNat % 16 * 4 + low) / 4 = b.toNat := by omega
  rw [secondByte, whole, UInt8.ofNat_toNat]

theorem third_byte (c : UInt8) (high : Nat) : thirdByte (high * 4 + c.toNat / 64) (c.toNat % 64) = c := by
  have bound := c.toNat_lt
  have whole : (high * 4 + c.toNat / 64) % 4 * 64 + c.toNat % 64 = c.toNat := by omega
  rw [thirdByte, whole, UInt8.ofNat_toNat]

theorem encode_unpadded (data : List UInt8) (padding : (encode data).all (· = '=') = true) : data = [] := by
  cases data with
  | nil => rfl
  | cons a rest =>
      have bound := a.toNat_lt
      have unpadded := symbol_unpadded (a.toNat / 4) (by omega)
      rcases rest with _ | ⟨b, _ | ⟨c, rest⟩⟩ <;> simp [encode, unpadded] at padding

theorem decode_later (data : List UInt8) (decoded : decode (encode data) = some data) :
    (if (encode data).all (· = '=') then some [] else decode (encode data)) = some data := by
  split
  · rename_i padding
    rw [encode_unpadded data padding]
  · exact decoded

-- By the groups of three bytes the encoder takes.
theorem decode_encode (data : List UInt8) : decode (encode data) = some data := by
  induction data using encode.induct with
  | case1 a b c rest ih =>
      have boundA := a.toNat_lt
      have boundB := b.toNat_lt
      have boundC := c.toNat_lt
      have unpadded := symbol_unpadded (c.toNat % 64) (by omega)
      rw [encode, decode, if_neg (by simp [unpadded]), if_neg (by simp [unpadded]),
        sextet_symbol _ (by omega), sextet_symbol _ (by omega),
        sextet_symbol _ (by omega), sextet_symbol _ (by omega), decode_later rest ih]
      have first := first_byte a (b.toNat / 16) (by omega)
      have second := second_byte b (a.toNat % 4) (c.toNat / 64) (by omega)
      have third := third_byte c (b.toNat % 16)
      simp [first, second, third]
  | case2 a b =>
      have boundA := a.toNat_lt
      have boundB := b.toNat_lt
      have unpadded := symbol_unpadded (b.toNat % 16 * 4) (by omega)
      rw [encode, decode, if_neg (by simp [unpadded]), if_pos (by simp), sextet_symbol _ (by omega),
        sextet_symbol _ (by omega),
        sextet_symbol _ (by omega)]
      have first := first_byte a (b.toNat / 16) (by omega)
      have second := second_byte b (a.toNat % 4) 0 (by omega)
      simp only [Nat.add_zero] at second
      simp [first, second]
  | case3 a =>
      have boundA := a.toNat_lt
      rw [encode, decode, if_pos (by simp), sextet_symbol _ (by omega), sextet_symbol _ (by omega)]
      have first := first_byte a 0 (by omega)
      simp only [Nat.add_zero] at first
      simp [first]
  | case4 => rfl

end Base64
