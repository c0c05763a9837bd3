import Mathlib.Algebra.Group.Nat.Defs
import CalibrationLedger.Library.Digest

set_option autoImplicit false

-- SHA-256 over byte lists, words being natural numbers below 2^32.
namespace Digest

namespace Sha256

def roundConstants : List Nat := [
  0x428a2f98, 0x71374491, 0xb5c0fbcf, 0xe9b5dba5, 0x3956c25b, 0x59f111f1, 0x923f82a4, 0xab1c5ed5,
  0xd807aa98, 0x12835b01, 0x243185be, 0x550c7dc3, 0x72be5d74, 0x80deb1fe, 0x9bdc06a7, 0xc19bf174,
  0xe49b69c1, 0xefbe4786, 0x0fc19dc6, 0x240ca1cc, 0x2de92c6f, 0x4a7484aa, 0x5cb0a9dc, 0x76f988da,
  0x983e5152, 0xa831c66d, 0xb00327c8, 0xbf597fc7, 0xc6e00bf3, 0xd5a79147, 0x06ca6351, 0x14292967,
  0x27b70a85, 0x2e1b2138, 0x4d2c6dfc, 0x53380d13, 0x650a7354, 0x766a0abb, 0x81c2c92e, 0x92722c85,
  0xa2bfe8a1, 0xa81a664b, 0xc24b8b70, 0xc76c51a3, 0xd192e819, 0xd6990624, 0xf40e3585, 0x106aa070,
  0x19a4c116, 0x1e376c08, 0x2748774c, 0x34b0bcb5, 0x391c0cb3, 0x4ed8aa4a, 0x5b9cca4f, 0x682e6ff3,
  0x748f82ee, 0x78a5636f, 0x84c87814, 0x8cc70208, 0x90befffa, 0xa4506ceb, 0xbef9a3f7, 0xc67178f2]

def add (x y : Nat) : Nat := (x + y) % 2 ^ 32

def rotateRight (x n : Nat) : Nat := (x >>> n) ||| ((x <<< (32 - n)) % 2 ^ 32)

structure Words where
  a : Nat
  b : Nat
  c : Nat
  d : Nat
  e : Nat
  f : Nat
  g : Nat
  h : Nat

def initial : Words :=
  ⟨0x6a09e667, 0xbb67ae85, 0x3c6ef372, 0xa54ff53a, 0x510e527f, 0x9b05688c, 0x1f83d9ab, 0x5be0cd19⟩

def round (s : Words) (constant word : Nat) : Words :=
  let sum1 := rotateRight s.e 6 ^^^ rotateRight s.e 11 ^^^ rotateRight s.e 25
  let choice := (s.e &&& s.f) ^^^ ((0xffffffff ^^^ s.e) &&& s.g)
  let first := (s.h + sum1 + choice + constant + word) % 2 ^ 32
  let sum0 := rotateRight s.a 2 ^^^ rotateRight s.a 13 ^^^ rotateRight s.a 22
  let majority := (s.a &&& s.b) ^^^ (s.a &&& s.c) ^^^ (s.b &&& s.c)
  ⟨add first (add sum0 majority), s.a, s.b, s.c, add s.d first, s.e, s.f, s.g⟩

def schedule0 (x : Nat) : Nat := rotateRight x 7 ^^^ rotateRight x 18 ^^^ (x >>> 3)

def schedule1 (x : Nat) : Nat := rotateRight x 17 ^^^ rotateRight x 19 ^^^ (x >>> 10)

-- The message schedule as a window of the last sixteen words.
def rounds : List Nat → List Nat → Words → Words
  | [], _, s => s
  | _, [], s => s
  | constant :: constants, word :: window, s =>
      let next := (schedule1 (window.getD 13 0) + window.getD 8 0 + schedule0
          (window.getD 0 0) + word) % 2 ^ 32
      rounds constants (window ++ [next]) (round s constant word)

def compress (s : Words) (block : List Nat) : Words :=
  let r := rounds roundConstants block s
  ⟨add s.a r.a, add s.b r.b, add s.c r.c, add s.d r.d, add s.e r.e, add s.f r.f, add s.g r.g, add s.h r.h⟩

def blocks : Nat → List Nat → Words → Words
  | 0, _, s => s
  | count + 1, message, s => blocks count (message.drop 16) (compress s (message.take 16))

def words : Bytes → List Nat
  | a :: b :: c :: d :: rest =>
      (a.toNat * 2 ^ 24 + b.toNat * 2 ^ 16 + c.toNat * 2 ^ 8 + d.toNat) :: words rest
  | _ => []

-- The lowest bytes of a number, most significant first.
def bigEndian (number : Nat) : Nat → Bytes
  | 0 => []
  | width + 1 => UInt8.ofNat (number / 256 ^ width) :: bigEndian number width

theorem big_endian_length (number width : Nat) : (bigEndian number width).length = width := by
  induction width with
  | zero => rfl
  | succ width ih => rw [bigEndian, List.length_cons, ih]

def pad (data : Bytes) : Bytes :=
  data ++ [0x80] ++ List.replicate ((119 - data.length % 64) % 64) 0 ++ bigEndian (8 * data.length) 8

def output (s : Words) : Bytes :=
  bigEndian s.a 4 ++ bigEndian s.b 4 ++ bigEndian s.c 4 ++ bigEndian s.d 4 ++ bigEndian s.e 4 ++
    bigEndian s.f 4 ++
    bigEndian s.g 4 ++ bigEndian s.h 4

theorem output_length (s : Words) : (output s).length = 32 := by
  simp [output, big_endian_length]

def digest (data : Bytes) : Bytes :=
  let padded := pad data
  output (blocks (padded.length / 64) (words padded) initial)

end Sha256

def sha256 : HashFunction := ⟨Sha256.digest, fun _ => Sha256.output_length _⟩

-- The digest of "abc".
example :
    hex (sha256.digest [97, 98, 99]) =
      "ba7816bf8f01cfea414140de5dae2223b00361a396177a9cb410ff61f20015ad" := by
  decide +kernel

end Digest
