import Mathlib.Algebra.Group.Int.Defs
import Mathlib.Algebra.Group.Nat.Defs
import CalibrationLedger.Library.Digest
import CalibrationLedger.Library.JsonUnique

set_option autoImplicit false

-- The Python values, exceptions and library calls the ledger's code relies on. Memory
-- is taken to be large enough, and so is the call stack but where a parsed value of any
-- nesting is turned into text.
namespace CalibrationLedger

open JsonText Digest

-- A finite double in lowest terms, (-1)^negative * mantissa * 2^exponent. Both
-- zeros are kept, since their texts differ.
structure FiniteFloat where
  negative : Bool
  mantissa : Nat
  exponent : Int
  lowest : mantissa % 2 = 1 ∨ mantissa = 0 ∧ exponent = 0
deriving DecidableEq

inductive PyFloat where
  | finite (number : FiniteFloat)
  | nan
  | infinity (negative : Bool)
deriving DecidableEq

abbrev Json := Value PyFloat
abbrev Dict := List (Text × Json)

structure LedgerError where
  code : String
  message : Text
  statusCode : Nat
  details : List (String × Json)
deriving DecidableEq

inductive PyError where
  | keyError
  | typeError
  | valueError
  | attributeError
  | indexError
  | overflowError
  | recursionError
  | integrityError
  | keyConfiguration (message : Text)
  | ledger (error : LedgerError)
deriving DecidableEq

abbrev Py (α : Type) := Except PyError α

-- Microseconds since 0001-01-01T00:00:00 on some wall clock, up to the end of
-- year 9999: the range of datetime.
def endOfTime : Nat := 3652059 * 86400000000

structure Instant where
  micros : Nat
  bound : micros < endOfTime
deriving DecidableEq

-- offset is utcoffset() in microseconds, absent for a naive value.
structure DateTime where
  wall : Instant
  offset : Option Int
deriving DecidableEq

def jsonFloat (floatRepr : FiniteFloat → Text) : PyFloat → Text
  | .finite number => floatRepr number
  | .nan => text "NaN"
  | .infinity false => text "Infinity"
  | .infinity true => text "-Infinity"

-- The parts of the interpreter and its standard library that stay parameters:
-- hashlib.sha256, float.__repr__, str() of a list or dict, int() of a string,
-- datetime.fromisoformat, the text of an encoding error, and the values on which str()
-- and json.dumps with these settings of allow_nan and sort_keys end in a RecursionError.
structure Runtime extends HashFunction where
  floatRepr : FiniteFloat → Text
  floatTokens : NumberTokens (jsonFloat floatRepr)
  containerStr : Json → Text
  intOfText : Text → Option Int
  fromisoformat : Text → Option DateTime
  encodingErrorText : Json → String
  nesting : Nat
  roomy : 3 ≤ nesting
  strExhausts : Json → Bool
  strFits : ∀ value : Json, value.depth ≤ nesting → strExhausts value = false
  dumpsExhausts : (allowNan sortKeys : Bool) → Json → Bool
  dumpsFits : ∀ (allowNan sortKeys : Bool) (value : Json), value.depth ≤ nesting →
    dumpsExhausts allowNan sortKeys value = false

def FiniteFloat.truncate (number : FiniteFloat) : Int :=
  let size : Nat :=
    if 0 ≤ number.exponent then number.mantissa * 2 ^ number.exponent.toNat
    else number.mantissa / 2 ^ (-number.exponent).toNat
  if number.negative then -(size : Int) else size

def pyStr (rt : Runtime) : Json → Text
  | .null => text "None"
  | .bool true => text "True"
  | .bool false => text "False"
  | .int number => decimal number
  | .float (.finite number) => rt.floatRepr number
  | .float .nan => text "nan"
  | .float (.infinity false) => text "inf"
  | .float (.infinity true) => text "-inf"
  | .str content => content
  | container => rt.containerStr container

def pyInt (rt : Runtime) : Json → Py Int
  | .bool flag => .ok (if flag then 1 else 0)
  | .int number => .ok number
  | .float (.finite number) => .ok number.truncate
  | .float .nan => .error .valueError
  | .float (.infinity _) => .error .overflowError
  | .str content =>
      match rt.intOfText content with
      | some number => .ok number
      | none => .error .valueError
  | .null => .error .typeError
  | .arr _ => .error .typeError
  | .obj _ => .error .typeError

-- data[key] for a string key.
def subscript (key : String) : Json → Py Json
  | .obj members =>
      match member (text key) members with
      | some value => .ok value
      | none => .error .keyError
  | _ => .error .typeError

-- data.get(key) on a dict.
def getItem (key : String) (members : Dict) : Json := (member (text key) members).getD .null

-- The members of a value already known to be a dict.
def dictOf : Json → Dict
  | .obj members => members
  | _ => []

-- Iterating a JSON value: a dict yields its keys, a string its characters.
def iterate : Json → Py (List Json)
  | .arr items => .ok items
  | .obj members => .ok (members.map fun entry => .str entry.1)
  | .str content => .ok (content.map fun point => .str [point])
  | _ => .error .typeError

-- Numbers compare by value across int, float and bool.
def numericValue : Json → Option (Int × Int)
  | .bool flag => some (if flag then 1 else 0, 0)
  | .int number => some (number, 0)
  | .float (.finite number) =>
      some (if number.negative then -number.mantissa else number.mantissa, number.exponent)
  | _ => none

def sameNumber (a b : Int × Int) : Bool :=
  let low := min a.2 b.2
  a.1 * 2 ^ (a.2 - low).toNat == b.1 * 2 ^ (b.2 - low).toNat

def isNan : Json → Bool
  | .float .nan => true
  | _ => false

-- a == b: floats of the same sign of infinity agree, NaN agrees with nothing,
-- dicts agree when every key of one is a key of the other with an equal value.
-- Inside a container one object is equal to itself, and json.loads makes every
-- NaN the same object.
mutual
def pyEq : Json → Json → Bool
  | .null, other => other = .null
  | .str content, other => other = .str content
  | .float (.infinity sign), other => other = .float (.infinity sign)
  | .float .nan, _ => false
  | .arr items, .arr others => itemsEq items others
  | .obj members, .obj others => members.length == others.length && membersEq members others
  | a, b =>
      match numericValue a, numericValue b with
      | some left, some right => sameNumber left right
      | _, _ => false
def itemsEq : List Json → List Json → Bool
  | [], [] => true
  | a :: as, b :: bs => (isNan a && isNan b || pyEq a b) && itemsEq as bs
  | _, _ => false
def membersEq : Dict → Dict → Bool
  | [], _ => true
  | (key, value) :: rest, others =>
      (match member key others with
        | some held => isNan value && isNan held || pyEq value held
        | none => false) && membersEq rest others
end

-- text.replace(pattern, replacement), leftmost occurrences first.
def replaceFrom (pattern replacement : Text) : Nat → Text → Text
  | _, [] => []
  | skip + 1, _ :: rest => replaceFrom pattern replacement skip rest
  | 0, point :: rest =>
      if pattern.isPrefixOf (point :: rest) then
        replacement ++ replaceFrom pattern replacement (pattern.length - 1) rest
      else point :: replaceFrom pattern replacement 0 rest

def replace (pattern replacement : String) (content : Text) : Text :=
  replaceFrom (text pattern) (text replacement) 0 content

def paddedDigits : Nat → Nat → List Char
  | 0, _ => []
  | width + 1, number => paddedDigits width (number / 10) ++ [Nat.digitChar (number % 10)]

-- Proleptic Gregorian year, month and day of a day count from 0001-01-01. Years
-- start in March here, so that the leap day comes last.
def civil (days : Nat) : Nat × Nat × Nat :=
  let shifted := days + 306
  let era := shifted / 146097
  let day := shifted % 146097
  let year := (day - day / 1460 + day / 36524 - day / 146096) / 365
  let ordinal := day - (365 * year + year / 4 - year / 100)
  let month := (5 * ordinal + 2) / 153
  (era * 400 + year + (if month < 10 then 0 else 1), if month < 10 then month + 3 else month - 9,
    ordinal - (153 * month + 2) / 5 + 1)

def isoDigits (instant : Instant) : List Char :=
  let (year, month, day) := civil (instant.micros / 86400000000)
  let clock := instant.micros % 86400000000
  paddedDigits 4 year ++ '-' :: paddedDigits 2 month ++ '-' :: paddedDigits 2 day ++ 'T' ::
    paddedDigits 2 (clock / 3600000000) ++ ':' :: paddedDigits 2 (clock / 60000000 % 60) ++ ':' ::
    paddedDigits 2 (clock / 1000000 % 60) ++ '.' :: paddedDigits 6 (clock % 1000000)

-- isoformat(timespec="microseconds") of a value in UTC.
def isoformat (instant : Instant) : Text := (isoDigits instant).map .scalar ++ text "+00:00"

-- astimezone(UTC), a naive value being taken as UTC already.
def DateTime.toUtc (value : DateTime) : Py Instant :=
  match value.offset with
  | none => .ok value.wall
  | some offset =>
      let shifted := (value.wall.micros : Int) - offset
      if bound : 0 ≤ shifted ∧
        shifted < endOfTime then .ok ⟨shifted.toNat, by omega⟩ else .error .overflowError

def isoformatUtc (value : DateTime) : Py Text := do
  let instant ← value.toUtc
  return replace "+00:00" "Z" (isoformat instant)

structure Uuid where
  bytes : Bytes
  size : bytes.length = 16
deriving DecidableEq

def Uuid.toText (id : Uuid) : String :=
  let digits := hexDigits id.bytes
  String.ofList (digits.take 8 ++ '-' :: (digits.drop 8).take 4 ++ '-' :: (digits.drop 12).take 4 ++ '-' ::
    (digits.drop 16).take 4 ++ '-' :: digits.drop 20)

end CalibrationLedger
