import Mathlib.Data.List.Lex
import Mathlib.Data.List.Sort

set_option autoImplicit false

-- JSON values, their compact text and the proof that the text determines the
-- value. Strings are sequences of code points, lone surrogates included; the
-- number tokens other than integers are a parameter.
namespace JsonText

inductive CodePoint where
  | scalar (char : Char)
  | surrogate (unit : Fin 2048)
deriving DecidableEq

abbrev Text := List CodePoint

def text (literal : String) : Text := literal.toList.map .scalar

def CodePoint.value : CodePoint → Nat
  | .scalar char => char.toNat
  | .surrogate unit => 0xD800 + unit

theorem text_injective (a b : String) (same : text a = text b) : a = b := by
  apply String.toList_inj.mp
  exact List.map_injective_iff.mpr (fun x y eq => CodePoint.scalar.inj eq) same

inductive Value (φ : Type) where
  | null
  | bool (flag : Bool)
  | int (number : Int)
  | float (number : φ)
  | str (content : Text)
  | arr (items : List (Value φ))
  | obj (members : List (Text × Value φ))

mutual
def Value.decEq {φ : Type} [DecidableEq φ] : (a b : Value φ) → Decidable (a = b)
  | .null, .null => isTrue rfl
  | .bool a, .bool b => decidable_of_iff (a = b) (by simp)
  | .int a, .int b => decidable_of_iff (a = b) (by simp)
  | .float a, .float b => decidable_of_iff (a = b) (by simp)
  | .str a, .str b => decidable_of_iff (a = b) (by simp)
  | .arr a, .arr b =>
      match itemsDecEq a b with
      | isTrue same => isTrue (by rw [same])
      | isFalse different => isFalse (by simpa using different)
  | .obj a, .obj b =>
      match membersDecEq a b with
      | isTrue same => isTrue (by rw [same])
      | isFalse different => isFalse (by simpa using different)
  | .null, .bool _ | .null, .int _ | .null, .float _ | .null, .str _ | .null, .arr _ | .null, .obj _
  | .bool _, .null | .bool _, .int _ | .bool _, .float _ | .bool _, .str _ | .bool _, .arr _ | .bool _, .obj _
  | .int _, .null | .int _, .bool _ | .int _, .float _ | .int _, .str _ | .int _, .arr _ | .int _, .obj _
  | .float _, .null | .float _, .bool _ | .float _, .int _ | .float _, .str _ | .float _,
      .arr _ | .float _, .obj _
  | .str _, .null | .str _, .bool _ | .str _, .int _ | .str _, .float _ | .str _, .arr _ | .str _, .obj _
  | .arr _, .null | .arr _, .bool _ | .arr _, .int _ | .arr _, .float _ | .arr _, .str _ | .arr _, .obj _
  | .obj _, .null | .obj _, .bool _ | .obj _, .int _ | .obj _, .float _ | .obj _, .str _ | .obj _, .arr _ =>
      isFalse (by simp)
def itemsDecEq {φ : Type} [DecidableEq φ] : (a b : List (Value φ)) → Decidable (a = b)
  | [], [] => isTrue rfl
  | [], _ :: _ | _ :: _, [] => isFalse (by simp)
  | a :: as, b :: bs =>
      match Value.decEq a b, itemsDecEq as bs with
      | isTrue head, isTrue tail => isTrue (by rw [head, tail])
      | isFalse head, _ => isFalse (by simp [head])
      | _, isFalse tail => isFalse (by simp [tail])
def membersDecEq {φ : Type} [DecidableEq φ] : (a b : List (Text × Value φ)) → Decidable (a = b)
  | [], [] => isTrue rfl
  | [], _ :: _ | _ :: _, [] => isFalse (by simp)
  | (key, a) :: as, (other, b) :: bs =>
      match decEq key other, Value.decEq a b, membersDecEq as bs with
      | isTrue name, isTrue head, isTrue tail => isTrue (by rw [name, head, tail])
      | isFalse name, _, _ => isFalse (by simp [name])
      | _, isFalse head, _ => isFalse (by simp [head])
      | _, _, isFalse tail => isFalse (by simp [tail])
end

instance {φ : Type} [DecidableEq φ] : DecidableEq (Value φ) := Value.decEq

def member {φ : Type} (key : Text) (members : List (Text × Value φ)) : Option (Value φ) :=
  (members.find? fun entry => entry.1 = key).map Prod.snd

def before {φ : Type} (a b : Text × Value φ) : Prop := a.1.map CodePoint.value ≤ b.1.map CodePoint.value

instance {φ : Type} : DecidableRel (before (φ := φ)) := fun _ _ => inferInstanceAs (Decidable (_ ≤ _))

-- Members in code point order at every level; items keep their places.
mutual
def sortKeys {φ : Type} : Value φ → Value φ
  | .arr items => .arr (sortItems items)
  | .obj members => .obj ((sortMembers members).insertionSort before)
  | scalar => scalar
def sortItems {φ : Type} : List (Value φ) → List (Value φ)
  | [] => []
  | item :: rest => sortKeys item :: sortItems rest
def sortMembers {φ : Type} : List (Text × Value φ) → List (Text × Value φ)
  | [] => []
  | (key, value) :: rest => (key, sortKeys value) :: sortMembers rest
end

def hexDigit (value : Nat) : CodePoint := .scalar (Nat.digitChar value)

def decimal (number : Int) : Text :=
  if number < 0 then .scalar '-' :: (Nat.toDigits 10 number.natAbs).map .scalar
  else (Nat.toDigits 10 number.natAbs).map .scalar

-- Quote, backslash and the control characters are escaped, nothing else.
def escape (point : CodePoint) : Text :=
  if point = .scalar '"' then text "\\\""
  else if point = .scalar '\\' then text "\\\\"
  else if point = .scalar '\n' then text "\\n"
  else if point = .scalar '\r' then text "\\r"
  else if point = .scalar '\t' then text "\\t"
  else if point.value = 8 then text "\\b"
  else if point.value = 12 then text "\\f"
  else if point.value < 32 then text "\\u00" ++ [hexDigit (point.value / 16), hexDigit (point.value % 16)]
  else [point]

def escapeAll : Text → Text
  | [] => [.scalar '"']
  | point :: rest => escape point ++ escapeAll rest

def quoted (content : Text) : Text := .scalar '"' :: escapeAll content

section

variable {φ : Type} (repr : φ → Text)

-- The lead is empty before the first element and a comma before every later one.
mutual
def render : Value φ → Text
  | .null => text "null"
  | .bool true => text "true"
  | .bool false => text "false"
  | .int number => decimal number
  | .float number => repr number
  | .str content => quoted content
  | .arr items => .scalar '[' :: renderItems [] items
  | .obj members => .scalar '\x7b' :: renderMembers [] members
def renderItems (lead : Text) : List (Value φ) → Text
  | [] => [.scalar ']']
  | item :: rest => lead ++ (render item ++ renderItems [.scalar ','] rest)
def renderMembers (lead : Text) : List (Text × Value φ) → Text
  | [] => [.scalar '\x7d']
  | (key, value) :: rest =>
      lead ++ (quoted key ++ .scalar ':' :: (render value ++ renderMembers [.scalar ','] rest))
end

end

-- No object repeats a key, at any level.
mutual
def Distinct {φ : Type} : Value φ → Prop
  | .arr items => ItemsDistinct items
  | .obj members => (members.map Prod.fst).Nodup ∧ MembersDistinct members
  | _ => True
def ItemsDistinct {φ : Type} : List (Value φ) → Prop
  | [] => True
  | item :: rest => Distinct item ∧ ItemsDistinct rest
def MembersDistinct {φ : Type} : List (Text × Value φ) → Prop
  | [] => True
  | (_, value) :: rest => Distinct value ∧ MembersDistinct rest
end

-- How deep arrays and objects stand in one another.
mutual
def Value.depth {φ : Type} : Value φ → Nat
  | .arr items => itemsDepth items + 1
  | .obj members => membersDepth members + 1
  | _ => 0
def itemsDepth {φ : Type} : List (Value φ) → Nat
  | [] => 0
  | item :: rest => max item.depth (itemsDepth rest)
def membersDepth {φ : Type} : List (Text × Value φ) → Nat
  | [] => 0
  | (_, value) :: rest => max value.depth (membersDepth rest)
end

theorem members_depth_le {φ : Type} (members : List (Text × Value φ)) (bound : Nat) :
    membersDepth members ≤ bound ↔ ∀ entry ∈ members, entry.2.depth ≤ bound := by
  induction members with
  | nil => simp [membersDepth]
  | cons entry rest ih => simp [membersDepth, ih]

theorem member_depth {φ : Type} (key : Text) (members : List (Text × Value φ)) (value : Value φ)
    (found : member key members = some value) : value.depth < (Value.obj members).depth := by
  obtain ⟨entry, held, rfl⟩ := Option.map_eq_some_iff.mp found
  have inside := (members_depth_le members _).mp le_rfl entry (List.mem_of_find?_eq_some held)
  rw [Value.depth]
  omega

theorem items_distinct_iff {φ : Type} (items : List (Value φ)) :
    ItemsDistinct items ↔ ∀ item ∈ items, Distinct item := by
  induction items with
  | nil => simp [ItemsDistinct]
  | cons item rest ih => simp [ItemsDistinct, ih]

theorem members_distinct_iff {φ : Type} (members : List (Text × Value φ)) :
    MembersDistinct members ↔ ∀ entry ∈ members, Distinct entry.2 := by
  induction members with
  | nil => simp [MembersDistinct]
  | cons entry rest ih => simp [MembersDistinct, ih]

end JsonText
