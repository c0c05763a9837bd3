import CalibrationLedger.Library.JsonText

set_option autoImplicit false

namespace JsonText

theorem point_of_value (point : CodePoint) (value : Nat) (small : value < 0xD800)
    (same : point.value = value) :
    point = .scalar (Char.ofNat value) := by
  cases point with
  | scalar char =>
      have eq : char.toNat = value := same
      rw [← eq, Char.ofNat_toNat]
  | surrogate unit =>
      simp only [CodePoint.value] at same
      omega

def hexValue (digit : CodePoint) : Nat :=
  if digit.value < 58 then digit.value - 48 else digit.value - 87

theorem hex_value_digit (value : Nat) (small : value < 16) : hexValue (hexDigit value) = value := by
  have all : ∀ n < 16, hexValue (hexDigit n) = n := by decide
  exact all value small

def escapeLetter (letter : CodePoint) : CodePoint :=
  if letter = .scalar 'n' then .scalar '\n'
  else if letter = .scalar 'r' then .scalar '\r'
  else if letter = .scalar 't' then .scalar '\t'
  else if letter = .scalar 'b' then .scalar (Char.ofNat 8)
  else if letter = .scalar 'f' then .scalar (Char.ofNat 12)
  else letter

-- Reads back one escaped code point; only its agreement with escape matters.
def readPoint : Text → Option (CodePoint × Text)
  | [] => none
  | first :: rest =>
      if first = .scalar '\\' then
        match rest with
        | [] => none
        | letter :: tail =>
            if letter = .scalar 'u' then
              match tail with
              | _ :: _ :: high :: low :: left =>
                  some (.scalar (Char.ofNat (16 * hexValue high + hexValue low)), left)
              | _ => none
            else some (escapeLetter letter, tail)
      else some (first, rest)

theorem read_escape (point : CodePoint) (rest : Text) :
    readPoint (escape point ++ rest) = some (point, rest) := by
  unfold escape
  split
  · next same => subst same; rfl
  split
  · next same => subst same; rfl
  split
  · next same => subst same; rfl
  split
  · next same => subst same; rfl
  split
  · next same => subst same; rfl
  split
  · next same => rw [point_of_value point 8 (by decide) same]; rfl
  split
  · next same => rw [point_of_value point 12 (by decide) same]; rfl
  split
  · next control =>
      have high := hex_value_digit (point.value / 16) (by omega)
      have low := hex_value_digit (point.value % 16) (by omega)
      have whole : 16 * (point.value / 16) + point.value % 16 = point.value := by omega
      have read : readPoint
        (text "\\u00" ++ [hexDigit (point.value / 16), hexDigit (point.value % 16)] ++ rest) =
          some (.scalar (Char.ofNat (16 * hexValue (hexDigit (point.value / 16)) +
            hexValue (hexDigit (point.value % 16)))), rest) := rfl
      rw [read, high, low, whole, ← point_of_value point point.value (by omega) rfl]
  · next plain _ _ _ _ _ _ => simp [readPoint, plain]

theorem escape_unique (a b : CodePoint) (s t : Text) (same : escape a ++ s = escape b ++ t) :
    a = b ∧ s = t := by
  have read := congrArg readPoint same
  simpa only [read_escape, Option.some.injEq, Prod.mk.injEq] using read

theorem escape_not_quote (point : CodePoint) (rest tail : Text) :
    escape point ++ rest ≠ .scalar '"' :: tail := by
  intro same
  have read := congrArg readPoint same
  rw [read_escape] at read
  have quote : point = .scalar '"' := by
    have found : readPoint (.scalar '"' :: tail) = some (.scalar '"', tail) := rfl
    rw [found] at read
    exact (Prod.mk.inj (Option.some.inj read)).1
  subst quote
  have heads := congrArg List.head? same
  simp [escape, text] at heads

theorem escape_all_unique (a b : Text) (s t : Text) (same : escapeAll a ++ s = escapeAll b ++ t) :
    a = b ∧ s = t := by
  induction a generalizing b with
  | nil =>
      cases b with
      | nil => exact ⟨rfl, by simpa [escapeAll] using same⟩
      | cons point rest =>
          rw [escapeAll, escapeAll, List.append_assoc] at same
          exact absurd same.symm (escape_not_quote point _ _)
  | cons point rest ih =>
      cases b with
      | nil =>
          rw [escapeAll, escapeAll, List.append_assoc] at same
          exact absurd same (escape_not_quote point _ _)
      | cons other tail =>
          rw [escapeAll, escapeAll, List.append_assoc, List.append_assoc] at same
          obtain ⟨head, onward⟩ := escape_unique _ _ _ _ same
          obtain ⟨body, left⟩ := ih tail onward
          exact ⟨by rw [head, body], left⟩

theorem quoted_unique (a b : Text) (s t : Text) (same : quoted a ++ s = quoted b ++ t) : a = b ∧ s = t :=
  escape_all_unique a b s t (by simpa [quoted] using same)

def tokenPoint : CodePoint → Bool
  | .scalar char => char.isAlphanum || char == '-' || char == '+' || char == '.'
  | .surrogate _ => false

def Token (word : Text) : Prop := ∀ point ∈ word, tokenPoint point = true

-- What may follow a complete value: nothing, a comma or a closing bracket.
def Stops (rest : Text) : Prop := ∀ point, rest.head? = some point → tokenPoint point = false

theorem token_unique (a b s t : Text) (left : Token a) (right : Token b) (leftStops : Stops s)
    (rightStops : Stops t) (same : a ++ s = b ++ t) : a = b ∧ s = t := by
  induction a generalizing b with
  | nil =>
      cases b with
      | nil => exact ⟨rfl, same⟩
      | cons point rest =>
          have stop := leftStops point (by rw [List.nil_append] at same; rw [same]; rfl)
          rw [right point (by simp)] at stop
          cases stop
  | cons point rest ih =>
      cases b with
      | nil =>
          have stop := rightStops point (by rw [List.nil_append] at same; rw [← same]; rfl)
          rw [left point (by simp)] at stop
          cases stop
      | cons other tail =>
          obtain ⟨head, onward⟩ := List.cons.inj same
          obtain ⟨body, remaining⟩ := ih tail (fun p member => left p (by simp [member]))
            (fun p member => right p (by simp [member])) onward
          exact ⟨by rw [head, body], remaining⟩

theorem digit_token (char : Char) (digit : char.isDigit = true) : tokenPoint (.scalar char) = true := by
  simp [tokenPoint, Char.isAlphanum, digit]

theorem decimal_token (number : Int) : Token (decimal number) := by
  have digits : Token ((Nat.toDigits 10 number.natAbs).map CodePoint.scalar) := by
    intro point member
    obtain ⟨char, inside, rfl⟩ := List.mem_map.mp member
    exact digit_token char (Nat.isDigit_of_mem_toDigits (by decide) (by decide) inside)
  unfold decimal
  split
  · intro point member
    rcases List.mem_cons.mp member with minus | inside
    · rw [minus]; rfl
    · exact digits point inside
  · exact digits

theorem digits_injective (a b : Nat)
    (same : (Nat.toDigits 10 a).map CodePoint.scalar = (Nat.toDigits 10 b).map .scalar) :
    a = b := by
  have digits : Nat.toDigits 10 a = Nat.toDigits 10 b :=
    List.map_injective_iff.mpr (fun x y eq => CodePoint.scalar.inj eq) same
  rw [← Nat.ofDigitChars_ten_toDigits (n := a), digits, Nat.ofDigitChars_ten_toDigits]

theorem digits_head (number : Nat) (point : CodePoint)
    (head : ((Nat.toDigits 10 number).map CodePoint.scalar).head? = some point) :
    ∃ char, point = .scalar char ∧ char.isDigit = true := by
  cases digits : Nat.toDigits 10 number with
  | nil => exact absurd digits Nat.toDigits_ne_nil
  | cons char rest =>
      rw [digits] at head
      have same : CodePoint.scalar char = point := Option.some.inj head
      exact ⟨char, same.symm, Nat.isDigit_of_mem_toDigits (b := 10) (n := number) (by decide)
        (by decide) (by rw [digits]; simp)⟩

theorem decimal_head (number : Int) :
    ∃ char rest, decimal number = .scalar char :: rest ∧ (char.isDigit = true ∨ char = '-') := by
  unfold decimal
  split
  · exact ⟨'-', _, rfl, .inr rfl⟩
  · cases digits : (Nat.toDigits 10 number.natAbs).map CodePoint.scalar with
    | nil => exact absurd (List.map_eq_nil_iff.mp digits) Nat.toDigits_ne_nil
    | cons point rest =>
        obtain ⟨char, same, digit⟩ := digits_head number.natAbs point (by rw [digits]; rfl)
        exact ⟨char, rest, by rw [same], .inl digit⟩

theorem decimal_injective (a b : Int) (same : decimal a = decimal b) : a = b := by
  have minus : ∀ n : Nat, ∀ rest, (Nat.toDigits 10 n).map CodePoint.scalar ≠ .scalar '-' :: rest := by
    intro n rest eq
    obtain ⟨char, point, digit⟩ := digits_head n (.scalar '-') (by rw [eq]; rfl)
    cases point
    cases digit
  unfold decimal at same
  split at same
  · split at same
    · have := digits_injective _ _ (List.cons.inj same).2
      omega
    · exact absurd same.symm (minus _ _)
  · split at same
    · exact absurd same (minus _ _)
    · have := digits_injective _ _ same
      omega

-- The documented shape of a number token that is not an integer literal.
structure NumberTokens {φ : Type} (repr : φ → Text) : Prop where
  injective : ∀ a b, repr a = repr b → a = b
  token : ∀ a, Token (repr a)
  nonempty : ∀ a, repr a ≠ []
  notInteger : ∀ a n, repr a ≠ decimal n
  notWord : ∀ a, repr a ≠ text "null" ∧ repr a ≠ text "true" ∧ repr a ≠ text "false"

section

variable {φ : Type} {repr : φ → Text}

def scalarText (repr : φ → Text) : Value φ → Option Text
  | .null => some (text "null")
  | .bool true => some (text "true")
  | .bool false => some (text "false")
  | .int number => some (decimal number)
  | .float number => some (repr number)
  | _ => none

theorem scalar_render (value : Value φ) (word : Text) (scalar : scalarText repr value = some word) :
    render repr value = word := by
  cases value with
  | bool flag => cases flag <;> exact Option.some.inj scalar
  | null => exact Option.some.inj scalar
  | int number => exact Option.some.inj scalar
  | float number => exact Option.some.inj scalar
  | str _ => cases scalar
  | arr _ => cases scalar
  | obj _ => cases scalar

theorem scalar_token (tokens : NumberTokens repr) (value : Value φ) (word : Text)
    (scalar : scalarText repr value = some word) : Token word ∧ word ≠ [] := by
  cases value with
  | null => cases scalar; exact ⟨by unfold Token; decide, by decide⟩
  | bool flag => cases flag <;> cases scalar <;> exact ⟨by unfold Token; decide, by decide⟩
  | int number =>
      cases scalar
      obtain ⟨char, rest, shape, _⟩ := decimal_head number
      exact ⟨decimal_token number, by rw [shape]; simp⟩
  | float number => cases scalar; exact ⟨tokens.token number, tokens.nonempty number⟩
  | str _ => cases scalar
  | arr _ => cases scalar
  | obj _ => cases scalar

theorem decimal_not_word (number : Int) :
    decimal number ≠ text "null" ∧ decimal number ≠ text "true" ∧ decimal number ≠ text "false" := by
  obtain ⟨char, rest, shape, lead⟩ := decimal_head number
  have avoid : ∀ other tail, CodePoint.scalar char :: rest = .scalar other :: tail → other.isDigit = false →
      other ≠ '-' → False := by
    intro other tail eq notDigit notMinus
    have same : char = other := CodePoint.scalar.inj (List.cons.inj eq).1
    subst same
    rcases lead with digit | minus
    · rw [digit] at notDigit; cases notDigit
    · exact notMinus minus
  rw [shape]
  exact ⟨fun eq => avoid 'n' _ eq rfl (by decide), fun eq => avoid 't' _ eq rfl (by decide),
    fun eq => avoid 'f' _ eq rfl (by decide)⟩

-- Bools and null share one shape here: a fixed word no number token can spell.
theorem word_injective (tokens : NumberTokens repr) (a b : Value φ) (word : Text)
    (fixed : word = text "null" ∨ word = text "true" ∨ word = text "false")
    (left : scalarText repr a = some word) (right : scalarText repr b = some word) : a = b := by
  have notDecimal : ∀ n, decimal n ≠ word := by
    rcases fixed with rfl | rfl | rfl
    · exact fun n => (decimal_not_word n).1
    · exact fun n => (decimal_not_word n).2.1
    · exact fun n => (decimal_not_word n).2.2
  have notFloat : ∀ x, repr x ≠ word := by
    rcases fixed with rfl | rfl | rfl
    · exact fun x => (tokens.notWord x).1
    · exact fun x => (tokens.notWord x).2.1
    · exact fun x => (tokens.notWord x).2.2
  have spelled : ∀ value : Value φ, scalarText repr value = some word →
      value = .null ∧ word = text "null" ∨ value = .bool true ∧ word = text "true" ∨
        value = .bool false ∧ word = text "false" := by
    intro value scalar
    cases value with
    | null => exact .inl ⟨rfl, (Option.some.inj scalar).symm⟩
    | bool flag =>
        cases flag with
        | true => exact .inr (.inl ⟨rfl, (Option.some.inj scalar).symm⟩)
        | false => exact .inr (.inr ⟨rfl, (Option.some.inj scalar).symm⟩)
    | int number => exact absurd (Option.some.inj scalar) (notDecimal number)
    | float number => exact absurd (Option.some.inj scalar) (notFloat number)
    | str _ => cases scalar
    | arr _ => cases scalar
    | obj _ => cases scalar
  have apart : text "null" ≠ text "true" ∧ text "null" ≠ text "false" ∧
    text "true" ≠ text "false" := by decide
  rcases spelled a left with ⟨rfl, rfl⟩ | ⟨rfl, rfl⟩ | ⟨rfl, rfl⟩ <;>
    rcases spelled b right with ⟨rfl, same⟩ | ⟨rfl, same⟩ | ⟨rfl, same⟩
  · rfl
  · exact absurd same apart.1
  · exact absurd same apart.2.1
  · exact absurd same.symm apart.1
  · rfl
  · exact absurd same apart.2.2
  · exact absurd same.symm apart.2.1
  · exact absurd same.symm apart.2.2
  · rfl

theorem scalar_injective (tokens : NumberTokens repr) (a b : Value φ) (word : Text)
    (left : scalarText repr a = some word) (right : scalarText repr b = some word) : a = b := by
  cases a with
  | null => exact word_injective tokens _ b word (.inl (Option.some.inj left).symm) left right
  | bool flag =>
      cases flag with
      | true => exact word_injective tokens _ b word (.inr (.inl (Option.some.inj left).symm)) left right
      | false => exact word_injective tokens _ b word (.inr (.inr (Option.some.inj left).symm)) left right
  | int m =>
      have spelled : decimal m = word := Option.some.inj left
      cases b with
      | int n => rw [decimal_injective m n (spelled.trans (Option.some.inj right).symm)]
      | float x => exact absurd ((Option.some.inj right).trans spelled.symm) (tokens.notInteger x m)
      | null => exact absurd (spelled.trans (Option.some.inj right).symm) (decimal_not_word m).1
      | bool flag =>
          cases flag with
          | true => exact absurd (spelled.trans (Option.some.inj right).symm) (decimal_not_word m).2.1
          | false => exact absurd (spelled.trans (Option.some.inj right).symm) (decimal_not_word m).2.2
      | str _ => cases right
      | arr _ => cases right
      | obj _ => cases right
  | float x =>
      have spelled : repr x = word := Option.some.inj left
      cases b with
      | int n => exact absurd (spelled.trans (Option.some.inj right).symm) (tokens.notInteger x n)
      | float y => rw [tokens.injective x y (spelled.trans (Option.some.inj right).symm)]
      | null => exact absurd (spelled.trans (Option.some.inj right).symm) (tokens.notWord x).1
      | bool flag =>
          cases flag with
          | true => exact absurd (spelled.trans (Option.some.inj right).symm) (tokens.notWord x).2.1
          | false => exact absurd (spelled.trans (Option.some.inj right).symm) (tokens.notWord x).2.2
      | str _ => cases right
      | arr _ => cases right
      | obj _ => cases right
  | str _ => cases left
  | arr _ => cases left
  | obj _ => cases left

-- The first code point tells a string, an array and an object from each other
-- and from every scalar.
def opening : Value φ → Option CodePoint
  | .str _ => some (.scalar '"')
  | .arr _ => some (.scalar '[')
  | .obj _ => some (.scalar '\x7b')
  | _ => none

theorem render_head (tokens : NumberTokens repr) (value : Value φ) (rest : Text) :
    ∃ point tail, render repr value ++ rest = point :: tail ∧
      (opening value = some point ∨ opening value = none ∧ tokenPoint point = true) := by
  cases scalar : scalarText repr value with
  | some word =>
      obtain ⟨token, nonempty⟩ := scalar_token tokens value word scalar
      rw [scalar_render value word scalar]
      have closed : opening value = none := by cases value <;> first | rfl | cases scalar
      cases word with
      | nil => exact absurd rfl nonempty
      | cons point tail => exact ⟨point, tail ++ rest, rfl, .inr ⟨closed, token point (by simp)⟩⟩
  | none =>
      cases value with
      | str content => exact ⟨_, _, by rw [render, quoted]; rfl, .inl rfl⟩
      | arr items => exact ⟨_, _, by rw [render]; rfl, .inl rfl⟩
      | obj members => exact ⟨_, _, by rw [render]; rfl, .inl rfl⟩
      | bool flag => cases flag <;> cases scalar
      | null => cases scalar
      | int _ => cases scalar
      | float _ => cases scalar

theorem opening_unique (tokens : NumberTokens repr) (a b : Value φ) (s t : Text)
    (same : render repr a ++ s = render repr b ++ t) : opening a = opening b := by
  obtain ⟨point, tail, shape, lead⟩ := render_head tokens a s
  obtain ⟨other, rest, otherShape, otherLead⟩ := render_head tokens b t
  rw [shape, otherShape] at same
  obtain ⟨rfl, _⟩ := List.cons.inj same
  have noToken : ∀ value : Value φ, ∀ p, opening value = some p → tokenPoint p = false := by
    intro value p found
    cases value <;> cases found <;> rfl
  rcases lead with left | ⟨left, isToken⟩ <;> rcases otherLead with right | ⟨right, otherToken⟩
  · rw [left, right]
  · rw [noToken a point left] at otherToken; cases otherToken
  · rw [noToken b point right] at isToken; cases isToken
  · rw [left, right]

theorem stops_cons (char : Char) (rest : Text) (plain : tokenPoint (.scalar char) = false) :
    Stops (.scalar char :: rest) := by
  intro point head
  have same : CodePoint.scalar char = point := Option.some.inj head
  rw [← same]
  exact plain

theorem items_stop (items : List (Value φ)) (rest : Text) :
    Stops (renderItems repr [.scalar ','] items ++ rest) := by
  cases items with
  | nil => exact stops_cons ']' rest rfl
  | cons item tail => exact stops_cons ',' _ rfl

theorem members_stop (members : List (Text × Value φ)) (rest : Text) :
    Stops (renderMembers repr [.scalar ','] members ++ rest) := by
  cases members with
  | nil => exact stops_cons '\x7d' rest rfl
  | cons entry tail => exact stops_cons ',' _ rfl

-- A lead is a comma or nothing, so a closing bracket cannot open an element.
theorem closing_not_item (tokens : NumberTokens repr) (lead : Text) (comma : lead = [] ∨ lead = [.scalar ','])
    (item : Value φ) (rest tail : Text) : lead ++ (render repr item ++ rest) ≠ .scalar ']' :: tail := by
  intro same
  rcases comma with rfl | rfl
  · obtain ⟨point, left, shape, lead⟩ := render_head tokens item rest
    rw [List.nil_append, shape] at same
    obtain ⟨rfl, _⟩ := List.cons.inj same
    rcases lead with found | ⟨_, token⟩
    · cases item <;> cases found
    · cases token
  · exact absurd (List.cons.inj same).1 (by decide)

theorem closing_not_member (lead : Text) (comma : lead = [] ∨ lead = [.scalar ',']) (key : Text)
    (rest tail : Text) :
    lead ++ (quoted key ++ rest) ≠ .scalar '\x7d' :: tail := by
  intro same
  rcases comma with rfl | rfl
  · exact absurd (List.cons.inj same).1 (by decide)
  · exact absurd (List.cons.inj same).1 (by decide)

mutual
theorem render_unique (tokens : NumberTokens repr) (a b : Value φ) (s t : Text) (leftStops : Stops s)
    (rightStops : Stops t) (same : render repr a ++ s = render repr b ++ t) : a = b ∧ s = t := by
  have opens := opening_unique tokens a b s t same
  cases scalar : scalarText repr a with
  | some word =>
      obtain ⟨other, otherScalar⟩ : ∃ other, scalarText repr b = some other := by
        have closed : opening b = none := by rw [← opens]; cases a <;> first | rfl | cases scalar
        rcases b with _ | (_ | _) | _ | _ | _ | _ | _ <;> first | exact ⟨_, rfl⟩ | cases closed
      rw [scalar_render a word scalar, scalar_render b other otherScalar] at same
      obtain ⟨words, rests⟩ := token_unique word other s t (scalar_token tokens a word scalar).1
        (scalar_token tokens b other otherScalar).1 leftStops rightStops same
      subst words
      exact ⟨scalar_injective tokens a b word scalar otherScalar, rests⟩
  | none =>
      cases a with
      | str content =>
          cases b with
          | str other =>
              obtain ⟨contents, rests⟩ := quoted_unique content other s t same
              exact ⟨by rw [contents], rests⟩
          | null | bool _ | int _ | float _ | arr _ | obj _ => cases opens
      | arr items =>
          cases b with
          | arr others =>
              obtain ⟨inner, rests⟩ := render_items_unique tokens [] (.inl rfl) items others s t
                (List.cons.inj same).2
              exact ⟨by rw [inner], rests⟩
          | null | bool _ | int _ | float _ | str _ | obj _ => cases opens
      | obj members =>
          cases b with
          | obj others =>
              obtain ⟨inner, rests⟩ := render_members_unique tokens [] (.inl rfl) members others s t
                (List.cons.inj same).2
              exact ⟨by rw [inner], rests⟩
          | null | bool _ | int _ | float _ | str _ | arr _ => cases opens
      | bool flag => cases flag <;> cases scalar
      | null => cases scalar
      | int _ => cases scalar
      | float _ => cases scalar
theorem render_items_unique (tokens : NumberTokens repr) (lead : Text)
    (comma : lead = [] ∨ lead = [.scalar ',']) (a b : List (Value φ)) (s t : Text)
    (same : renderItems repr lead a ++ s = renderItems repr lead b ++ t) : a = b ∧ s = t := by
  cases a with
  | nil =>
      cases b with
      | nil => exact ⟨rfl, (List.cons.inj same).2⟩
      | cons item rest =>
          simp only [renderItems, List.append_assoc] at same
          exact absurd same.symm (closing_not_item tokens lead comma item _ _)
  | cons item rest =>
      cases b with
      | nil =>
          simp only [renderItems, List.append_assoc] at same
          exact absurd same (closing_not_item tokens lead comma item _ _)
      | cons other tail =>
          simp only [renderItems, List.append_assoc, List.append_cancel_left_eq] at same
          obtain ⟨head, onward⟩ :=
            render_unique tokens item other _ _ (items_stop rest s) (items_stop tail t) same
          obtain ⟨body, rests⟩ := render_items_unique tokens [.scalar ','] (.inr rfl) rest tail s t onward
          exact ⟨by rw [head, body], rests⟩
theorem render_members_unique (tokens : NumberTokens repr) (lead : Text)
    (comma : lead = [] ∨ lead = [.scalar ',']) (a b : List (Text × Value φ)) (s t : Text)
    (same : renderMembers repr lead a ++ s = renderMembers repr lead b ++ t) : a = b ∧ s = t := by
  cases a with
  | nil =>
      cases b with
      | nil => exact ⟨rfl, (List.cons.inj same).2⟩
      | cons entry rest =>
          obtain ⟨key, value⟩ := entry
          simp only [renderMembers, List.append_assoc] at same
          exact absurd same.symm (closing_not_member lead comma key _ _)
  | cons entry rest =>
      obtain ⟨key, value⟩ := entry
      cases b with
      | nil =>
          simp only [renderMembers, List.append_assoc] at same
          exact absurd same (closing_not_member lead comma key _ _)
      | cons second tail =>
          obtain ⟨other, held⟩ := second
          simp only [renderMembers, List.append_assoc, List.append_cancel_left_eq] at same
          obtain ⟨name, after⟩ := quoted_unique key other _ _ same
          have values : render repr value ++ (renderMembers repr [.scalar ','] rest ++ s) =
              render repr held ++ (renderMembers repr [.scalar ','] tail ++ t) := by
            simpa only [List.append_eq, List.append_assoc] using (List.cons.inj after).2
          obtain ⟨head, onward⟩ :=
            render_unique tokens value held _ _ (members_stop rest s) (members_stop tail t) values
          obtain ⟨body, rests⟩ := render_members_unique tokens [.scalar ','] (.inr rfl) rest tail s t onward
          exact ⟨by rw [name, head, body], rests⟩
end

theorem render_injective (tokens : NumberTokens repr) (a b : Value φ)
    (same : render repr a = render repr b) : a = b :=
  (render_unique tokens a b [] [] (by simp [Stops]) (by simp [Stops]) (by simpa using same)).1

end

end JsonText
