import CalibrationLedger.Library.JsonOrder
import CalibrationLedger.Python

set_option autoImplicit false

namespace CalibrationLedger

open JsonText Digest

mutual
def nonFinite : Json → Bool
  | .float (.finite _) => false
  | .float _ => true
  | .arr items => itemsNonFinite items
  | .obj members => membersNonFinite members
  | _ => false
def itemsNonFinite : List Json → Bool
  | [] => false
  | item :: rest => nonFinite item || itemsNonFinite rest
def membersNonFinite : Dict → Bool
  | [] => false
  | (_, value) :: rest => nonFinite value || membersNonFinite rest
end

-- json.dumps with allow_nan=False, sort_keys=True and compact separators.
def dumps (rt : Runtime) (value : Json) : Py Text :=
  if nonFinite value then .error .valueError else .ok (render (jsonFloat rt.floatRepr) (sortKeys value))

def encodeUtf8 : Text → Py Bytes
  | [] => .ok []
  | .scalar char :: rest => (encodeUtf8 rest).map (String.utf8EncodeChar char ++ ·)
  | .surrogate _ :: _ => .error .valueError

-- Integers of more than 4300 digits, which json.loads refuses as json.dumps does, and
-- values nested too deep for the stack are left out.
def canonicalJson (rt : Runtime) (value : Json) : Py Bytes :=
  match dumps rt value with
  | .ok content => encodeUtf8 content
  | .error error => .error error

def sha256Hex (rt : Runtime) (data : Bytes) : String := hex (rt.digest data)

def digestJson (rt : Runtime) (value : Json) : Py String := (canonicalJson rt value).map (sha256Hex rt)

theorem encode_utf8_ok (content : Text) (data : Bytes) :
    encodeUtf8 content = .ok data ↔
      ∃ chars : List Char, content = chars.map .scalar ∧ data = chars.flatMap String.utf8EncodeChar := by
  induction content generalizing data with
  | nil =>
      constructor
      · intro encoded
        exact ⟨[], rfl, (Except.ok.inj encoded).symm⟩
      · rintro ⟨chars, shape, rfl⟩
        rw [List.map_eq_nil_iff.mp shape.symm]
        rfl
  | cons point rest ih =>
      cases point with
      | surrogate unit =>
          constructor
          · intro encoded
            cases encoded
          · rintro ⟨chars, shape, _⟩
            cases chars <;> simp at shape
      | scalar char =>
          constructor
          · intro encoded
            rw [encodeUtf8] at encoded
            cases tail : encodeUtf8 rest with
            | error error => rw [tail] at encoded; cases encoded
            | ok left =>
                rw [tail] at encoded
                obtain ⟨chars, shape, bytes⟩ := (ih left).mp tail
                refine ⟨char :: chars, by rw [shape]; rfl, ?_⟩
                rw [← Except.ok.inj encoded, bytes]
                rfl
          · rintro ⟨chars, shape, rfl⟩
            cases chars with
            | nil => simp at shape
            | cons head tail =>
                obtain ⟨same, others⟩ := List.cons.inj shape
                cases same
                rw [encodeUtf8, (ih _).mpr ⟨tail, others, rfl⟩]
                rfl

theorem utf8_injective (a b : List Char)
    (same : a.flatMap String.utf8EncodeChar = b.flatMap String.utf8EncodeChar) :
    a = b := by
  have strings : String.ofList a = String.ofList b := by
    apply String.toByteArray_inj.mp
    rw [String.toByteArray_ofList, String.toByteArray_ofList, List.utf8Encode, List.utf8Encode, same]
  simpa using congrArg String.toList strings

theorem encode_utf8_injective (a b : Text) (data : Bytes) (left : encodeUtf8 a = .ok data)
    (right : encodeUtf8 b = .ok data) : a = b := by
  obtain ⟨chars, rfl, shape⟩ := (encode_utf8_ok a data).mp left
  obtain ⟨others, rfl, same⟩ := (encode_utf8_ok b data).mp right
  rw [utf8_injective chars others (shape.symm.trans same)]

-- Equal canonical bytes: equal values once members stand in key order.
theorem canonical_json_injective (rt : Runtime) (a b : Json) (data : Bytes)
    (left : canonicalJson rt a = .ok data) (right : canonicalJson rt b = .ok data) :
    sortKeys a = sortKeys b := by
  unfold canonicalJson dumps at left right
  by_cases leftFinite : nonFinite a = true
  · simp [leftFinite] at left
  by_cases rightFinite : nonFinite b = true
  · simp [rightFinite] at right
  simp only [leftFinite, rightFinite] at left right
  exact render_injective rt.floatTokens _ _ (encode_utf8_injective _ _ data left right)

-- Values json.dumps and the UTF-8 encoder both accept.
def Scalars (content : Text) : Prop := ∃ chars : List Char, content = chars.map .scalar

theorem text_scalars (literal : String) : Scalars (text literal) := ⟨literal.toList, rfl⟩

theorem scalars_iff (content : Text) : Scalars content ↔ ∀ point ∈ content, ∃ char, point = .scalar char := by
  constructor
  · rintro ⟨chars, rfl⟩ point inside
    obtain ⟨char, _, rfl⟩ := List.mem_map.mp inside
    exact ⟨char, rfl⟩
  · intro scalars
    induction content with
    | nil => exact ⟨[], rfl⟩
    | cons point rest ih =>
        obtain ⟨char, rfl⟩ := scalars point List.mem_cons_self
        obtain ⟨chars, rfl⟩ := ih fun later inside => scalars later (List.mem_cons_of_mem _ inside)
        exact ⟨char :: chars, rfl⟩

theorem scalars_append_iff (a b : Text) : Scalars (a ++ b) ↔ Scalars a ∧ Scalars b := by
  simp only [scalars_iff, List.mem_append, or_imp, forall_and]

theorem scalars_cons_iff (point : CodePoint) (rest : Text) :
    Scalars (point :: rest) ↔ (∃ char, point = .scalar char) ∧ Scalars rest := by
  simp only [scalars_iff, List.forall_mem_cons]

theorem scalars_append (a b : Text) (left : Scalars a) (right : Scalars b) : Scalars (a ++ b) := by
  obtain ⟨chars, rfl⟩ := left
  obtain ⟨others, rfl⟩ := right
  exact ⟨chars ++ others, by simp⟩

theorem scalars_cons (char : Char) (rest : Text) (tail : Scalars rest) : Scalars (.scalar char :: rest) :=
  scalars_append [.scalar char] rest ⟨[char], rfl⟩ tail

theorem token_scalars (word : Text) (token : Token word) : Scalars word := by
  induction word with
  | nil => exact ⟨[], rfl⟩
  | cons point rest ih =>
      have head := token point (by simp)
      have tail := ih fun p member => token p (by simp [member])
      cases point with
      | scalar char => exact scalars_cons char rest tail
      | surrogate unit => cases head

mutual
def encodable : Json → Prop
  | .float (.finite _) => True
  | .float _ => False
  | .str content => Scalars content
  | .arr items => itemsEncodable items
  | .obj members => membersEncodable members
  | _ => True
def itemsEncodable : List Json → Prop
  | [] => True
  | item :: rest => encodable item ∧ itemsEncodable rest
def membersEncodable : Dict → Prop
  | [] => True
  | (key, value) :: rest => Scalars key ∧ encodable value ∧ membersEncodable rest
end

theorem escape_scalars (char : Char) : Scalars (escape (.scalar char)) := by
  unfold escape
  split
  · exact text_scalars _
  split
  · exact text_scalars _
  split
  · exact text_scalars _
  split
  · exact text_scalars _
  split
  · exact text_scalars _
  split
  · exact text_scalars _
  split
  · exact text_scalars _
  split
  · exact scalars_append _ _ (text_scalars _) ⟨[_, _], rfl⟩
  · exact ⟨[char], rfl⟩

theorem quoted_scalars (content : Text) (scalars : Scalars content) : Scalars (quoted content) := by
  obtain ⟨chars, rfl⟩ := scalars
  refine scalars_cons '"' _ ?_
  induction chars with
  | nil => exact ⟨['"'], rfl⟩
  | cons char rest ih => exact scalars_append _ _ (escape_scalars char) ih

theorem quoted_scalars_iff (content : Text) : Scalars (quoted content) ↔ Scalars content := by
  refine ⟨fun scalars => ?_, quoted_scalars content⟩
  have inner := ((scalars_cons_iff _ _).mp scalars).2
  induction content with
  | nil => exact ⟨[], rfl⟩
  | cons point rest ih =>
      obtain ⟨head, tail⟩ := (scalars_append_iff (escape point) (escapeAll rest)).mp inner
      refine (scalars_cons_iff point rest).mpr ⟨?_, ih (scalars_cons '"' _ tail) tail⟩
      cases point with
      | scalar char => exact ⟨char, rfl⟩
      | surrogate unit =>
          have large : 0xD800 ≤ (CodePoint.surrogate unit).value := Nat.le_add_right _ _
          have kept : escape (.surrogate unit) = [.surrogate unit] := by
            simp only [escape, reduceCtorEq, if_false]
            rw [if_neg (by omega), if_neg (by omega), if_neg (by omega)]
          rw [kept] at head
          exact ((scalars_cons_iff _ _).mp head).1

mutual
theorem render_scalars (rt : Runtime) (value : Json) (accepted : encodable value) :
    Scalars (render (jsonFloat rt.floatRepr) value) := by
  cases value with
  | null => exact text_scalars "null"
  | bool flag => cases flag <;> exact text_scalars _
  | int number => exact token_scalars _ (decimal_token number)
  | float number => exact token_scalars _ (rt.floatTokens.token number)
  | str content => exact quoted_scalars content accepted
  | arr items => exact scalars_cons '[' _ (render_items_scalars rt [] ⟨[], rfl⟩ items accepted)
  | obj members => exact scalars_cons '\x7b' _ (render_members_scalars rt [] ⟨[], rfl⟩ members accepted)
theorem render_items_scalars (rt : Runtime) (lead : Text) (leads : Scalars lead) (items : List Json)
    (accepted : itemsEncodable items) : Scalars (renderItems (jsonFloat rt.floatRepr) lead items) := by
  cases items with
  | nil => exact ⟨[']'], rfl⟩
  | cons item rest =>
      exact scalars_append _ _ leads (scalars_append _ _ (render_scalars rt item accepted.1)
        (render_items_scalars rt _ ⟨[','], rfl⟩ rest accepted.2))
theorem render_members_scalars (rt : Runtime) (lead : Text) (leads : Scalars lead) (members : Dict)
    (accepted : membersEncodable members) :
    Scalars (renderMembers (jsonFloat rt.floatRepr) lead members) := by
  cases members with
  | nil => exact ⟨['\x7d'], rfl⟩
  | cons entry rest =>
      obtain ⟨key, value⟩ := entry
      exact scalars_append _ _ leads (scalars_append _ _ (quoted_scalars key accepted.1)
        (scalars_cons ':' _ (scalars_append _ _ (render_scalars rt value accepted.2.1)
          (render_members_scalars rt _ ⟨[','], rfl⟩ rest accepted.2.2))))
end

theorem members_encodable_iff (members : Dict) :
    membersEncodable members ↔ ∀ entry ∈ members, Scalars entry.1 ∧ encodable entry.2 := by
  induction members with
  | nil => simp [membersEncodable]
  | cons entry rest ih =>
      obtain ⟨key, value⟩ := entry
      simp only [membersEncodable, ih, List.forall_mem_cons, and_assoc]

theorem items_encodable_iff (items : List Json) : itemsEncodable items ↔ ∀ item ∈ items, encodable item := by
  induction items with
  | nil => simp [itemsEncodable]
  | cons item rest ih => simp only [itemsEncodable, ih, List.forall_mem_cons]

mutual
theorem sort_keys_encodable (value : Json) (accepted : encodable value) : encodable (sortKeys value) := by
  cases value with
  | arr items => exact sort_items_encodable items accepted
  | obj members =>
      have sorted := (members_encodable_iff _).mp (sort_members_encodable members accepted)
      exact (members_encodable_iff _).mpr fun entry inside =>
        sorted entry ((List.perm_insertionSort before _).mem_iff.mp inside)
  | null => exact accepted
  | bool _ => exact accepted
  | int _ => exact accepted
  | float _ => exact accepted
  | str _ => exact accepted
theorem sort_items_encodable (items : List Json) (accepted : itemsEncodable items) :
    itemsEncodable (sortItems items) := by
  cases items with
  | nil => trivial
  | cons item rest => exact ⟨sort_keys_encodable item accepted.1, sort_items_encodable rest accepted.2⟩
theorem sort_members_encodable (members : Dict) (accepted : membersEncodable members) :
    membersEncodable (sortMembers members) := by
  cases members with
  | nil => trivial
  | cons entry rest =>
      exact ⟨accepted.1, sort_keys_encodable entry.2 accepted.2.1, sort_members_encodable rest accepted.2.2⟩
end

mutual
theorem encodable_finite (value : Json) (accepted : encodable value) : nonFinite value = false := by
  cases value with
  | float number =>
      cases number with
      | finite _ => rfl
      | nan => exact False.elim accepted
      | infinity _ => exact False.elim accepted
  | arr items => exact items_finite items accepted
  | obj members => exact members_finite members accepted
  | null => rfl
  | bool _ => rfl
  | int _ => rfl
  | str _ => rfl
theorem items_finite (items : List Json) (accepted : itemsEncodable items) :
    itemsNonFinite items = false := by
  cases items with
  | nil => rfl
  | cons item rest => rw [itemsNonFinite, encodable_finite item accepted.1, items_finite rest accepted.2]; rfl
theorem members_finite (members : Dict) (accepted : membersEncodable members) :
    membersNonFinite members = false := by
  cases members with
  | nil => rfl
  | cons entry rest =>
      rw [membersNonFinite, encodable_finite entry.2 accepted.2.1, members_finite rest accepted.2.2]
      rfl
end

theorem canonical_json_accepts (rt : Runtime) (value : Json) (accepted : encodable value) :
    ∃ data, canonicalJson rt value = .ok data := by
  obtain ⟨chars, shape⟩ := render_scalars rt (sortKeys value) (sort_keys_encodable value accepted)
  refine ⟨chars.flatMap String.utf8EncodeChar, ?_⟩
  rw [canonicalJson, dumps, encodable_finite value accepted]
  exact (encode_utf8_ok _ _).mpr ⟨chars, shape, rfl⟩

mutual
theorem rendered_encodable (rt : Runtime) (value : Json) (finite : nonFinite value = false)
    (scalars : Scalars (render (jsonFloat rt.floatRepr) value)) : encodable value := by
  cases value with
  | null => trivial
  | bool _ => trivial
  | int _ => trivial
  | float number =>
      cases number with
      | finite _ => trivial
      | nan => cases finite
      | infinity _ => cases finite
  | str content => exact (quoted_scalars_iff content).mp scalars
  | arr items => exact rendered_items_encodable rt [] items finite ((scalars_cons_iff _ _).mp scalars).2
  | obj members => exact rendered_members_encodable rt [] members finite ((scalars_cons_iff _ _).mp scalars).2
theorem rendered_items_encodable (rt : Runtime) (lead : Text) (items : List Json)
    (finite : itemsNonFinite items = false)
    (scalars : Scalars (renderItems (jsonFloat rt.floatRepr) lead items)) : itemsEncodable items := by
  cases items with
  | nil => trivial
  | cons item rest =>
      obtain ⟨first, later⟩ := Bool.or_eq_false_iff.mp finite
      obtain ⟨_, scalars⟩ := (scalars_append_iff _ _).mp scalars
      obtain ⟨head, tail⟩ := (scalars_append_iff _ _).mp scalars
      exact ⟨rendered_encodable rt item first head, rendered_items_encodable rt _ rest later tail⟩
theorem rendered_members_encodable (rt : Runtime) (lead : Text) (members : Dict)
    (finite : membersNonFinite members = false)
    (scalars : Scalars (renderMembers (jsonFloat rt.floatRepr) lead members)) :
    membersEncodable members := by
  cases members with
  | nil => trivial
  | cons entry rest =>
      obtain ⟨key, value⟩ := entry
      obtain ⟨first, later⟩ := Bool.or_eq_false_iff.mp finite
      obtain ⟨_, scalars⟩ := (scalars_append_iff _ _).mp scalars
      obtain ⟨named, scalars⟩ := (scalars_append_iff _ _).mp scalars
      obtain ⟨head, tail⟩ := (scalars_append_iff _ _).mp ((scalars_cons_iff _ _).mp scalars).2
      exact ⟨(quoted_scalars_iff key).mp named, rendered_encodable rt value first head,
        rendered_members_encodable rt _ rest later tail⟩
end

mutual
theorem sorted_encodable (value : Json) (accepted : encodable (sortKeys value)) : encodable value := by
  cases value with
  | arr items => exact sorted_items_encodable items accepted
  | obj members =>
      have entries := (members_encodable_iff _).mp accepted
      exact sorted_members_encodable members ((members_encodable_iff _).mpr fun entry inside =>
        entries entry ((List.perm_insertionSort before _).mem_iff.mpr inside))
  | null => exact accepted
  | bool _ => exact accepted
  | int _ => exact accepted
  | float _ => exact accepted
  | str _ => exact accepted
theorem sorted_items_encodable (items : List Json) (accepted : itemsEncodable (sortItems items)) :
    itemsEncodable items := by
  cases items with
  | nil => trivial
  | cons item rest => exact ⟨sorted_encodable item accepted.1, sorted_items_encodable rest accepted.2⟩
theorem sorted_members_encodable (members : Dict) (accepted : membersEncodable (sortMembers members)) :
    membersEncodable members := by
  cases members with
  | nil => trivial
  | cons entry rest =>
      obtain ⟨key, value⟩ := entry
      exact ⟨accepted.1, sorted_encodable value accepted.2.1, sorted_members_encodable rest accepted.2.2⟩
end

theorem members_finite_iff (members : Dict) :
    membersNonFinite members = false ↔ ∀ entry ∈ members, nonFinite entry.2 = false := by
  induction members with
  | nil => simp [membersNonFinite]
  | cons entry rest ih => simp only [membersNonFinite, Bool.or_eq_false_iff, ih, List.forall_mem_cons]

mutual
theorem sort_keys_finite (value : Json) (finite : nonFinite value = false) :
    nonFinite (sortKeys value) = false := by
  cases value with
  | arr items => exact sort_items_finite items finite
  | obj members =>
      have sorted := (members_finite_iff _).mp (sort_members_finite members finite)
      exact (members_finite_iff _).mpr fun entry inside =>
        sorted entry ((List.perm_insertionSort before _).mem_iff.mp inside)
  | null => exact finite
  | bool _ => exact finite
  | int _ => exact finite
  | float _ => exact finite
  | str _ => exact finite
theorem sort_items_finite (items : List Json) (finite : itemsNonFinite items = false) :
    itemsNonFinite (sortItems items) = false := by
  cases items with
  | nil => rfl
  | cons item rest =>
      obtain ⟨first, later⟩ := Bool.or_eq_false_iff.mp finite
      exact Bool.or_eq_false_iff.mpr ⟨sort_keys_finite item first, sort_items_finite rest later⟩
theorem sort_members_finite (members : Dict) (finite : membersNonFinite members = false) :
    membersNonFinite (sortMembers members) = false := by
  cases members with
  | nil => rfl
  | cons entry rest =>
      obtain ⟨first, later⟩ := Bool.or_eq_false_iff.mp finite
      exact Bool.or_eq_false_iff.mpr ⟨sort_keys_finite entry.2 first, sort_members_finite rest later⟩
end

theorem encode_utf8_scalars (content : Text) : (∃ data, encodeUtf8 content = .ok data) ↔ Scalars content := by
  constructor
  · rintro ⟨data, encoded⟩
    obtain ⟨chars, shape, _⟩ := (encode_utf8_ok content data).mp encoded
    exact ⟨chars, shape⟩
  · rintro ⟨chars, shape⟩
    exact ⟨_, (encode_utf8_ok content _).mpr ⟨chars, shape, rfl⟩⟩

theorem canonical_json_encodable (rt : Runtime) (value : Json) (data : Bytes)
    (written : canonicalJson rt value = .ok data) :
    encodable value := by
  cases finite : nonFinite value with
  | true => simp [canonicalJson, dumps, finite] at written
  | false =>
      simp only [canonicalJson, dumps, finite] at written
      have scalars := (encode_utf8_scalars _).mp ⟨data, written⟩
      refine sorted_encodable value (rendered_encodable rt _ ?_ scalars)
      exact sort_keys_finite value finite

end CalibrationLedger
