import CalibrationLedger.MerkleTree

set_option autoImplicit false

-- Every consistency proof the source builds is one its verifier accepts. The
-- verifier walks up two trees by the bits of two sizes; a subtree is walked in the
-- same way whether it is the whole tree, a left part or a right part of one.
namespace CalibrationLedger

open Digest HashTree

variable (h : HashFunction)

-- The part of the tree the walk starts from, and the hashes it then takes in.
def anchor (m : Nat) (items : List Bytes) : Bytes :=
  if m = items.length ∨ items.length < 2 then merkleRoot h items
  else
    let k := split items.length
    if m ≤ k then anchor m (items.take k) else anchor (m - k) (items.drop k)
termination_by items.length
decreasing_by
  · have bound := split_lt items.length (by omega)
    simpa using bound
  · have bound := split_pos items.length
    rw [List.length_drop]
    omega

def siblings (m : Nat) (items : List Bytes) : List Bytes :=
  if m = items.length ∨ items.length < 2 then []
  else
    let k := split items.length
    if m ≤ k then siblings m (items.take k) ++ [merkleRoot h (items.drop k)]
    else siblings (m - k) (items.drop k) ++ [merkleRoot h (items.take k)]
termination_by items.length
decreasing_by
  · have bound := split_lt items.length (by omega)
    simpa using bound
  · have bound := split_pos items.length
    rw [List.length_drop]
    omega

theorem anchor_whole (m : Nat) (items : List Bytes) (whole : m = items.length) :
    anchor h m items = merkleRoot h items := by
  rw [anchor, if_pos (.inl whole)]

theorem siblings_whole (m : Nat) (items : List Bytes) (whole : m = items.length) :
    siblings h m items = [] := by
  rw [siblings, if_pos (.inl whole)]

theorem anchor_left (m : Nat) (items : List Bytes) (part : m < items.length) (positive : 0 < m)
    (left : m ≤ split items.length) : anchor h m items = anchor h m (items.take (split items.length)) := by
  rw [anchor, if_neg (by omega)]
  dsimp only
  rw [if_pos left]

theorem anchor_right (m : Nat) (items : List Bytes) (part : m < items.length) (positive : 0 < m)
    (right : ¬ m ≤ split items.length) :
    anchor h m items = anchor h (m - split items.length) (items.drop (split items.length)) := by
  rw [anchor, if_neg (by omega)]
  dsimp only
  rw [if_neg right]

theorem siblings_left (m : Nat) (items : List Bytes) (part : m < items.length) (positive : 0 < m)
    (left : m ≤ split items.length) :
    siblings h m items =
      siblings h m (items.take (split items.length)) ++ [merkleRoot h (items.drop (split items.length))] := by
  rw [siblings, if_neg (by omega)]
  dsimp only
  rw [if_pos left]

theorem siblings_right (m : Nat) (items : List Bytes) (part : m < items.length) (positive : 0 < m)
    (right : ¬ m ≤ split items.length) :
    siblings h m items = siblings h (m - split items.length) (items.drop (split items.length)) ++
      [merkleRoot h (items.take (split items.length))] := by
  rw [siblings, if_neg (by omega)]
  dsimp only
  rw [if_neg right]

theorem subproof_anchored (m : Nat) (items : List Bytes) (positive : 0 < m) (within : m ≤ items.length) :
    subproof h m items false = anchor h m items :: siblings h m items := by
  induction items using halves_induction generalizing m with
  | short items short =>
      have whole : m = items.length := by omega
      rw [subproof, if_pos whole, anchor_whole h m items whole, siblings_whole h m items whole]
      rfl
  | halves items large ihTake ihDrop =>
      by_cases whole : m = items.length
      · rw [subproof, if_pos whole, anchor_whole h m items whole, siblings_whole h m items whole]
        rfl
      · have below := split_lt items.length large
        rw [subproof, if_neg whole, if_neg (by omega)]
        dsimp only
        by_cases left : m ≤ split items.length
        · rw [if_pos left, ihTake m positive (by rw [take_split_length items large]; exact left),
            anchor_left h m items (by omega) positive left, siblings_left h m items (by omega) positive left]
          rfl
        · rw [if_neg left, ihDrop _ (by omega) (by rw [List.length_drop]; omega),
            anchor_right h m items (by omega) positive left,
            siblings_right h m items (by omega) positive left]
          rfl

theorem strip_ones_odd (fn sn : Nat) (odd : fn % 2 = 1) : stripOnes fn sn = stripOnes (fn / 2) (sn / 2) := by
  rw [stripOnes, if_pos odd]

theorem strip_ones_even (fn sn : Nat) (even : ¬ fn % 2 = 1) : stripOnes fn sn = (fn, sn) := by
  rw [stripOnes, if_neg even]

theorem strip_ones_power (exponent sn : Nat) : (stripOnes (2 ^ exponent - 1) sn).1 = 0 := by
  induction exponent generalizing sn with
  | zero =>
      rw [strip_ones_even _ _ (by decide)]
      rfl
  | succ e ih =>
      have positive := Nat.two_pow_pos e
      rw [strip_ones_odd _ _ (by rw [Nat.pow_succ]; omega)]
      have half : (2 ^ (e + 1) - 1) / 2 = 2 ^ e - 1 := by
        rw [Nat.pow_succ]
        omega
      rw [half]
      exact ih _

theorem strip_ones_first (fn sn other : Nat) : (stripOnes fn sn).1 = (stripOnes fn other).1 := by
  induction fn using Nat.strong_induction_on generalizing sn other with
  | _ fn ih =>
      by_cases odd : fn % 2 = 1
      · rw [strip_ones_odd fn sn odd, strip_ones_odd fn other odd]
        exact ih (fn / 2) (by omega) _ _
      · rw [strip_ones_even fn sn odd, strip_ones_even fn other odd]

-- A right part stands at one further bit, above everything the part itself sees.
theorem strip_ones_right (fn sn bit : Nat) (part : fn < sn) (small : sn < 2 ^ bit) :
    ∃ above, stripOnes (fn + 2 ^ bit) (sn + 2 ^ bit) =
        ((stripOnes fn sn).1 + 2 ^ above, (stripOnes fn sn).2 + 2 ^ above) ∧
      (stripOnes fn sn).1 < (stripOnes fn sn).2 ∧ (stripOnes fn sn).2 < 2 ^ above := by
  induction fn using Nat.strong_induction_on generalizing sn bit with
  | _ fn ih =>
      obtain ⟨low, rfl⟩ : ∃ low, bit = low + 1 :=
        Nat.exists_eq_succ_of_ne_zero fun zero => by rw [zero, Nat.pow_zero] at small; omega
      rw [Nat.pow_succ] at small ⊢
      by_cases odd : fn % 2 = 1
      · rw [strip_ones_odd fn sn odd, strip_ones_odd (fn + 2 ^ low * 2) _ (by omega)]
        have fns : (fn + 2 ^ low * 2) / 2 = fn / 2 + 2 ^ low := by omega
        have sns : (sn + 2 ^ low * 2) / 2 = sn / 2 + 2 ^ low := by omega
        rw [fns, sns]
        exact ih (fn / 2) (by omega) (sn / 2) low (by omega) (by omega)
      · rw [strip_ones_even fn sn odd, strip_ones_even (fn + 2 ^ low * 2) _ (by omega)]
        exact ⟨low + 1, by rw [Nat.pow_succ], part, by rw [Nat.pow_succ]; exact small⟩

theorem strip_ones_left (fn sn outer bit : Nat) (within : fn ≤ sn) (full : sn + 1 = 2 ^ bit)
    (low : 2 ^ bit ≤ outer) (high : outer < 2 ^ (bit + 1)) :
    ∃ left, (stripOnes fn sn).1 ≤ (stripOnes fn sn).2 ∧ (stripOnes fn sn).2 + 1 = 2 ^ left ∧
      2 ^ left ≤ (stripOnes fn outer).2 ∧ (stripOnes fn outer).2 < 2 ^ (left + 1) := by
  induction fn using Nat.strong_induction_on generalizing sn outer bit with
  | _ fn ih =>
      by_cases odd : fn % 2 = 1
      · obtain ⟨less, rfl⟩ : ∃ less, bit = less + 1 :=
          Nat.exists_eq_succ_of_ne_zero fun zero => by rw [zero, Nat.pow_zero] at full; omega
        rw [strip_ones_odd fn sn odd, strip_ones_odd fn outer odd]
        rw [Nat.pow_succ, Nat.pow_succ] at high
        rw [Nat.pow_succ] at full low
        exact ih (fn / 2) (by omega) (sn / 2) (outer / 2) less (by omega) (by omega) (by omega)
          (by rw [Nat.pow_succ]; omega)
      · rw [strip_ones_even fn sn odd, strip_ones_even fn outer odd]
        exact ⟨bit, within, full, low, high⟩

theorem strip_zeros_odd (fn sn : Nat) (odd : fn % 2 = 1) : stripZeros fn sn = (fn, sn) := by
  rw [stripZeros, if_neg (by omega)]

theorem strip_zeros_even (fn sn : Nat) (positive : fn ≠ 0) (even : fn % 2 = 0) :
    stripZeros fn sn = stripZeros (fn / 2) (sn / 2) := by
  rw [stripZeros, if_pos ⟨positive, even⟩]

theorem strip_zeros_power (exponent : Nat) : stripZeros (2 ^ exponent) (2 ^ exponent) = (1, 1) := by
  induction exponent with
  | zero => exact strip_zeros_odd 1 1 rfl
  | succ e ih =>
      have positive := Nat.two_pow_pos e
      have half : 2 ^ (e + 1) / 2 = 2 ^ e := by
        rw [Nat.pow_succ]
        omega
      rw [strip_zeros_even _ _ (by omega) (by rw [Nat.pow_succ]; omega), half]
      exact ih

theorem strip_zeros_right (fn sn bit : Nat) (positive : 0 < fn) (within : fn ≤ sn) (small : sn < 2 ^ bit) :
    ∃ above, stripZeros (fn + 2 ^ bit) (sn + 2 ^ bit) =
        ((stripZeros fn sn).1 + 2 ^ (above + 1), (stripZeros fn sn).2 + 2 ^ (above + 1)) ∧
      (stripZeros fn sn).1 ≤ (stripZeros fn sn).2 ∧ (stripZeros fn sn).2 < 2 ^ (above + 1) := by
  induction fn using Nat.strong_induction_on generalizing sn bit with
  | _ fn ih =>
      obtain ⟨low, rfl⟩ : ∃ low, bit = low + 1 :=
        Nat.exists_eq_succ_of_ne_zero fun zero => by rw [zero, Nat.pow_zero] at small; omega
      by_cases odd : fn % 2 = 1
      · rw [strip_zeros_odd fn sn odd, strip_zeros_odd _ _ (by rw [Nat.pow_succ]; omega)]
        exact ⟨low, rfl, within, small⟩
      · rw [Nat.pow_succ] at small ⊢
        rw [strip_zeros_even fn sn (by omega) (by omega), strip_zeros_even _ _ (by omega) (by omega)]
        have fns : (fn + 2 ^ low * 2) / 2 = fn / 2 + 2 ^ low := by omega
        have sns : (sn + 2 ^ low * 2) / 2 = sn / 2 + 2 ^ low := by omega
        rw [fns, sns]
        exact ih (fn / 2) (by omega) (sn / 2) low (by omega) (by omega) (by omega)

-- The walk of a left part next to the same walk in the tree around it.
structure LeftPart (bit : Nat) (part whole : Walk) : Prop where
  fn : whole.fn = part.fn
  within : part.fn ≤ part.sn
  full : part.sn + 1 = 2 ^ bit
  low : 2 ^ bit ≤ whole.sn
  high : whole.sn < 2 ^ (bit + 1)
  oldHash : whole.oldHash = part.oldHash
  newHash : whole.newHash = part.newHash

structure RightPart (bit : Nat) (part whole : Walk) : Prop where
  fn : whole.fn = part.fn + 2 ^ bit
  sn : whole.sn = part.sn + 2 ^ bit
  within : part.fn ≤ part.sn
  small : part.sn < 2 ^ bit
  oldHash : whole.oldHash = part.oldHash
  newHash : whole.newHash = part.newHash

-- The two digests a round joins for the new root, and those of all rounds.
def pairOf (walk : Walk) (item : Bytes) : Bytes × Bytes :=
  if walk.fn % 2 = 1 ∨ walk.fn = walk.sn then (item, walk.newHash) else (walk.newHash, item)

def walkJoins (walk : Walk) : List Bytes → List (Bytes × Bytes)
  | [] => []
  | item :: rest =>
      pairOf walk item ::
        match advance h walk item with
        | some next => walkJoins next rest
        | none => []

theorem advance_new (walk next : Walk) (item : Bytes) (moved : advance h walk item = some next) :
    walk.sn ≠ 0 ∧ next.newHash = nodeHash h (pairOf walk item).1 (pairOf walk item).2 := by
  rw [advance] at moved
  split at moved
  · cases moved
  · rename_i running
    refine ⟨running, ?_⟩
    rw [pairOf]
    split at moved <;> cases moved
    · rename_i joined
      rw [if_pos joined]
    · rename_i apart
      rw [if_neg apart]

-- The sizes go the same way whatever the hashes are, and so do the sides.
theorem advance_sizes (a b next after : Walk) (item other : Bytes) (fn : a.fn = b.fn) (sn : a.sn = b.sn)
    (first : advance h a item = some next) (second : advance h b other = some after) :
    next.fn = after.fn ∧ next.sn = after.sn := by
  rw [advance, fn, sn] at first
  rw [advance] at second
  split at first
  · cases first
  · rename_i running
    rw [if_neg running] at second
    split at first <;> cases first
    · rename_i joined
      rw [if_pos joined] at second
      cases second
      exact ⟨rfl, rfl⟩
    · rename_i apart
      rw [if_neg apart] at second
      cases second
      exact ⟨rfl, rfl⟩

theorem pair_pins (a b : Walk) (item other : Bytes) (fn : a.fn = b.fn) (sn : a.sn = b.sn)
    (same : pairOf a item = pairOf b other) : item = other ∧ a.newHash = b.newHash := by
  rw [pairOf, pairOf, fn, sn] at same
  split at same
  · exact Prod.mk.inj same
  · exact (Prod.mk.inj same).symm

theorem pair_left (bit : Nat) (part whole : Walk) (item : Bytes) (beside : LeftPart bit part whole)
    (running : part.sn ≠ 0) : pairOf whole item = pairOf part item := by
  obtain ⟨fn, within, full, low, high, oldHash, newHash⟩ := beside
  obtain ⟨less, rfl⟩ : ∃ less, bit = less + 1 :=
    Nat.exists_eq_succ_of_ne_zero fun zero => by rw [zero, Nat.pow_zero] at full; omega
  rw [Nat.pow_succ] at full low
  rw [pairOf, pairOf, newHash]
  by_cases joined : part.fn % 2 = 1 ∨ part.fn = part.sn
  · rw [if_pos joined, if_pos (by omega)]
  · rw [if_neg joined, if_neg (by omega)]

theorem pair_right (bit : Nat) (part whole : Walk) (item : Bytes) (beside : RightPart bit part whole)
    (running : part.sn ≠ 0) : pairOf whole item = pairOf part item := by
  obtain ⟨fn, sn, within, small, oldHash, newHash⟩ := beside
  obtain ⟨low, rfl⟩ : ∃ low, bit = low + 1 :=
    Nat.exists_eq_succ_of_ne_zero fun zero => by rw [zero, Nat.pow_zero] at small; omega
  rw [Nat.pow_succ] at fn sn
  rw [pairOf, pairOf, newHash]
  by_cases joined : part.fn % 2 = 1 ∨ part.fn = part.sn
  · rw [if_pos joined, if_pos (by omega)]
  · rw [if_neg joined, if_neg (by omega)]

theorem advance_left (bit : Nat) (part whole next : Walk) (item : Bytes) (beside : LeftPart bit part whole)
    (moved : advance h part item = some next) :
    ∃ less after, advance h whole item = some after ∧ LeftPart less next after := by
  obtain ⟨fn, within, full, low, high, oldHash, newHash⟩ := beside
  rw [advance] at moved
  split at moved
  · cases moved
  · rename_i running
    obtain ⟨less, rfl⟩ : ∃ less, bit = less + 1 :=
      Nat.exists_eq_succ_of_ne_zero fun zero => by rw [zero, Nat.pow_zero] at full; omega
    have apart : whole.fn ≠ whole.sn := by omega
    rw [Nat.pow_succ, Nat.pow_succ] at high
    rw [Nat.pow_succ] at full low
    have positive := Nat.two_pow_pos less
    rw [advance, if_neg (by omega)]
    by_cases odd : part.fn % 2 = 1
    · rw [if_pos (.inl odd), strip_zeros_odd _ _ odd] at moved
      rw [if_pos (.inl (by omega)), strip_zeros_odd _ _ (by omega)]
      cases moved
      refine ⟨less, _, rfl, ?_, ?_, ?_, ?_, ?_, ?_, ?_⟩
      · rw [fn]
      · dsimp only
        omega
      · dsimp only
        omega
      · dsimp only
        omega
      · dsimp only
        rw [Nat.pow_succ]
        omega
      · rw [oldHash]
      · rw [newHash]
    · have even : ¬ (part.fn % 2 = 1 ∨ part.fn = part.sn) := by omega
      rw [if_neg even] at moved
      rw [if_neg (by omega)]
      cases moved
      refine ⟨less, _, rfl, ?_, ?_, ?_, ?_, ?_, ?_, ?_⟩
      · rw [fn]
      · dsimp only
        omega
      · dsimp only
        omega
      · dsimp only
        omega
      · dsimp only
        rw [Nat.pow_succ]
        omega
      · exact oldHash
      · rw [newHash]

theorem advance_right (bit : Nat) (part whole next : Walk) (item : Bytes) (beside : RightPart bit part whole)
    (moved : advance h part item = some next) :
    ∃ less after, advance h whole item = some after ∧ RightPart less next after := by
  obtain ⟨fn, sn, within, small, oldHash, newHash⟩ := beside
  rw [advance] at moved
  split at moved
  · cases moved
  · rename_i running
    obtain ⟨low, rfl⟩ : ∃ low, bit = low + 1 :=
      Nat.exists_eq_succ_of_ne_zero fun zero => by rw [zero, Nat.pow_zero] at small; omega
    have whole_running : ¬ whole.sn = 0 := by omega
    rw [advance, if_neg whole_running]
    by_cases joined : part.fn % 2 = 1 ∨ part.fn = part.sn
    · obtain ⟨above, stripped, bounded, under⟩ :=
        strip_zeros_right part.fn part.sn (low + 1) (by omega) within small
      rw [if_pos joined] at moved
      rw [if_pos (by rw [Nat.pow_succ] at fn sn; omega), fn, sn, stripped]
      cases moved
      rw [Nat.pow_succ] at under
      refine ⟨above, _, rfl, ?_, ?_, ?_, ?_, ?_, ?_⟩
      · dsimp only
        rw [Nat.pow_succ]
        omega
      · dsimp only
        rw [Nat.pow_succ]
        omega
      · dsimp only
        omega
      · dsimp only
        omega
      · rw [oldHash]
      · rw [newHash]
    · rw [if_neg joined] at moved
      rw [Nat.pow_succ] at fn sn small
      rw [if_neg (by omega)]
      cases moved
      refine ⟨low, _, rfl, ?_, ?_, ?_, ?_, ?_, ?_⟩
      · dsimp only
        omega
      · dsimp only
        omega
      · dsimp only
        omega
      · dsimp only
        omega
      · exact oldHash
      · rw [newHash]

theorem replay_left (items : List Bytes) (bit : Nat) (part whole final : Walk)
    (beside : LeftPart bit part whole) (moved : items.foldlM (advance h) part = some final) :
    ∃ less after, items.foldlM (advance h) whole = some after ∧ LeftPart less final after ∧
      walkJoins h whole items = walkJoins h part items := by
  induction items generalizing bit part whole with
  | nil =>
      cases moved
      exact ⟨bit, whole, rfl, beside, rfl⟩
  | cons item rest ih =>
      rw [List.foldlM_cons] at moved
      obtain ⟨next, first, later⟩ := Option.bind_eq_some_iff.mp moved
      obtain ⟨less, after, outer, onward⟩ := advance_left h bit part whole next item beside first
      obtain ⟨least, last, finished, ended, joined⟩ := ih less next after onward later
      refine ⟨least, last, by rw [List.foldlM_cons, outer]; exact finished, ended, ?_⟩
      rw [walkJoins, walkJoins, first, outer, pair_left bit part whole item beside
        (advance_new h part next item first).1]
      simp only [joined]

theorem replay_right (items : List Bytes) (bit : Nat) (part whole final : Walk)
    (beside : RightPart bit part whole) (moved : items.foldlM (advance h) part = some final) :
    ∃ less after, items.foldlM (advance h) whole = some after ∧ RightPart less final after ∧
      walkJoins h whole items = walkJoins h part items := by
  induction items generalizing bit part whole with
  | nil =>
      cases moved
      exact ⟨bit, whole, rfl, beside, rfl⟩
  | cons item rest ih =>
      rw [List.foldlM_cons] at moved
      obtain ⟨next, first, later⟩ := Option.bind_eq_some_iff.mp moved
      obtain ⟨less, after, outer, onward⟩ := advance_right h bit part whole next item beside first
      obtain ⟨least, last, finished, ended, joined⟩ := ih less next after onward later
      refine ⟨least, last, by rw [List.foldlM_cons, outer]; exact finished, ended, ?_⟩
      rw [walkJoins, walkJoins, first, outer, pair_right bit part whole item beside
        (advance_new h part next item first).1]
      simp only [joined]

theorem append_replay (items : List Bytes) (last : Bytes) (start middle final : Walk)
    (first : items.foldlM (advance h) start = some middle) (second : advance h middle last = some final) :
    (items ++ [last]).foldlM (advance h) start = some final := by
  rw [List.foldlM_append, first]
  show [last].foldlM (advance h) middle = some final
  rw [List.foldlM_cons, second]
  rfl

theorem append_joins (items : List Bytes) (last : Bytes) (start middle : Walk)
    (first : items.foldlM (advance h) start = some middle) :
    walkJoins h start (items ++ [last]) = walkJoins h start items ++ [pairOf middle last] := by
  induction items generalizing start with
  | nil =>
      cases first
      cases moved : advance h middle last <;> simp [walkJoins, moved]
  | cons item rest ih =>
      rw [List.foldlM_cons] at first
      obtain ⟨next, moved, later⟩ := Option.bind_eq_some_iff.mp first
      rw [List.cons_append, walkJoins, walkJoins, moved]
      simp only [ih next later, List.cons_append]

theorem strip_ones_same (fn : Nat) : (stripOnes fn fn).2 = (stripOnes fn fn).1 := by
  induction fn using Nat.strong_induction_on with
  | _ fn ih =>
      by_cases odd : fn % 2 = 1
      · rw [strip_ones_odd fn fn odd]
        exact ih (fn / 2) (by omega)
      · rw [strip_ones_even fn fn odd]

-- Up the last step of a left part: the sibling only enters the new root.
theorem advance_last_left (bit : Nat) (part whole : Walk) (item : Bytes) (beside : LeftPart bit part whole)
    (ended : part.sn = 0) : advance h whole item = some ⟨0, 0, part.oldHash, nodeHash h part.newHash item⟩ ∧
      pairOf whole item = (part.newHash, item) := by
  obtain ⟨fn, within, full, low, high, oldHash, newHash⟩ := beside
  rw [Nat.pow_succ] at high
  have fnZero : whole.fn = 0 := by omega
  have snOne : whole.sn = 1 := by omega
  rw [advance, pairOf, fnZero, snOne, oldHash, newHash]
  exact ⟨rfl, rfl⟩

theorem advance_last_right (bit : Nat) (part whole : Walk) (item : Bytes) (beside : RightPart bit part whole)
    (ended : part.sn = 0) :
    advance h whole item = some ⟨0, 0, nodeHash h item part.oldHash, nodeHash h item part.newHash⟩ ∧
      pairOf whole item = (item, part.newHash) := by
  obtain ⟨fn, sn, within, small, oldHash, newHash⟩ := beside
  have positive := Nat.two_pow_pos bit
  have fnPower : whole.fn = 2 ^ bit := by omega
  have snPower : whole.sn = 2 ^ bit := by omega
  rw [advance, pairOf, fnPower, snPower, if_neg (by omega), if_pos (.inr rfl), if_pos (.inr rfl),
    strip_zeros_power,
    oldHash, newHash]
  exact ⟨rfl, rfl⟩

def startOf (m : Nat) (items : List Bytes) : Walk :=
  let stripped := stripOnes (m - 1) (items.length - 1)
  ⟨stripped.1, stripped.2, anchor h m items, anchor h m items⟩

-- The walk of the old tree inside a left part, next to its walk in the whole tree.
theorem start_left (m : Nat) (items : List Bytes) (large : 2 ≤ items.length) (positive : 0 < m)
    (part : m < items.length) (left : m ≤ split items.length) :
    ∃ bit, LeftPart bit (startOf h m (items.take (split items.length))) (startOf h m items) := by
  have below := split_lt items.length large
  have half := split_half items.length large
  have width := take_split_length items large
  obtain ⟨exponent, power⟩ : ∃ exponent, split items.length = 2 ^ exponent := ⟨_, rfl⟩
  obtain ⟨bit, within, full, low, high⟩ := strip_ones_left (m - 1) (split items.length - 1) (items.length - 1)
    exponent (by omega) (by omega) (by omega) (by rw [Nat.pow_succ]; omega)
  refine ⟨bit, strip_ones_first _ _ _, ?_, ?_, low, high, ?_, ?_⟩
  · rw [startOf, width]
    exact within
  · rw [startOf, width]
    exact full
  · exact anchor_left h m items part positive left
  · exact anchor_left h m items part positive left

theorem start_right (m : Nat) (items : List Bytes) (large : 2 ≤ items.length) (part : m < items.length)
    (right : ¬ m ≤ split items.length) :
    ∃ bit, RightPart bit (startOf h (m - split items.length) (items.drop (split items.length)))
      (startOf h m items) := by
  have half := split_half items.length large
  have lower := split_pos items.length
  obtain ⟨exponent, power⟩ : ∃ exponent, split items.length = 2 ^ exponent := ⟨_, rfl⟩
  obtain ⟨bit, stripped, within, small⟩ := strip_ones_right (m - split items.length - 1)
    (items.length - split items.length - 1) exponent (by omega) (by omega)
  have oldIndex : m - split items.length - 1 + 2 ^ exponent = m - 1 := by omega
  have newIndex : items.length - split items.length - 1 + 2 ^ exponent = items.length - 1 := by omega
  rw [oldIndex, newIndex] at stripped
  refine ⟨bit, ?_, ?_, ?_, ?_, ?_, ?_⟩
  · rw [startOf, startOf, List.length_drop, stripped]
  · rw [startOf, startOf, List.length_drop, stripped]
  · rw [startOf, List.length_drop]
    exact Nat.le_of_lt within
  · rw [startOf, List.length_drop]
    exact small
  · exact anchor_right h m items part (by omega) right
  · exact anchor_right h m items part (by omega) right

-- An old tree that is a whole left part is walked from its root.
theorem start_whole (items : List Bytes) (large : 2 ≤ items.length) :
    startOf h (split items.length) (items.take (split items.length)) =
      ⟨0, 0, merkleRoot h (items.take (split items.length)),
        merkleRoot h (items.take (split items.length))⟩ := by
  have width := take_split_length items large
  have zero : (stripOnes (split items.length - 1) (split items.length - 1)).1 = 0 := strip_ones_power _ _
  have alike := strip_ones_same (split items.length - 1)
  rw [startOf, width, alike, zero, anchor_whole h _ _ width.symm]

theorem siblings_reach (m : Nat) (items : List Bytes) (positive : 0 < m) (part : m < items.length) :
    (siblings h m items).foldlM (advance h) (startOf h m items) =
        some ⟨0, 0, merkleRoot h (items.take m), merkleRoot h items⟩ ∧
      ∀ pair ∈ walkJoins h (startOf h m items) (siblings h m items),
          pair ∈ joins (nodeHash h) (treeOf items) := by
  induction items using halves_induction generalizing m with
  | short items short => omega
  | halves items large ihTake ihDrop =>
      have below := split_lt items.length large
      have width := take_split_length items large
      have roots := merkle_root_split h items large
      obtain ⟨first, second⟩ := halves_nonempty items large
      have tree : joins (nodeHash h) (treeOf items) =
          (merkleRoot h (items.take (split items.length)), merkleRoot h (items.drop (split items.length))) ::
            (joins (nodeHash h) (treeOf (items.take (split items.length))) ++
              joins (nodeHash h) (treeOf (items.drop (split items.length)))) := by
        rw [tree_of_split items large, joins, tree_of_root h _ first, tree_of_root h _ second]
      by_cases left : m ≤ split items.length
      · rw [siblings_left h m items part positive left]
        obtain ⟨bit, beside⟩ := start_left h m items large positive part left
        -- The old tree is the whole left part or ends inside it.
        obtain ⟨final, reached, ended, oldRoot, newRoot, inner⟩ : ∃ final,
            (siblings h m (items.take (split items.length))).foldlM (advance h)
              (startOf h m (items.take (split items.length))) = some final ∧ final.sn = 0 ∧
            final.oldHash = merkleRoot h (items.take m) ∧
            final.newHash = merkleRoot h (items.take (split items.length)) ∧
            ∀ pair ∈ walkJoins h (startOf h m (items.take (split items.length)))
              (siblings h m (items.take (split items.length))),
                pair ∈ joins (nodeHash h) (treeOf (items.take (split items.length))) := by
          by_cases whole : m = split items.length
          · rw [siblings_whole h m _ (by omega), whole, start_whole h items large]
            exact ⟨_, rfl, rfl, rfl, rfl, fun pair member => by cases member⟩
          · obtain ⟨reached, inner⟩ := ihTake m positive (by omega)
            exact ⟨_, reached, rfl, by rw [List.take_take, Nat.min_eq_left left], rfl, inner⟩
        obtain ⟨less, after, finished, onward, joined⟩ := replay_left h _ bit _ _ _ beside reached
        obtain ⟨last, pair⟩ :=
          advance_last_left h less _ _ (merkleRoot h (items.drop (split items.length))) onward ended
        refine ⟨?_, ?_⟩
        · apply append_replay h _ _ _ _ _ finished
          rw [last, oldRoot, newRoot, roots]
        · rw [append_joins h _ _ _ _ finished, joined, pair, newRoot, tree]
          intro other member
          rcases List.mem_append.mp member with inside | top
          · exact List.mem_cons_of_mem _ (List.mem_append_left _ (inner other inside))
          · rw [List.mem_singleton.mp top]
            exact List.mem_cons_self
      · -- The old tree reaches into the right part and shares the whole left one.
        rw [siblings_right h m items part positive left]
        obtain ⟨reached, inner⟩ :=
          ihDrop (m - split items.length) (by omega) (by rw [List.length_drop]; omega)
        obtain ⟨bit, beside⟩ := start_right h m items large part left
        obtain ⟨less, after, finished, onward, joined⟩ := replay_right h _ bit _ _ _ beside reached
        obtain ⟨last, pair⟩ :=
          advance_last_right h less _ _ (merkleRoot h (items.take (split items.length))) onward rfl
        have cut : split (items.take m).length = split items.length := by
          rw [List.length_take, Nat.min_eq_left (Nat.le_of_lt part)]
          exact split_stable m items.length (by omega) (by omega)
        have oldRoot : merkleRoot h (items.take m) =
          nodeHash h (merkleRoot h (items.take (split items.length)))
            (merkleRoot h ((items.drop (split items.length)).take (m - split items.length))) := by
          have positiveSplit := split_pos items.length
          rw [merkle_root_split h (items.take m) (by rw [List.length_take]; omega), cut, List.take_take,
            Nat.min_eq_left (by omega), List.drop_take]
        refine ⟨?_, ?_⟩
        · apply append_replay h _ _ _ _ _ finished
          rw [last, oldRoot, roots]
        · rw [append_joins h _ _ _ _ finished, joined, pair, tree]
          intro other member
          rcases List.mem_append.mp member with inside | top
          · exact List.mem_cons_of_mem _ (List.mem_append_right _ (inner other inside))
          · rw [List.mem_singleton.mp top]
            exact List.mem_cons_self

-- Whether the proof repeats the anchor is what the verifier reads off the old size.
theorem subproof_complete (m : Nat) (items : List Bytes) (positive : 0 < m) (part : m < items.length) :
    subproof h m items true =
      if (stripOnes (m - 1) (items.length - 1)).1 = 0 then siblings h m items
      else anchor h m items :: siblings h m items := by
  induction items using halves_induction generalizing m with
  | short items short => omega
  | halves items large ihTake ihDrop =>
      have below := split_lt items.length large
      have width := take_split_length items large
      obtain ⟨exponent, power⟩ : ∃ exponent, split items.length = 2 ^ exponent := ⟨_, rfl⟩
      rw [subproof, if_neg (by omega), if_neg (by omega)]
      dsimp only
      by_cases left : m ≤ split items.length
      · rw [if_pos left, siblings_left h m items part positive left, anchor_left h m items part positive left]
        by_cases whole : m = split items.length
        · have stripped : (stripOnes (m - 1) (items.length - 1)).1 = 0 := by
            rw [whole, power]
            exact strip_ones_power exponent _
          rw [if_pos stripped, subproof, if_pos (by omega), siblings_whole h m _ (by omega)]
          rfl
        · rw [ihTake m positive (by omega), strip_ones_first (m - 1) _ (items.length - 1)]
          split <;> rfl
      · have half := split_half items.length large
        obtain ⟨bit, stripped, _, _⟩ := strip_ones_right (m - split items.length - 1)
          (items.length - split items.length - 1) exponent (by omega) (by omega)
        have oldIndex : m - split items.length - 1 + 2 ^ exponent = m - 1 := by omega
        have newIndex : items.length - split items.length - 1 + 2 ^ exponent = items.length - 1 := by omega
        have running : ¬ (stripOnes (m - 1) (items.length - 1)).1 = 0 := by
          have above := Nat.two_pow_pos bit
          rw [← oldIndex, ← newIndex, stripped]
          simp only
          omega
        rw [if_neg left, if_neg running, subproof_anchored h _ _ (by omega) (by rw [List.length_drop]; omega),
          anchor_right h m items part positive left, siblings_right h m items part positive left]
        rfl

theorem anchor_complete (m : Nat) (items : List Bytes) (positive : 0 < m) (part : m < items.length)
    (stripped : (stripOnes (m - 1) (items.length - 1)).1 = 0) :
    anchor h m items = merkleRoot h (items.take m) := by
  induction items using halves_induction generalizing m with
  | short items short => omega
  | halves items large ihTake ihDrop =>
      have below := split_lt items.length large
      have width := take_split_length items large
      obtain ⟨exponent, power⟩ : ∃ exponent, split items.length = 2 ^ exponent := ⟨_, rfl⟩
      by_cases left : m ≤ split items.length
      · rw [anchor_left h m items part positive left]
        by_cases whole : m = split items.length
        · rw [anchor_whole h m _ (by omega), whole]
        · rw [ihTake m positive (by omega) (by rw [strip_ones_first _ _ (items.length - 1)]; exact stripped),
            List.take_take, Nat.min_eq_left left]
      · have half := split_half items.length large
        obtain ⟨bit, shifted, _, _⟩ := strip_ones_right (m - split items.length - 1)
          (items.length - split items.length - 1) exponent (by omega) (by omega)
        have oldIndex : m - split items.length - 1 + 2 ^ exponent = m - 1 := by omega
        have newIndex : items.length - split items.length - 1 + 2 ^ exponent = items.length - 1 := by omega
        have above := Nat.two_pow_pos bit
        rw [← oldIndex, ← newIndex, shifted] at stripped
        simp only at stripped
        omega

theorem subproof_widths (m : Nat) (items : List Bytes) (complete : Bool)
    (widths : ∀ leaf ∈ items, leaf.length = 32) :
    ∀ item ∈ subproof h m items complete, item.length = 32 := by
  induction items using halves_induction generalizing m complete with
  | short items short =>
      intro item member
      rw [subproof] at member
      split at member
      · split at member
        · cases member
        · rw [List.mem_singleton.mp member]
          exact merkle_root_length h items widths
      · cases member
  | halves items large ihTake ihDrop =>
      have lefts : ∀ leaf ∈ items.take (split items.length), leaf.length = 32 :=
        fun leaf member => widths leaf (List.mem_of_mem_take member)
      have rights : ∀ leaf ∈ items.drop (split items.length), leaf.length = 32 :=
        fun leaf member => widths leaf (List.mem_of_mem_drop member)
      intro item member
      rw [subproof, if_neg (by omega : ¬ items.length < 2)] at member
      split at member
      · split at member
        · cases member
        · rw [List.mem_singleton.mp member]
          exact merkle_root_length h items widths
      · dsimp only at member
        split at member
        · rcases List.mem_append.mp member with inside | last
          · exact ihTake m complete lefts item inside
          · rw [List.mem_singleton.mp last]
            exact merkle_root_length h _ rights
        · rcases List.mem_append.mp member with inside | last
          · exact ihDrop _ false rights item inside
          · rw [List.mem_singleton.mp last]
            exact merkle_root_length h _ lefts

theorem consistency_widths (leaves : List Bytes) (widths : ∀ leaf ∈ leaves, leaf.length = 32)
    (oldSize : Nat) (proof : List Bytes) (built : consistencyProof h leaves oldSize = some proof) :
    ∀ item ∈ proof, item.length = 32 := by
  rw [consistencyProof] at built
  split at built
  · cases built
  · split at built
    · cases built
      simp
    · cases built
      exact subproof_widths h oldSize leaves true widths

theorem consistency_accepts (leaves : List Bytes) (widths : ∀ leaf ∈ leaves, leaf.length = 32) (oldSize : Nat)
    (proof : List Bytes) (built : consistencyProof h leaves oldSize = some proof) :
    verifyConsistency h oldSize leaves.length (merkleRoot h (leaves.take oldSize))
      (merkleRoot h leaves) proof =
      true := by
  rw [consistencyProof] at built
  split at built
  · cases built
  · rename_i within
    split at built
    · rename_i whole
      cases built
      unfold verifyConsistency
      rw [if_neg (by omega), if_pos (by omega), whole, List.take_length]
      simp
    · rename_i part
      cases built
      have positive : 0 < oldSize := by omega
      have shorter : oldSize < leaves.length := by omega
      have wide : ((subproof h oldSize leaves true).any fun item => item.length != 32) = false := by
        rw [List.any_eq_false]
        intro item member
        simp [subproof_widths h oldSize leaves true widths item member]
      have reached := (siblings_reach h oldSize leaves positive shorter).1
      have oldIndex : ((oldSize : Int).toNat - 1) = oldSize - 1 := by omega
      have newIndex : ((leaves.length : Int).toNat - 1) = leaves.length - 1 := by omega
      unfold verifyConsistency
      rw [if_neg (by omega), if_neg (by omega), wide, oldIndex, newIndex,
        subproof_complete h oldSize leaves positive shorter]
      by_cases leftmost : (stripOnes (oldSize - 1) (leaves.length - 1)).1 = 0
      · rw [startOf, anchor_complete h oldSize leaves positive shorter leftmost] at reached
        simp [leftmost] at reached ⊢
        simp [reached]
      · rw [startOf] at reached
        simp [leftmost, reached]

end CalibrationLedger
