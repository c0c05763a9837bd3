import CalibrationLedger.Audit.Archive
import CalibrationLedger.Calendar

set_option autoImplicit false

-- The names of an archive's receipts sort as their sequences do.
namespace CalibrationLedger

-- The name of a receipt, whatever it says.
def receiptPath (sequence : Int) : String := ReceiptEntry.name ⟨sequence, []⟩

theorem digit_char_lt (a b : Nat) (less : a < b) (bound : b < 10) : Nat.digitChar a < Nat.digitChar b := by
  have table : ∀ b < 10, ∀ a < b, Nat.digitChar a < Nat.digitChar b := by decide
  exact table b bound a less

theorem append_lt (a b left right : List Char) (size : a.length = b.length) (less : a < b) :
    a ++ left < b ++ right := by
  induction a generalizing b with
  | nil =>
      cases b with
      | nil => exact absurd less (List.lt_irrefl [])
      | cons other others => cases size
  | cons item rest ih =>
      cases b with
      | nil => cases size
      | cons other others =>
          rw [List.cons_append, List.cons_append]
          rcases List.cons_lt_cons_iff.mp less with first | ⟨same, later⟩
          · exact List.cons_lt_cons_iff.mpr (.inl first)
          · exact List.cons_lt_cons_iff.mpr (.inr ⟨same, ih others (Nat.succ.inj size) later⟩)

theorem padded_digits_lt (width a b : Nat) (less : a < b) (bound : b < 10 ^ width) :
    paddedDigits width a < paddedDigits width b := by
  induction width generalizing a b with
  | zero => omega
  | succ width ih =>
      rw [paddedDigits, paddedDigits]
      by_cases tens : a / 10 < b / 10
      · refine append_lt _ _ _ _ (by rw [padded_digits_length, padded_digits_length]) (ih _ _ tens ?_)
        rw [Nat.pow_succ] at bound
        omega
      · have same : a / 10 = b / 10 := by omega
        rw [same]
        have unit : Nat.digitChar (a % 10) < Nat.digitChar (b % 10) := digit_char_lt _ _ (by omega) (by omega)
        exact List.append_left_lt (List.cons_lt_cons_iff.mpr (.inl unit))

theorem zero_padded_digits (width number : Nat) (small : number < 10 ^ (width + 1)) :
    zeroPadded (width + 1) number = paddedDigits (width + 1) number := by
  have unsigned : ¬(number : Int) < 0 := by omega
  simp only [zeroPadded, if_neg unsigned, Int.natAbs_natCast, List.nil_append, List.length_nil, Nat.sub_zero]
  induction width generalizing number with
  | zero =>
      rw [Nat.toDigits_of_lt_base (by omega)]
      have whole : number % 10 = number := by omega
      simp [paddedDigits, whole]
  | succ width ih =>
      rw [paddedDigits]
      have tens : number / 10 < 10 ^ (width + 1) := by
        rw [Nat.pow_succ] at small
        omega
      rw [← ih (number / 10) tens (by omega)]
      by_cases single : number < 10
      · have none : number / 10 = 0 := by omega
        have whole : number % 10 = number := by omega
        rw [none, whole, Nat.toDigits_of_lt_base single, Nat.toDigits_zero, List.length_singleton,
          List.length_singleton,
          Nat.add_sub_cancel, Nat.add_sub_cancel, List.replicate_succ']
      · rw [Nat.toDigits_of_base_le (by omega) (by omega), List.length_append, List.length_singleton,
          Nat.add_sub_add_right,
          ← List.append_assoc]

theorem receipt_path_lt (a b : Int) (low : 0 ≤ a) (less : a < b) (high : b < 2 ^ 63) :
    receiptPath a < receiptPath b := by
  obtain ⟨first, rfl⟩ := Int.eq_ofNat_of_zero_le low
  obtain ⟨second, rfl⟩ := Int.eq_ofNat_of_zero_le (by omega : 0 ≤ b)
  have bound : second < 10 ^ 20 := by omega
  have digits := padded_digits_lt 20 first second (by omega) bound
  have size : (paddedDigits 20 first).length = (paddedDigits 20 second).length := by
    rw [padded_digits_length, padded_digits_length]
  rw [String.lt_iff]
  simp only [receiptPath, ReceiptEntry.name, String.toList_append, String.toList_ofList, List.append_assoc]
  rw [zero_padded_digits 19 first (by omega), zero_padded_digits 19 second bound]
  exact List.append_left_lt (append_lt _ _ _ _ size digits)

end CalibrationLedger
