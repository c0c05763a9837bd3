import Mathlib.Order.Monotone.Basic
import CalibrationLedger.Commitments

set_option autoImplicit false

-- The text of an instant tells it from every other one.
namespace CalibrationLedger

open JsonText Digest

-- Years that start in March, counted from the beginning of an era.
def yearStart (year : Nat) : Nat := 365 * year + year / 4 - year / 100

def leapless (day : Nat) : Nat := day - day / 1460 + day / 36524 - day / 146096

theorem leapless_mono : Monotone leapless := by
  refine monotone_nat_of_le_succ fun day => ?_
  unfold leapless
  omega

theorem year_start_counts : ∀ year ≤ 399, 365 * year ≤ leapless (yearStart year) ∧
    (year ≠ 0 → leapless (yearStart year - 1) < 365 * year) := by decide +kernel

theorem year_bounds (day : Nat) (bound : day < 146097) :
    leapless day / 365 ≤ 399 ∧ yearStart (leapless day / 365) ≤ day ∧
    day ≤ yearStart (leapless day / 365) + 365 := by
  have small : leapless day / 365 ≤ 399 := by
    unfold leapless
    omega
  generalize is : leapless day / 365 = year at small ⊢
  refine ⟨small, ?_, ?_⟩
  · by_contra later
    have below := (year_start_counts year (by omega)).2 (by rintro rfl; exact later (Nat.zero_le _))
    have before := leapless_mono (show day ≤ yearStart year - 1 by omega)
    omega
  · by_contra later
    have next : year + 1 ≤ 399 := by
      unfold yearStart at later
      omega
    have above := (year_start_counts (year + 1) next).1
    have reaches : yearStart (year + 1) ≤ day := by
      unfold yearStart at later ⊢
      omega
    have after := leapless_mono reaches
    omega

-- The date of a day of such a year.
def dated (era year ordinal : Nat) : Nat × Nat × Nat :=
  let month := (5 * ordinal + 2) / 153
  (era * 400 + year + (if month < 10 then 0 else 1), if month < 10 then month + 3 else month - 9,
    ordinal - (153 * month + 2) / 5 + 1)

theorem civil_dated (days : Nat) : ∃ era year ordinal, year ≤ 399 ∧ ordinal ≤ 365 ∧
    days + 306 = 146097 * era + (yearStart year + ordinal) ∧ civil days = dated era year ordinal := by
  obtain ⟨small, low, high⟩ := year_bounds ((days + 306) % 146097) (Nat.mod_lt _ (by decide))
  have parts := Nat.div_add_mod (days + 306) 146097
  exact ⟨(days + 306) / 146097, leapless ((days + 306) % 146097) / 365, _, small,
    Nat.sub_le_iff_le_add'.mpr high, by rw [Nat.add_sub_cancel' low, parts], rfl⟩

theorem ordinal_same (a b : Nat) (months : (5 * a + 2) / 153 = (5 * b + 2) / 153)
    (days : a - (153 * ((5 * a + 2) / 153) + 2) / 5 = b - (153 * ((5 * b + 2) / 153) + 2) / 5) : a = b := by
  omega

theorem dated_injective (eraA yearA ordinalA eraB yearB ordinalB : Nat) (smallA : yearA ≤ 399)
    (smallB : yearB ≤ 399) (boundA : ordinalA ≤ 365) (boundB : ordinalB ≤ 365)
    (same : dated eraA yearA ordinalA = dated eraB yearB ordinalB) :
    eraA = eraB ∧ yearA = yearB ∧ ordinalA = ordinalB := by
  have limitA : (5 * ordinalA + 2) / 153 ≤ 11 := by omega
  have limitB : (5 * ordinalB + 2) / 153 ≤ 11 := by omega
  simp only [dated, Prod.mk.injEq] at same
  obtain ⟨years, months, days⟩ := same
  have month : (5 * ordinalA + 2) / 153 = (5 * ordinalB + 2) / 153 := by
    clear days years
    generalize (5 * ordinalA + 2) / 153 = a at limitA months ⊢
    generalize (5 * ordinalB + 2) / 153 = b at limitB months ⊢
    split at months <;> split at months <;> omega
  have ordinal := ordinal_same ordinalA ordinalB month (Nat.add_right_cancel days)
  subst ordinal
  have total : eraA * 400 + yearA = eraB * 400 + yearB := Nat.add_right_cancel years
  exact ⟨by omega, by omega, rfl⟩

theorem civil_injective (a b : Nat) (same : civil a = civil b) : a = b := by
  obtain ⟨eraA, yearA, ordinalA, smallA, boundA, wholeA, dateA⟩ := civil_dated a
  obtain ⟨eraB, yearB, ordinalB, smallB, boundB, wholeB, dateB⟩ := civil_dated b
  rw [dateA, dateB] at same
  obtain ⟨rfl, rfl, rfl⟩ := dated_injective _ _ _ _ _ _ smallA smallB boundA boundB same
  omega

theorem civil_year (days : Nat) (bound : days < 3652059) : (civil days).1 < 10000 := by
  obtain ⟨era, year, ordinal, small, limit, whole, date⟩ := civil_dated days
  rw [date, dated]
  dsimp only
  have start : yearStart 399 = 145731 := by decide
  by_cases last : era = 24 ∧ year = 399
  · obtain ⟨rfl, rfl⟩ := last
    rw [if_pos (by omega)]
    omega
  · have eras : era ≤ 24 := by omega
    split <;> omega

theorem civil_month (days : Nat) : (civil days).2.1 < 100 ∧ (civil days).2.2 < 100 := by
  obtain ⟨era, year, ordinal, small, limit, whole, date⟩ := civil_dated days
  rw [date, dated]
  dsimp only
  constructor
  · split <;> omega
  · omega

theorem padded_digits_length (width number : Nat) : (paddedDigits width number).length = width := by
  induction width generalizing number with
  | zero => rfl
  | succ width ih => simp [paddedDigits, ih]

theorem padded_digits_injective (width a b : Nat) (boundA : a < 10 ^ width) (boundB : b < 10 ^ width)
    (same : paddedDigits width a = paddedDigits width b) : a = b := by
  induction width generalizing a b with
  | zero => omega
  | succ width ih =>
      obtain ⟨front, last⟩ := List.append_inj' same rfl
      have digit : a % 10 = b % 10 := by
        have small : ∀ n < 10, ∀ m < 10, Nat.digitChar n = Nat.digitChar m → n = m := by decide
        exact small _ (Nat.mod_lt _ (by decide)) _ (Nat.mod_lt _ (by decide)) (List.cons.inj last).1
      have rest := ih (a / 10) (b / 10) (by rw [Nat.pow_succ] at boundA; omega)
        (by rw [Nat.pow_succ] at boundB; omega) front
      omega

theorem iso_digits_injective (a b : Instant) (same : isoDigits a = isoDigits b) : a = b := by
  have boundA := a.bound
  have boundB := b.bound
  unfold endOfTime at boundA boundB
  unfold isoDigits at same
  dsimp only at same
  obtain ⟨same, micros⟩ := List.append_inj' same (by simp [padded_digits_length])
  obtain ⟨same, seconds⟩ := List.append_inj' same (by simp [padded_digits_length])
  obtain ⟨same, minutes⟩ := List.append_inj' same (by simp [padded_digits_length])
  obtain ⟨same, hours⟩ := List.append_inj' same (by simp [padded_digits_length])
  obtain ⟨same, day⟩ := List.append_inj' same (by simp [padded_digits_length])
  obtain ⟨year, month⟩ := List.append_inj' same (by simp [padded_digits_length])
  have monthA := civil_month (a.micros / 86400000000)
  have monthB := civil_month (b.micros / 86400000000)
  have date : civil (a.micros / 86400000000) = civil (b.micros / 86400000000) :=
    Prod.ext (padded_digits_injective 4 _ _ (civil_year _ (by omega)) (civil_year _ (by omega)) year)
      (Prod.ext (padded_digits_injective 2 _ _ monthA.1 monthB.1 (List.cons.inj month).2)
        (padded_digits_injective 2 _ _ monthA.2 monthB.2 (List.cons.inj day).2))
  have days := civil_injective _ _ date
  have hour := padded_digits_injective 2 _ _ (by omega) (by omega) (List.cons.inj hours).2
  have minute := padded_digits_injective 2 _ _ (by omega) (by omega) (List.cons.inj minutes).2
  have second := padded_digits_injective 2 _ _ (by omega) (by omega) (List.cons.inj seconds).2
  have micro := padded_digits_injective 6 _ _ (by omega) (by omega) (List.cons.inj micros).2
  have total : a.micros = b.micros := by omega
  obtain ⟨_, _⟩ := a
  cases total
  rfl

theorem utc_text_injective (a b : Instant) (same : utcText a = utcText b) : a = b := by
  refine iso_digits_injective a b
    (List.map_injective_iff.mpr (fun x y equal => ?_) (List.append_cancel_right same))
  exact CodePoint.scalar.inj equal

end CalibrationLedger
