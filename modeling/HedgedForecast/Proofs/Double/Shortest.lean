import HedgedForecast.Proofs.Double.Rounding
import HedgedForecast.Decimal.Shortest

/-! # Shortest digits

The numbers that are rounded to a double form an interval around it. A decimal is searched from coarse to fine places,
next to the double on both sides, and the first one in the interval is taken. The search ends: at the seventeenth digit
the interval is longer than the distance of two decimals. So the digits that are printed are near their double.
-/

namespace HedgedForecast.Decimal

/-- A power with a negative exponent is a quotient of two powers, one of which is one. -/
theorem zpow_mul_pow {base : ℚ} (nonzero : base ≠ 0) (exponent : ℤ) :
    base ^ exponent * base ^ (-exponent).toNat = base ^ exponent.toNat := by
  rw [← zpow_natCast, ← zpow_natCast, ← zpow_add₀ nonzero]
  congr 1
  omega

/-- The number that digits stand for. -/
def Digits.value (d : Digits) : ℚ :=
  d.digits * 10 ^ d.exponent

theorem Digits.value_mul (d : Digits) :
    d.value * 10 ^ (-d.exponent).toNat = d.digits * 10 ^ d.exponent.toNat := by
  rw [value, mul_assoc, zpow_mul_pow (by norm_num)]

theorem value_stripZeros (fuel : ℕ) (d : Digits) : (stripZeros fuel d).value = d.value := by
  induction fuel generalizing d with
  | zero => rfl
  | succ fuel ih =>
    rw [stripZeros]
    split
    · next zeros =>
      simp only [Bool.and_eq_true, bne_iff_ne, beq_iff_eq] at zeros
      have whole : (d.digits : ℚ) = 10 * (d.digits / 10 : ℕ) := by
        exact_mod_cast (Nat.mul_div_cancel' (Nat.dvd_of_mod_eq_zero zeros.2)).symm
      rw [ih, Digits.value, Digits.value, whole, zpow_add₀ (by norm_num), zpow_one]
      ring
    · rfl

namespace Rounding

variable {r : Rounding}

/-- The lower end of the interval. -/
def bottom (r : Rounding) : ℚ :=
  r.low / r.denominator

/-- The number within the interval. -/
def number (r : Rounding) : ℚ :=
  r.value / r.denominator

/-- The upper end of the interval. -/
def top (r : Rounding) : ℚ :=
  r.high / r.denominator

/-- An interval around its number. -/
structure IsProper (r : Rounding) : Prop where
  denominator : 0 < r.denominator
  low : r.bottom < r.number
  high : r.number < r.top

/-- Being admitted is lying in the interval. -/
theorem admits_iff (proper : r.IsProper) (d : Digits) :
    r.admits d = true ↔
      if r.closed then r.bottom ≤ d.value ∧ d.value ≤ r.top else r.bottom < d.value ∧ d.value < r.top := by
  have unit : (0 : ℚ) < r.denominator := by exact_mod_cast proper.denominator
  have scale : (0 : ℚ) < 10 ^ (-d.exponent).toNat := by positivity
  have left : ((d.digits * Nat.pow 10 d.exponent.toNat * r.denominator : ℕ) : ℚ) =
      d.value * r.denominator * 10 ^ (-d.exponent).toNat := by
    rw [mul_right_comm (d.value), d.value_mul, Nat.pow_eq]
    push_cast
    rfl
  have low : (r.low : ℚ) = r.bottom * r.denominator := (div_mul_cancel₀ _ unit.ne').symm
  have high : (r.high : ℚ) = r.top * r.denominator := (div_mul_cancel₀ _ unit.ne').symm
  rw [admits]
  split
  · rw [Bool.and_eq_true, decide_eq_true_eq, decide_eq_true_eq, ← @Nat.cast_le ℚ, ← @Nat.cast_le ℚ, left,
      Nat.pow_eq]
    push_cast
    rw [low, high, mul_le_mul_iff_of_pos_right scale, mul_le_mul_iff_of_pos_right scale,
      mul_le_mul_iff_of_pos_right unit, mul_le_mul_iff_of_pos_right unit]
  · rw [Bool.and_eq_true, decide_eq_true_eq, decide_eq_true_eq, ← @Nat.cast_lt ℚ, ← @Nat.cast_lt ℚ, left,
      Nat.pow_eq]
    push_cast
    rw [low, high, mul_lt_mul_iff_of_pos_right scale, mul_lt_mul_iff_of_pos_right scale,
      mul_lt_mul_iff_of_pos_right unit, mul_lt_mul_iff_of_pos_right unit]

theorem admits_of_onGrid? {exponent : ℤ} {d : Digits} (found : r.onGrid? exponent = some d) : r.admits d = true := by
  simp only [onGrid?] at found
  split at found
  · cases found
    split <;> assumption
  · cases found
    assumption
  · cases found
    assumption
  · contradiction

theorem cast_div_bounds (numerator : ℕ) {denominator : ℕ} (positive : 0 < denominator) :
    ((numerator / denominator : ℕ) : ℚ) ≤ numerator / denominator ∧
      (numerator : ℚ) / denominator < (numerator / denominator : ℕ) + 1 := by
  have unit : (0 : ℚ) < denominator := by exact_mod_cast positive
  rw [le_div_iff₀ unit, div_lt_iff₀ unit]
  exact ⟨by exact_mod_cast Nat.div_mul_le_self _ _,
    by exact_mod_cast Nat.lt_mul_of_div_lt (Nat.lt_succ_self _) positive⟩

/-- The number lies between the last decimal below it and the next one. -/
theorem below_bounds (proper : r.IsProper) (exponent : ℤ) :
    (r.below exponent).value ≤ r.number ∧ r.number < (r.below exponent).value + 10 ^ exponent := by
  have unit : (0 : ℚ) < r.denominator := by exact_mod_cast proper.denominator
  have grid : (0 : ℚ) < 10 ^ exponent := by positivity
  have split : (10 : ℚ) ^ exponent * 10 ^ (-exponent).toNat = 10 ^ exponent.toNat := zpow_mul_pow (by norm_num) exponent
  have quotient : ((r.value * Nat.pow 10 (-exponent).toNat : ℕ) : ℚ) /
      ((Nat.pow 10 exponent.toNat * r.denominator : ℕ) : ℚ) = r.number / 10 ^ exponent := by
    rw [number, Nat.pow_eq, Nat.pow_eq]
    push_cast
    rw [← split]
    field_simp
  have digits := cast_div_bounds (r.value * Nat.pow 10 (-exponent).toNat)
    (Nat.mul_pos (Nat.pow_pos (by decide)) proper.denominator : 0 < Nat.pow 10 exponent.toNat * r.denominator)
  rw [quotient, le_div_iff₀ grid, div_lt_iff₀ grid, add_one_mul] at digits
  exact digits

/-- An interval that is longer than the distance of two decimals contains one of the two around its number. -/
theorem exists_onGrid? (proper : r.IsProper) {exponent : ℤ} (fine : 10 ^ exponent < r.top - r.bottom) :
    ∃ d, r.onGrid? exponent = some d := by
  obtain ⟨low, high⟩ := below_bounds proper exponent
  have inside := proper.low
  have inside' := proper.high
  have next :
      (⟨(r.below exponent).digits + 1, exponent⟩ : Digits).value = (r.below exponent).value + 10 ^ exponent := by
    rw [Digits.value, Digits.value]
    push_cast
    exact add_one_mul _ _
  have one : r.admits (r.below exponent) = true ∨ r.admits ⟨(r.below exponent).digits + 1, exponent⟩ = true := by
    rw [admits_iff proper, admits_iff proper, next]
    by_contra neither
    obtain ⟨out, out'⟩ := not_or.mp neither
    have under : (r.below exponent).value ≤ r.bottom := by
      by_contra beyond
      split at out
      · exact out ⟨by linarith, by linarith⟩
      · exact out ⟨by linarith, by linarith⟩
    have beyond : r.top ≤ (r.below exponent).value + 10 ^ exponent := by
      by_contra under
      split at out'
      · exact out' ⟨by linarith, by linarith⟩
      · exact out' ⟨by linarith, by linarith⟩
    linarith
  unfold onGrid?
  obtain admitted | admitted := one
  · cases other : r.admits ⟨(r.below exponent).digits + 1, exponent⟩ <;> simp [admitted, other]
  · cases other : r.admits (r.below exponent) <;> simp [admitted, other]

/-- A search that finds decimals on the finest grid finds one that is admitted. -/
theorem admits_search (fuel : ℕ) (exponent : ℤ) (finest : ∃ d, r.onGrid? (exponent - fuel) = some d) :
    r.admits (r.search (fuel + 1) exponent) = true := by
  induction fuel generalizing exponent with
  | zero =>
    obtain ⟨d, found⟩ := finest
    rw [Nat.cast_zero, sub_zero] at found
    simp only [search, found]
    exact admits_of_onGrid? found
  | succ fuel ih =>
    rw [search]
    split
    · next found => exact admits_of_onGrid? found
    · refine ih _ ?_
      push_cast at finest
      rwa [show exponent - 1 - (fuel : ℤ) = exponent - (fuel + 1) by ring]

theorem le_leastShift {value denominator fuel start shift : ℕ} (enough : denominator ≤ value * 10 ^ shift)
    (late : start ≤ shift) (near : shift < start + fuel) :
    denominator ≤ value * 10 ^ leastShift value denominator fuel start := by
  induction fuel generalizing start with
  | zero => omega
  | succ fuel ih =>
    rw [leastShift]
    split
    · next reached => exact reached
    · next short =>
      refine ih ?_ (by omega)
      refine Nat.lt_of_le_of_ne late ?_
      rintro rfl
      exact short enough

/-- No number has its first digit further behind the point than the search for it goes. -/
theorem magnitude_le (proper : r.IsProper) (large : 1 ≤ r.number * 10 ^ 400) :
    10 ^ (r.magnitude - 1) ≤ r.number := by
  have unit : (0 : ℚ) < r.denominator := by exact_mod_cast proper.denominator
  unfold magnitude
  split
  · next whole =>
    have some : 0 < r.value / r.denominator := Nat.div_pos whole proper.denominator
    have digits : 0 < (Nat.toDigits 10 (r.value / r.denominator)).length := Nat.length_toDigits_pos
    obtain ⟨length, same⟩ := Nat.exists_eq_succ_of_ne_zero digits.ne'
    have power : 10 ^ length ≤ r.value / r.denominator := by
      cases length with
      | zero => exact some
      | succ length =>
        by_contra short
        have := (Nat.length_toDigits_le_iff (by decide) (Nat.succ_pos length)).mpr (Nat.lt_of_not_le short)
        omega
    rw [same]
    push_cast
    rw [add_sub_cancel_right, zpow_natCast]
    calc (10 : ℚ) ^ length ≤ (r.value / r.denominator : ℕ) := by exact_mod_cast power
      _ ≤ r.number := (cast_div_bounds _ proper.denominator).1
  · next small =>
    have enough : r.denominator ≤ r.value * 10 ^ 400 := by
      have : (r.denominator : ℚ) ≤ r.value * 10 ^ 400 := by
        rw [number, div_mul_eq_mul_div, one_le_div unit] at large
        exact large
      exact_mod_cast this
    have reached : (r.denominator : ℚ) ≤ r.value * 10 ^ leastShift r.value r.denominator 400 1 := by
      exact_mod_cast le_leastShift enough (by decide) (by decide)
    rw [sub_sub_cancel_left, zpow_neg, zpow_natCast, number, inv_le_iff_one_le_mul₀ (by positivity),
      div_mul_eq_mul_div, one_le_div unit]
    exact reached

end Rounding

section Doubles

open Double

variable {mantissa : ℕ} {exponent : ℤ}

/-- The rounding interval of a double. -/
abbrev interval (mantissa : ℕ) (exponent : ℤ) : Rounding :=
  .ofBinary mantissa exponent (isLowest mantissa exponent)

/-- Quarters of the last place of a double, as a quotient of two powers. -/
theorem quarters_div (exponent : ℤ) (quarters : ℚ) :
    quarters * 2 ^ (exponent - 2).toNat / 2 ^ (-(exponent - 2)).toNat = quarters / 4 * 2 ^ exponent := by
  rw [← zpow_mul_pow (by norm_num), zpow_sub₀ (by norm_num)]
  field_simp
  norm_num

theorem bottom_interval (positive : 0 < mantissa) : (interval mantissa exponent).bottom =
    (mantissa - if isLowest mantissa exponent then 1 / 4 else 1 / 2) * 2 ^ exponent := by
  have low : (interval mantissa exponent).low =
      (4 * mantissa - if isLowest mantissa exponent then 1 else 2) * 2 ^ (exponent - 2).toNat := rfl
  have denominator : (interval mantissa exponent).denominator = 2 ^ (-(exponent - 2)).toNat := rfl
  have small : (if isLowest mantissa exponent then 1 else 2) ≤ 4 * mantissa := by split <;> omega
  rw [Rounding.bottom, low, denominator]
  push_cast [Nat.cast_sub small]
  rw [quarters_div]
  split <;> ring

theorem number_interval : (interval mantissa exponent).number = mantissa * 2 ^ exponent := by
  have value : (interval mantissa exponent).value = 4 * mantissa * 2 ^ (exponent - 2).toNat := rfl
  have denominator : (interval mantissa exponent).denominator = 2 ^ (-(exponent - 2)).toNat := rfl
  rw [Rounding.number, value, denominator]
  push_cast
  rw [quarters_div]
  ring

theorem top_interval : (interval mantissa exponent).top = (mantissa + 1 / 2) * 2 ^ exponent := by
  have high : (interval mantissa exponent).high = (4 * mantissa + 2) * 2 ^ (exponent - 2).toNat := rfl
  have denominator : (interval mantissa exponent).denominator = 2 ^ (-(exponent - 2)).toNat := rfl
  rw [Rounding.top, high, denominator]
  push_cast
  rw [quarters_div]
  ring

theorem isProper_interval (positive : 0 < mantissa) (exponent : ℤ) : (interval mantissa exponent).IsProper := by
  have unit : (0 : ℚ) < 2 ^ exponent := by positivity
  refine ⟨Nat.pow_pos (by decide), ?_, ?_⟩
  · rw [bottom_interval positive, number_interval]
    split <;> linarith
  · rw [number_interval, top_interval]
    linarith

theorem isNear_of_admits (positive : 0 < mantissa) {d : Digits}
    (admitted : (interval mantissa exponent).admits d = true) : IsNear d.value mantissa exponent := by
  have unit : (0 : ℚ) < 2 ^ exponent := by positivity
  have closed : (interval mantissa exponent).closed = (mantissa % 2 == 0) := rfl
  rw [Rounding.admits_iff (isProper_interval positive exponent), bottom_interval positive, top_interval, closed]
    at admitted
  cases lowest : isLowest mantissa exponent with
  | false =>
    simp only [lowest, Bool.false_eq_true, if_false] at admitted
    split at admitted
    · next even =>
      exact ⟨admitted.1, fun first => absurd (lowest.symm.trans first) (by decide), admitted.2,
        fun _ => by simpa using even⟩
    · refine ⟨admitted.1.le, fun first => absurd (lowest.symm.trans first) (by decide), admitted.2.le, ?_⟩
      rintro (same | same)
      · exact absurd same admitted.1.ne'
      · exact absurd same admitted.2.ne
  | true =>
    have even : mantissa % 2 = 0 := by
      simp only [isLowest, Bool.and_eq_true, beq_iff_eq] at lowest
      rw [lowest.1]
      rfl
    simp only [lowest, if_true, even, beq_self_eq_true] at admitted
    exact ⟨by linarith, fun _ => admitted.1, admitted.2, fun _ => even⟩

/-- The least double has its first digit within the four hundred that are searched. -/
theorem one_le_number (double : IsDouble mantissa exponent) : 1 ≤ (interval mantissa exponent).number * 10 ^ 400 := by
  have some : (1 : ℚ) ≤ mantissa := by exact_mod_cast double.positive
  have eighths : (2 : ℚ) ^ 1074 ≤ 10 ^ 400 := by
    calc (2 : ℚ) ^ 1074 = (2 ^ 3) ^ 358 := by rw [← pow_mul]
      _ ≤ 10 ^ 358 := by gcongr; norm_num
      _ ≤ 10 ^ 400 := by gcongr <;> norm_num
  have least : (2 : ℚ) ^ (-1074 : ℤ) ≤ mantissa * 2 ^ exponent := by
    calc (2 : ℚ) ^ (-1074 : ℤ) ≤ 2 ^ exponent := two_zpow_le double.least
      _ ≤ mantissa * 2 ^ exponent := le_mul_of_one_le_left (by positivity) some
  rw [number_interval]
  calc (1 : ℚ) = 2 ^ (-1074 : ℤ) * 2 ^ 1074 := by
        rw [← zpow_natCast, ← zpow_add₀ (by norm_num)]
        rfl
    _ ≤ mantissa * 2 ^ exponent * 10 ^ 400 := by gcongr

/-- Seventeen digits are enough. -/
theorem seventeen_lt (double : IsDouble mantissa exponent) :
    mantissa * 2 ^ exponent / 10 ^ 16 < (interval mantissa exponent).top - (interval mantissa exponent).bottom := by
  have unit : (0 : ℚ) < 2 ^ exponent := by positivity
  have small : (mantissa : ℚ) < 2 ^ 53 := by exact_mod_cast double.small
  rw [bottom_interval double.positive, top_interval, ← sub_mul, mul_div_right_comm, mul_lt_mul_iff_of_pos_right unit,
    div_lt_iff₀ (by norm_num)]
  cases lowest : isLowest mantissa exponent with
  | false =>
    norm_num at small ⊢
    linarith
  | true =>
    simp only [isLowest, Bool.and_eq_true, beq_iff_eq] at lowest
    rw [lowest.1]
    norm_num

/-- The shortest digits of a double are near it. -/
theorem isNear_shortest (double : IsDouble mantissa exponent) :
    IsNear (shortest mantissa exponent (isLowest mantissa exponent)).value mantissa exponent := by
  have proper := isProper_interval double.positive exponent
  have first := Rounding.magnitude_le proper (one_le_number double)
  have finest : 10 ^ ((interval mantissa exponent).magnitude - 1 - (16 : ℕ)) <
      (interval mantissa exponent).top - (interval mantissa exponent).bottom := by
    refine lt_of_le_of_lt ?_ (seventeen_lt double)
    rw [zpow_sub₀ (by norm_num), zpow_natCast, ← number_interval]
    gcongr
  have admitted := Rounding.admits_search 16 _ (Rounding.exists_onGrid? proper finest)
  rw [shortest, if_neg (by simpa using double.positive.ne'), value_stripZeros]
  exact isNear_of_admits double.positive admitted

end Doubles

end HedgedForecast.Decimal
