import HedgedForecast.Proofs.Double.Bits

/-! # Doubles of decimal numbers

Quotients and products of doubles are rounded once, from the exact mantissa and what is known of the digits behind it.
So a double that an exact quotient or product is near is its result. A decimal number is made of digits and a power of
ten: both are doubles without an error as long as they are small, and else the quotient is taken of whole numbers that
keep enough digits.
-/

namespace HedgedForecast.Double

open Float.Model Float.Model.UnpackedFloat

variable {number : ℚ} {mantissa : ℕ} {exponent : ℤ} {accuracy : Accuracy}

/-- A double is near itself. -/
theorem isNear_exact (mantissa : ℕ) (exponent : ℤ) : IsNear (mantissa * 2 ^ exponent) mantissa exponent := by
  have unit : (0 : ℚ) < 2 ^ exponent := by positivity
  refine ⟨?_, fun _ => ?_, ?_, ?_⟩
  · nlinarith
  · nlinarith
  · nlinarith
  · rintro (same | same) <;> nlinarith

/-- A whole number of units is rounded, whatever the unit. -/
theorem exists_round (positive : 0 < mantissa) (exponent : ℤ) (sign : Sign) :
    ∃ whole place, IsRounded (mantissa * 2 ^ exponent) whole place ∧
      UnpackedFloat.round Format.binary64 sign mantissa exponent = settle sign whole place := by
  rw [UnpackedFloat.round, targetExponent_eq, decreaseExponent]
  generalize target : max ((mantissa.log2 : ℤ) + exponent - 52) (-1074) = place
  generalize width : (exponent - place).toNat = amount
  simp only [Nat.shiftLeft_eq]
  have digits : (2 : ℚ) ^ ((mantissa.log2 : ℤ) + exponent) ≤ mantissa * 2 ^ exponent := by
    rw [zpow_add₀ (by norm_num), zpow_natCast]
    gcongr
    exact_mod_cast Nat.log2_self_le positive.ne'
  have same : (mantissa * 2 ^ exponent : ℚ) = (mantissa * 2 ^ amount : ℕ) * 2 ^ (exponent - amount) := by
    rw [zpow_sub₀ (by norm_num), zpow_natCast]
    push_cast
    field_simp
  refine exists_isRounded sign ?_ ?_
  · rw [same, mul_div_cancel_right₀ _ (by positivity)]
    exact .exact _
  · by_cases low : exponent - amount ≤ -1074
    · exact .inr low
    · exact .inl ((two_zpow_le (by omega)).trans digits)

/-- A sum of positive doubles is rounded. -/
theorem exists_add {first second : ℕ} {scale scale' : ℤ} (positive : 0 < first) (positive' : 0 < second) :
    ∃ whole place, IsRounded (first * 2 ^ scale + second * 2 ^ scale') whole place ∧
      UnpackedFloat.add Format.binary64 (.finite .positive first scale positive)
        (.finite .positive second scale' positive') = settle .positive whole place := by
  rw [UnpackedFloat.add]
  generalize least : min scale scale' = unit
  obtain ⟨amount, distance⟩ := Int.eq_ofNat_of_zero_le (show 0 ≤ scale - unit by omega)
  obtain ⟨amount', distance'⟩ := Int.eq_ofNat_of_zero_le (show 0 ≤ scale' - unit by omega)
  simp only [decreaseExponent, distance, distance', Int.toNat_natCast, Nat.shiftLeft_eq, Sign.apply]
  have some : 0 < first * 2 ^ amount + second * 2 ^ amount' := by positivity
  have sum : ((first * 2 ^ amount : ℕ) + (second * 2 ^ amount' : ℕ) : ℤ) =
      (first * 2 ^ amount + second * 2 ^ amount' : ℕ) := by push_cast; rfl
  have same : (first * 2 ^ scale + second * 2 ^ scale' : ℚ) =
      (first * 2 ^ amount + second * 2 ^ amount' : ℕ) * 2 ^ unit := by
    rw [show scale = amount + unit by omega, show scale' = amount' + unit by omega, zpow_add₀ (by norm_num),
      zpow_add₀ (by norm_num), zpow_natCast, zpow_natCast]
    push_cast
    ring
  rw [same, sum, UnpackedFloat.normalize, Int.compare_eq_gt.mpr (by exact_mod_cast some)]
  exact exists_round some unit .positive

theorem tells_accuracyOfFraction {numerator denominator : ℕ} (positive : 0 < denominator) :
    Tells (accuracyOfFraction (numerator % denominator) denominator) (numerator / denominator)
      ((numerator : ℚ) / denominator) := by
  have unit : (0 : ℚ) < denominator := by exact_mod_cast positive
  have split : (numerator : ℚ) = denominator * (numerator / denominator : ℕ) + (numerator % denominator : ℕ) := by
    exact_mod_cast (Nat.div_add_mod numerator denominator).symm
  have rest : (numerator : ℚ) / denominator - (numerator / denominator : ℕ) =
      (numerator % denominator : ℕ) / denominator := by
    field_simp
    linarith
  have small : ((numerator % denominator : ℕ) : ℚ) < denominator := by exact_mod_cast Nat.mod_lt numerator positive
  rw [Tells, rest]
  generalize numerator % denominator = remainder at small
  rw [accuracyOfFraction]
  split_ifs with none
  · rw [none]
    simp [Describes]
  · have some : (0 : ℚ) < remainder := by exact_mod_cast Nat.pos_of_ne_zero none
    cases order : compare (2 * remainder) denominator with
    | lt =>
      have below : (2 * remainder : ℚ) < denominator := by exact_mod_cast Nat.compare_eq_lt.mp order
      refine ⟨by positivity, ?_⟩
      rw [div_lt_iff₀ unit]
      linarith
    | eq =>
      have same : (2 * remainder : ℚ) = denominator := by exact_mod_cast Nat.compare_eq_eq.mp order
      show (remainder : ℚ) / denominator = 1 / 2
      rw [div_eq_iff unit.ne']
      linarith
    | gt =>
      have above : (denominator : ℚ) < 2 * remainder := by exact_mod_cast Nat.compare_eq_gt.mp order
      refine ⟨?_, (div_lt_one unit).mpr small⟩
      rw [lt_div_iff₀ unit]
      linarith

section Quotient

variable {first second : ℕ} {scale scale' : ℤ}

/-- The quotient lies above a power of two that the mantissas tell. -/
theorem lt_quotient (positive : 0 < first) (positive' : 0 < second) :
    2 ^ ((first.log2 : ℤ) + scale - second.log2 - scale' - 1) < (first * 2 ^ scale : ℚ) / (second * 2 ^ scale') := by
  have low : (2 : ℚ) ^ first.log2 ≤ first := by exact_mod_cast Nat.log2_self_le positive.ne'
  have high : (second : ℚ) < 2 ^ (second.log2 + 1) := by exact_mod_cast Nat.lt_log2_self
  have unit : (0 : ℚ) < second := by exact_mod_cast positive'
  calc (2 : ℚ) ^ ((first.log2 : ℤ) + scale - second.log2 - scale' - 1)
      = (2 ^ first.log2 * 2 ^ scale) / (2 ^ (second.log2 + 1) * 2 ^ scale') := by
        rw [← zpow_natCast, ← zpow_natCast, ← zpow_add₀ (by norm_num), ← zpow_add₀ (by norm_num),
          ← zpow_sub₀ (by norm_num)]
        congr 1
        push_cast
        ring
    _ < (2 ^ first.log2 * 2 ^ scale) / (second * 2 ^ scale') := by gcongr
    _ ≤ (first * 2 ^ scale) / (second * 2 ^ scale') := by gcongr

/-- A quotient of doubles is rounded. -/
theorem exists_div (positive : 0 < first) (positive' : 0 < second) (sign sign' : Sign) :
    ∃ whole place, IsRounded ((first * 2 ^ scale) / (second * 2 ^ scale')) whole place ∧
      UnpackedFloat.div Format.binary64 (.finite sign first scale positive) (.finite sign' second scale' positive') =
        settle (sign / sign') whole place := by
  rw [UnpackedFloat.div, divCore]
  generalize target : min (scale - scale') (Format.binary64.targetExponent
    (totalExponent first scale - totalExponent second scale')) = place
  have bound : place ≤ max ((first.log2 : ℤ) + scale - second.log2 - scale' - 53) (-1074) := by
    have width : (Format.binary64.mantissaBits : ℤ) = 53 := rfl
    have least : Format.binary64.minExponent = -1074 := rfl
    rw [← target, Format.targetExponent, totalExponent, totalExponent, width, least]
    omega
  obtain ⟨amount, distance⟩ := Int.eq_ofNat_of_zero_le (show 0 ≤ scale - scale' - place by omega)
  simp only [distance, Int.toNat_natCast]
  have unit : (0 : ℚ) < second := by exact_mod_cast positive'
  have scaled :
      (first * 2 ^ scale : ℚ) / (second * 2 ^ scale') / 2 ^ place = ((first <<< amount : ℕ) : ℚ) / second := by
    have split : (2 : ℚ) ^ scale = 2 ^ amount * 2 ^ scale' * 2 ^ place := by
      rw [← zpow_natCast, ← zpow_add₀ (by norm_num), ← zpow_add₀ (by norm_num)]
      congr 1
      omega
    rw [Nat.shiftLeft_eq, split]
    push_cast
    field_simp
  refine exists_isRounded _ ?_ ?_
  · rw [scaled]
    exact tells_accuracyOfFraction positive'
  · by_cases low : place ≤ -1074
    · exact .inr low
    · exact .inl ((two_zpow_le (by omega)).trans (lt_quotient positive positive').le)

theorem div_eq (positive : 0 < first) (positive' : 0 < second) (sign sign' : Sign)
    (near : IsNear ((first * 2 ^ scale) / (second * 2 ^ scale')) mantissa exponent)
    (double : IsDouble mantissa exponent) :
    UnpackedFloat.div Format.binary64 (.finite sign first scale positive) (.finite sign' second scale' positive') =
      .finite (sign / sign') mantissa exponent double.positive := by
  obtain ⟨whole, place, rounded, same⟩ := exists_div positive positive' sign sign'
  rw [same, near.settle double rounded]

end Quotient

section Product

variable {first second : ℕ} {scale scale' : ℤ}

/-- A product is rounded if its mantissas, multiplied, fill that of a double. -/
theorem exists_mul (positive : 0 < first) (positive' : 0 < second) (full : 2 ^ 52 ≤ first * second)
    (sign sign' : Sign) :
    ∃ whole place, IsRounded (first * 2 ^ scale * (second * 2 ^ scale')) whole place ∧
      UnpackedFloat.mul Format.binary64 (.finite sign first scale positive) (.finite sign' second scale' positive') =
        settle (sign * sign') whole place := by
  have product : (first * 2 ^ scale * (second * 2 ^ scale') : ℚ) = (first * second : ℕ) * 2 ^ (scale + scale') := by
    rw [zpow_add₀ (by norm_num)]
    push_cast
    ring
  refine exists_isRounded _ ?_ ?_
  · rw [product, mul_div_cancel_right₀ _ (by positivity)]
    exact .exact _
  · have atLeast : (2 ^ 52 : ℚ) ≤ (first * second : ℕ) := by exact_mod_cast full
    refine .inl ?_
    rw [product, zpow_add₀ (by norm_num), mul_comm]
    gcongr
    exact atLeast

theorem mul_eq (positive : 0 < first) (positive' : 0 < second) (full : 2 ^ 52 ≤ second) (sign sign' : Sign)
    (near : IsNear (first * 2 ^ scale * (second * 2 ^ scale')) mantissa exponent)
    (double : IsDouble mantissa exponent) :
    UnpackedFloat.mul Format.binary64 (.finite sign first scale positive) (.finite sign' second scale' positive') =
      .finite (sign * sign') mantissa exponent double.positive := by
  have filled := full.trans (Nat.le_mul_of_pos_left second positive)
  obtain ⟨whole, place, rounded, same⟩ := exists_mul positive positive' filled sign sign'
  rw [same, near.settle double rounded]

/-- What is left of a rounded number is a double, as long as the number is not too large. -/
theorem isCanonical_settle {whole : ℕ} {place : ℤ} (rounded : IsRounded number whole place) (small : number < 2 ^ 1000)
    (sign : Sign) : IsCanonical (settle sign whole place) := by
  have most : place ≤ 970 := by
    obtain lower | least := rounded.place.lower
    · have := lt_of_two_zpow_lt (lower.trans_lt (small.trans_eq (zpow_natCast 2 1000).symm))
      omega
    · omega
  have least := rounded.place.least
  unfold settle
  split_ifs with none fits
  · trivial
  · exact ⟨Nat.pos_of_ne_zero none, fits, least, by omega, rounded.full⟩
  · exact ⟨by decide, by decide, by omega, by omega, .inl (le_refl _)⟩

end Product

/-- A double that is not subnormal and stands for a positive number. -/
def StandsFor (value : Float) (number : ℚ) : Prop :=
  ∃ mantissa exponent positive, value.toModel.unpack = .finite .positive mantissa exponent positive ∧
    2 ^ 52 ≤ mantissa ∧ mantissa * 2 ^ exponent = number

/-- Whole numbers with at most as many bits as a mantissa are doubles. -/
theorem standsFor_toFloat {whole : UInt64} (positive : 0 < whole.toNat) (small : whole.toNat < 2 ^ 53) :
    StandsFor whole.toFloat whole.toNat := by
  have bits : whole.toNat.log2 < 53 := (Nat.log2_lt positive.ne').mpr small
  obtain ⟨amount, width⟩ : ∃ amount, whole.toNat.log2 + amount = 52 := ⟨52 - whole.toNat.log2, by omega⟩
  have full : 2 ^ 52 ≤ whole.toNat * 2 ^ amount := by
    rw [← width, pow_add]
    exact Nat.mul_le_mul_right _ (Nat.log2_self_le positive.ne')
  have least : whole.toNat * 2 ^ amount < 2 ^ 53 := by
    rw [show 53 = whole.toNat.log2 + 1 + amount by omega, pow_add]
    exact Nat.mul_lt_mul_of_pos_right Nat.lt_log2_self (by positivity)
  have double : IsDouble (whole.toNat * 2 ^ amount) (-amount) :=
    ⟨by positivity, least, by omega, by omega, .inl full⟩
  have exact : (((whole.toNat * 2 ^ amount : ℕ) : ℚ)) * 2 ^ (-amount : ℤ) = whole.toNat := by
    rw [zpow_neg, zpow_natCast]
    push_cast
    field_simp
  have rounded : UnpackedFloat.ofUInt64 Format.binary64 whole =
      .finite .positive (whole.toNat * 2 ^ amount) (-amount) double.positive := by
    rw [UnpackedFloat.ofUInt64, UnpackedFloat.ofNat, UnpackedFloat.ofInt, UnpackedFloat.normalize,
      Int.compare_eq_gt.mpr (by omega)]
    simp only [Int.toNat_natCast]
    obtain ⟨number, place, near, same⟩ := exists_round positive 0 .positive
    rw [zpow_zero, mul_one, ← exact] at near
    rw [same, (isNear_exact _ _).settle double near]
  have unpacked : whole.toFloat.toModel.unpack =
      .finite .positive (whole.toNat * 2 ^ amount) (-amount) double.positive := by
    rw [show whole.toFloat = packed (UnpackedFloat.ofUInt64 Format.binary64 whole) from rfl, rounded]
    exact unpack_packed_finite double .positive
  exact ⟨_, _, _, unpacked, full, exact⟩

/-- Whether a double is the given power of ten. -/
def isPowerOfTen (value : Float) (power : ℕ) : Bool :=
  match value.toModel.unpack with
  | .finite .positive mantissa exponent _ =>
    2 ^ 52 ≤ mantissa && mantissa * 2 ^ exponent.toNat == 10 ^ power * 2 ^ (-exponent).toNat
  | _ => false

theorem standsFor_of_isPowerOfTen {value : Float} {power : ℕ} (holds : isPowerOfTen value power = true) :
    StandsFor value (10 ^ power) := by
  unfold isPowerOfTen at holds
  split at holds
  · next mantissa exponent positive unpacked =>
    simp only [Bool.and_eq_true, decide_eq_true_eq, beq_iff_eq] at holds
    refine ⟨mantissa, exponent, positive, unpacked, holds.1, ?_⟩
    have same : (mantissa : ℚ) * 2 ^ exponent.toNat = 10 ^ power * 2 ^ (-exponent).toNat := by exact_mod_cast holds.2
    have split : (2 : ℚ) ^ exponent * 2 ^ (-exponent).toNat = 2 ^ exponent.toNat := by
      rw [← zpow_natCast, ← zpow_natCast, ← zpow_add₀ (by norm_num)]
      congr 1
      omega
    rw [← split, ← mul_assoc] at same
    exact mul_right_cancel₀ (by positivity) same
  · contradiction

theorem standsFor_powersOfTen {power : ℕ} (small : power < Float.exactlyRepresentablePowersOfTen.size) :
    StandsFor (Float.exactlyRepresentablePowersOfTen[power]) (10 ^ power) := by
  have checked : ∀ power : Fin 23, isPowerOfTen (Float.exactlyRepresentablePowersOfTen[power]) power = true := by
    decide +kernel
  exact standsFor_of_isPowerOfTen (checked ⟨power, small⟩)

theorem standsFor_ofNat {whole : ℕ} (positive : 0 < whole) (small : whole < 2 ^ 53) :
    StandsFor (Float.ofNat whole) whole := by
  have bits : whole.toUInt64.toNat = whole := by
    rw [Nat.toUInt64_eq, UInt64.toNat_ofNat']
    omega
  obtain ⟨first, scale, positive', unpacked, full, same⟩ := standsFor_toFloat (bits.symm ▸ positive) (bits.symm ▸ small)
  obtain ⟨second, scale', positive'', unpacked', full', same'⟩ := standsFor_powersOfTen (show 0 < 23 by decide)
  rw [bits] at same
  rw [pow_zero] at same'
  have near : IsNear (first * 2 ^ scale * (second * 2 ^ scale')) first scale := by
    rw [same', mul_one]
    exact isNear_exact first scale
  have product := mul_eq positive' positive'' full' .positive .positive near (isDouble_of_unpack unpacked)
  rw [← unpacked, ← unpacked'] at product
  have value : Float.ofNat whole = packed (.finite .positive first scale positive') := by
    have fast : Float.ofNat whole = whole.toUInt64.toFloat * Float.exactlyRepresentablePowersOfTen[0] := by
      show Float.ofScientific whole false 0 = _
      rw [Float.ofScientific, dif_pos ⟨small, by decide⟩]
      rfl
    rw [fast]
    exact congrArg packed product
  rw [value]
  exact ⟨first, scale, positive', unpack_packed_finite (isDouble_of_unpack unpacked) .positive, full, same⟩

/-- Reading the digits of a decimal fraction gives the double that the fraction is near. -/
theorem ofScientific_eq {digits places : ℕ} (some : 0 < digits) (fraction : 0 < places)
    (few : places ≤ 2048 + digits.log2) (near : IsNear (digits / 10 ^ places) mantissa exponent)
    (double : IsDouble mantissa exponent) :
    Float.ofScientific digits true places = packed (.finite .positive mantissa exponent double.positive) := by
  unfold Float.ofScientific
  split
  · next small =>
    have bits : digits.toUInt64.toNat = digits := by
      rw [Nat.toUInt64_eq, UInt64.toNat_ofNat']
      omega
    obtain ⟨first, scale, positive, unpacked, _, same⟩ :=
      standsFor_toFloat (bits.symm ▸ some) (bits.symm ▸ small.1)
    obtain ⟨second, scale', positive', unpacked', _, same'⟩ :=
      standsFor_powersOfTen (show places < 23 by omega)
    rw [bits] at same
    rw [← same, ← same'] at near
    have quotient := div_eq positive positive' .positive .positive near double
    rw [← unpacked, ← unpacked'] at quotient
    exact congrArg packed quotient
  · have power : (-(-(places : ℤ))).toNat = places := by omega
    have read : UnpackedFloat.ofScientific Format.binary64 digits (-(places : ℤ)) =
        .finite .positive mantissa exponent double.positive := by
      have early : ¬-(places : ℤ) > 2 ^ Format.binary64.exponentBits := by
        have positive : (0 : ℤ) < 2 ^ Format.binary64.exponentBits := by positivity
        omega
      have late : ¬-(places : ℤ) < -((2 ^ Format.binary64.exponentBits : ℤ) + digits.log2) := by
        have width : (2 ^ Format.binary64.exponentBits : ℤ) = 2048 := rfl
        omega
      rw [UnpackedFloat.ofScientific, dif_neg some.ne', if_neg early, if_neg late, if_neg (by omega)]
      simp only [power]
      refine div_eq some (by positivity) .positive .positive ?_ double
      simpa using near
    simp only [if_true, Int.negOfNat_eq]
    exact congrArg packed read

end HedgedForecast.Double
