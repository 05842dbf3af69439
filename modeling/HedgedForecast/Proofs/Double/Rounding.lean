import Mathlib

/-! # Rounding to a double

A number is handed to rounding as a mantissa, an exponent and what is known of the digits behind the mantissa.
Rounding shifts the mantissa until its last place is that of the doubles around the number, and takes the nearest
multiple of that place, the even one of two. So every number between the midpoints on both sides of a double is rounded
to this double.
-/

namespace HedgedForecast.Double

open Float.Model Float.Model.UnpackedFloat

/-- What an accuracy says about the part of a number behind its mantissa. -/
def Describes : Accuracy → ℚ → Prop
  | .exact, rest => rest = 0
  | .inexact .lt, rest => 0 < rest ∧ rest < 1 / 2
  | .inexact .eq, rest => rest = 1 / 2
  | .inexact .gt, rest => 1 / 2 < rest ∧ rest < 1

/-- The mantissa is the whole part of the number, and the accuracy describes the rest. -/
def Tells (accuracy : Accuracy) (mantissa : ℕ) (number : ℚ) : Prop :=
  Describes accuracy (number - mantissa)

/-- One of the nearest whole numbers, the even one of two. -/
structure IsNearest (whole : ℕ) (number : ℚ) : Prop where
  within : (whole : ℚ) - 1 / 2 ≤ number ∧ number ≤ whole + 1 / 2
  even : number = whole - 1 / 2 ∨ number = whole + 1 / 2 → whole % 2 = 0

variable {number : ℚ} {mantissa whole : ℕ} {exponent : ℤ} {accuracy : Accuracy}

theorem Tells.bounds (tells : Tells accuracy mantissa number) : (mantissa : ℚ) ≤ number ∧ number < mantissa + 1 := by
  unfold Tells Describes at tells
  split at tells <;> constructor <;> linarith

theorem Tells.exact (mantissa : ℕ) : Tells .exact mantissa mantissa :=
  sub_self _

theorem Tells.isNearest (tells : Tells accuracy mantissa number) :
    IsNearest (accuracy.roundToNearestEven mantissa) number := by
  unfold Tells Describes at tells
  split at tells
  · refine ⟨⟨?_, ?_⟩, ?_⟩ <;> simp only [Accuracy.roundToNearestEven]
    · linarith
    · linarith
    · rintro (low | high) <;> linarith
  · refine ⟨⟨?_, ?_⟩, ?_⟩ <;> simp only [Accuracy.roundToNearestEven]
    · linarith
    · linarith
    · rintro (low | high) <;> linarith
  · have parity : ((mantissa % 2 : ℕ) : ℚ) = 0 ∨ ((mantissa % 2 : ℕ) : ℚ) = 1 := by
      obtain even | odd := Nat.mod_two_eq_zero_or_one mantissa
      · exact .inl (by rw [even]; rfl)
      · exact .inr (by rw [odd]; rfl)
    refine ⟨?_, fun _ => ?_⟩ <;> simp only [Accuracy.roundToNearestEven, Nat.cast_add]
    · obtain even | odd := parity
      · constructor <;> linarith
      · constructor <;> linarith
    · omega
  · refine ⟨⟨?_, ?_⟩, ?_⟩ <;> simp only [Accuracy.roundToNearestEven, Nat.cast_add, Nat.cast_one]
    · linarith
    · linarith
    · rintro (low | high) <;> linarith

/-- There is no other whole number as near. -/
theorem IsNearest.eq {other : ℕ} (nearest : IsNearest whole number) (isNearest : IsNearest other number) :
    whole = other := by
  obtain ⟨⟨low, high⟩, even⟩ := nearest
  obtain ⟨⟨low', high'⟩, even'⟩ := isNearest
  by_contra differ
  obtain below | above := Nat.lt_or_gt_of_ne differ
  · have next : (whole : ℚ) + 1 ≤ other := by exact_mod_cast below
    have tie : number = whole + 1 / 2 := by linarith
    have same : other = whole + 1 := by
      have : (other : ℚ) ≤ whole + 1 := by linarith
      have : other ≤ whole + 1 := by exact_mod_cast this
      omega
    have evens := even (.inr tie)
    have evens' := even' (.inl (by rw [same]; push_cast; linarith))
    omega
  · have next : (other : ℚ) + 1 ≤ whole := by exact_mod_cast above
    have tie : number = other + 1 / 2 := by linarith
    have same : whole = other + 1 := by
      have : (whole : ℚ) ≤ other + 1 := by linarith
      have : whole ≤ other + 1 := by exact_mod_cast this
      omega
    have evens := even (.inl (by rw [same]; push_cast; linarith))
    have evens' := even' (.inr tie)
    omega

theorem tells_shiftRightOne {extended : ExtendedMantissa} (tells : Tells extended.accuracy extended.mantissa number) :
    Tells extended.shiftRightOne.accuracy extended.shiftRightOne.mantissa (number / 2) := by
  obtain ⟨mantissa, roundBit, stickyBit⟩ := extended
  have split : (mantissa : ℚ) = 2 * (mantissa / 2 : ℕ) + (mantissa % 2 : ℕ) := by
    exact_mod_cast (Nat.div_add_mod mantissa 2).symm
  unfold Tells at tells ⊢
  simp only [ExtendedMantissa.shiftRightOne] at tells ⊢
  obtain even | odd := Nat.mod_two_eq_zero_or_one mantissa
  · rw [even, Nat.cast_zero, add_zero] at split
    rw [even]
    cases roundBit <;> cases stickyBit <;> simp [ExtendedMantissa.accuracy, Describes] at tells ⊢ <;>
      first | linarith | (constructor <;> linarith)
  · rw [odd, Nat.cast_one] at split
    rw [odd]
    cases roundBit <;> cases stickyBit <;> simp [ExtendedMantissa.accuracy, Describes] at tells ⊢ <;>
      first | linarith | (constructor <;> linarith)

theorem tells_shiftRight {extended : ExtendedMantissa} (tells : Tells extended.accuracy extended.mantissa number)
    (amount : ℕ) : Tells (extended >>> amount).accuracy (extended >>> amount).mantissa (number / 2 ^ amount) := by
  induction amount with
  | zero => simpa [HShiftRight.hShiftRight, Nat.repeat] using tells
  | succ amount ih =>
    have next := tells_shiftRightOne ih
    rw [div_div, ← pow_succ] at next
    exact next

theorem accuracy_ofMantissaAndAccuracy (mantissa : ℕ) (accuracy : Accuracy) :
    (ExtendedMantissa.ofMantissaAndAccuracy mantissa accuracy).accuracy = accuracy := by
  rcases accuracy with _ | order
  · rfl
  · cases order <;> rfl

theorem mantissa_ofMantissaAndAccuracy (mantissa : ℕ) (accuracy : Accuracy) :
    (ExtendedMantissa.ofMantissaAndAccuracy mantissa accuracy).mantissa = mantissa := by
  rcases accuracy with _ | order
  · rfl
  · cases order <;> rfl

/-- The exponent of the doubles around a number of which mantissa and exponent are given. -/
theorem targetExponent_eq (mantissa : ℕ) (exponent : ℤ) :
    Format.binary64.targetExponent (totalExponent mantissa exponent) = max (mantissa.log2 + exponent - 52) (-1074) := by
  simp only [Format.targetExponent, totalExponent, Format.mantissaBits, Format.minExponent]
  norm_num
  omega

/-- The last place of the doubles around a number. -/
structure IsPlace (number : ℚ) (exponent : ℤ) : Prop where
  least : -1074 ≤ exponent
  upper : number < 2 ^ (exponent + 53)
  lower : 2 ^ (exponent + 52) ≤ number ∨ exponent = -1074

/-- A number is given finely enough to be rounded if its mantissa fills that of a double. -/
def IsFine (number : ℚ) (exponent : ℤ) : Prop :=
  2 ^ (exponent + 52) ≤ number ∨ exponent ≤ -1074

theorem two_zpow_le {low high : ℤ} (ordered : low ≤ high) : (2 : ℚ) ^ low ≤ 2 ^ high :=
  zpow_le_zpow_right₀ (by norm_num) ordered

theorem lt_of_two_zpow_lt {low high : ℤ} (ordered : (2 : ℚ) ^ low < 2 ^ high) : low < high :=
  (zpow_lt_zpow_iff_right₀ (by norm_num)).mp ordered

/-- A number lies between two powers of two that its mantissa tells. -/
theorem Tells.binade (tells : Tells accuracy mantissa (number / 2 ^ exponent)) (some : mantissa ≠ 0) :
    2 ^ (mantissa.log2 + exponent) ≤ number ∧ number < 2 ^ (mantissa.log2 + exponent + 1) := by
  obtain ⟨low, high⟩ := tells.bounds
  have place : (0 : ℚ) < 2 ^ exponent := by positivity
  rw [le_div_iff₀ place] at low
  rw [div_lt_iff₀ place] at high
  have least : (2 : ℚ) ^ mantissa.log2 ≤ mantissa := by exact_mod_cast Nat.log2_self_le some
  have most : (mantissa : ℚ) + 1 ≤ 2 ^ (mantissa.log2 + 1) := by exact_mod_cast Nat.lt_log2_self
  constructor
  · calc (2 : ℚ) ^ (mantissa.log2 + exponent : ℤ) = 2 ^ mantissa.log2 * 2 ^ exponent := by
          rw [zpow_add₀ (by norm_num), zpow_natCast]
      _ ≤ mantissa * 2 ^ exponent := by gcongr
      _ ≤ number := low
  · calc number < (mantissa + 1) * 2 ^ exponent := high
      _ ≤ 2 ^ (mantissa.log2 + 1) * 2 ^ exponent := by gcongr
      _ = 2 ^ (mantissa.log2 + exponent + 1 : ℤ) := by
          rw [← zpow_natCast, ← zpow_add₀ (by norm_num)]
          congr 1
          push_cast
          ring

theorem Tells.isPlace (tells : Tells accuracy mantissa (number / 2 ^ exponent)) (fine : IsFine number exponent) :
    exponent ≤ max (mantissa.log2 + exponent - 52) (-1074) ∧
      IsPlace number (max (mantissa.log2 + exponent - 52) (-1074)) := by
  by_cases none : mantissa = 0
  · subst none
    have below : number < 2 ^ exponent := by
      have high := tells.bounds.2
      rwa [Nat.cast_zero, zero_add, div_lt_one (by positivity)] at high
    have low : exponent ≤ -1074 := by
      obtain full | low := fine
      · have := lt_of_two_zpow_lt (full.trans_lt below)
        omega
      · exact low
    have place : max ((Nat.log2 0 : ℤ) + exponent - 52) (-1074) = -1074 := by
      rw [Nat.log2_zero]
      omega
    rw [place]
    exact ⟨low, le_refl _, below.trans_le (two_zpow_le (by omega)), .inr rfl⟩
  · obtain ⟨low, high⟩ := tells.binade none
    refine ⟨?_, le_max_right _ _, high.trans_le (two_zpow_le (by omega)), ?_⟩
    · obtain full | low := fine
      · have := lt_of_two_zpow_lt (full.trans_lt high)
        omega
      · omega
    · by_cases small : (mantissa.log2 : ℤ) + exponent - 52 ≤ -1074
      · exact .inr (max_eq_right small)
      · exact .inl ((two_zpow_le (by omega)).trans low)

/-- What is left of a number when it is rounded to its place. -/
structure IsRounded (number : ℚ) (whole : ℕ) (exponent : ℤ) : Prop where
  place : IsPlace number exponent
  nearest : IsNearest whole (number / 2 ^ exponent)

theorem IsNearest.le {bound : ℕ} (nearest : IsNearest whole number) (low : bound ≤ number) : bound ≤ whole := by
  by_contra below
  have next : (whole : ℚ) + 1 ≤ bound := by exact_mod_cast Nat.lt_of_not_le below
  have := nearest.within.2
  linarith

theorem IsNearest.ge {bound : ℕ} (nearest : IsNearest whole number) (high : number ≤ bound) : whole ≤ bound := by
  by_contra above
  have next : (bound : ℚ) + 1 ≤ whole := by exact_mod_cast Nat.lt_of_not_le above
  have := nearest.within.1
  linarith

theorem IsRounded.le (rounded : IsRounded number whole exponent) : whole ≤ 2 ^ 53 := by
  refine rounded.nearest.ge (le_of_lt ?_)
  rw [div_lt_iff₀ (by positivity)]
  have upper := rounded.place.upper
  rw [zpow_add₀ (by norm_num)] at upper
  push_cast
  linarith

theorem IsRounded.full (rounded : IsRounded number whole exponent) : 2 ^ 52 ≤ whole ∨ exponent = -1074 := by
  refine rounded.place.lower.imp_left fun lower => rounded.nearest.le ?_
  rw [le_div_iff₀ (by positivity)]
  rw [zpow_add₀ (by norm_num)] at lower
  push_cast
  linarith

theorem shiftToTargetExponent_small (small : mantissa < 2 ^ 53) (least : -1074 ≤ exponent) :
    shiftToTargetExponent Format.binary64 mantissa exponent .exact = (⟨mantissa, false, false⟩, exponent) := by
  have bits : mantissa.log2 ≤ 52 := by
    by_cases none : mantissa = 0
    · simp [none]
    · exact Nat.le_of_lt_succ ((Nat.log2_lt none).mpr small)
  have still : (Format.binary64.targetExponent (totalExponent mantissa exponent) - exponent).toNat = 0 := by
    rw [targetExponent_eq]
    omega
  simp [shiftToTargetExponent, shiftToExponent, still, HShiftRight.hShiftRight, Nat.repeat,
    ExtendedMantissa.ofMantissaAndAccuracy]

theorem shiftToTargetExponent_carry (least : -1074 ≤ exponent) :
    shiftToTargetExponent Format.binary64 (2 ^ 53) exponent .exact = (⟨2 ^ 52, false, false⟩, exponent + 1) := by
  have target : Format.binary64.targetExponent (totalExponent (2 ^ 53) exponent) = exponent + 1 := by
    rw [targetExponent_eq, Nat.log2_two_pow]
    omega
  rw [shiftToTargetExponent, target, shiftToExponent, add_sub_cancel_left]
  rfl

/-- The double that is left of a rounded number; its mantissa may have got one digit more. -/
def settle (sign : Sign) (whole : ℕ) (exponent : ℤ) : UnpackedFloat :=
  if none : whole = 0 then .zero sign
  else if whole < 2 ^ 53 then .finite sign whole exponent (Nat.pos_of_ne_zero none)
  else .finite sign (2 ^ 52) (exponent + 1) (by decide)

theorem roundWithAccuracy_eq_settle {place : ℤ} {extended : ExtendedMantissa}
    (shifted : shiftToTargetExponent Format.binary64 mantissa exponent accuracy = (extended, place))
    (least : -1074 ≤ place) (carried : extended.roundedMantissa ≤ 2 ^ 53) (sign : Sign) :
    roundWithAccuracy Format.binary64 sign mantissa exponent accuracy = settle sign extended.roundedMantissa place := by
  rw [roundWithAccuracy, shifted]
  dsimp only
  generalize extended.roundedMantissa = whole at carried ⊢
  obtain small | rfl := carried.lt_or_eq
  · simp only [shiftToTargetExponent_small small least, settle, small, if_true]
  · simp only [shiftToTargetExponent_carry least]
    rfl

theorem exists_isRounded (sign : Sign) (tells : Tells accuracy mantissa (number / 2 ^ exponent))
    (fine : IsFine number exponent) :
    ∃ whole place, IsRounded number whole place ∧
      roundWithAccuracy Format.binary64 sign mantissa exponent accuracy = settle sign whole place := by
  obtain ⟨coarser, isPlace⟩ := tells.isPlace fine
  rw [← targetExponent_eq] at coarser isPlace
  generalize target : Format.binary64.targetExponent (totalExponent mantissa exponent) = place at coarser isPlace
  obtain ⟨amount, distance⟩ := Int.eq_ofNat_of_zero_le (sub_nonneg.mpr coarser)
  let extended := ExtendedMantissa.ofMantissaAndAccuracy mantissa accuracy >>> amount
  have shifted : shiftToTargetExponent Format.binary64 mantissa exponent accuracy = (extended, place) := by
    rw [shiftToTargetExponent, target, shiftToExponent, distance, Int.toNat_natCast]
    exact Prod.ext rfl (by simp only; omega)
  have left : Tells extended.accuracy extended.mantissa (number / 2 ^ exponent / 2 ^ amount) :=
    tells_shiftRight (by rwa [accuracy_ofMantissaAndAccuracy, mantissa_ofMantissaAndAccuracy]) amount
  have scaled : number / 2 ^ exponent / 2 ^ amount = number / 2 ^ place := by
    rw [div_div, ← zpow_natCast, ← zpow_add₀ (by norm_num)]
    congr 2
    omega
  rw [scaled] at left
  have rounded : IsRounded number extended.roundedMantissa place := ⟨isPlace, left.isNearest⟩
  exact ⟨_, place, rounded, roundWithAccuracy_eq_settle shifted isPlace.least rounded.le sign⟩

/-- A mantissa and an exponent that a double can have. -/
structure IsDouble (mantissa : ℕ) (exponent : ℤ) : Prop where
  positive : 0 < mantissa
  small : mantissa < 2 ^ 53
  least : -1074 ≤ exponent
  most : exponent ≤ 971
  full : 2 ^ 52 ≤ mantissa ∨ exponent = -1074

/-- Whether a double is the first one of a binade, so that the one below it is only half as far as the one above. -/
def isLowest (mantissa : ℕ) (exponent : ℤ) : Bool :=
  mantissa == 2 ^ 52 && decide (-1074 < exponent)

/-- The numbers between the midpoints on both sides of a double, and the midpoints if its mantissa is even. -/
structure IsNear (number : ℚ) (mantissa : ℕ) (exponent : ℤ) : Prop where
  low : (mantissa - 1 / 2 : ℚ) * 2 ^ exponent ≤ number
  lowest : isLowest mantissa exponent = true → (mantissa - 1 / 4 : ℚ) * 2 ^ exponent ≤ number
  high : number ≤ (mantissa + 1 / 2 : ℚ) * 2 ^ exponent
  even : number = (mantissa - 1 / 2 : ℚ) * 2 ^ exponent ∨ number = (mantissa + 1 / 2 : ℚ) * 2 ^ exponent →
    mantissa % 2 = 0

variable {place : ℤ}

theorem IsNear.isNearest (near : IsNear number mantissa exponent) : IsNearest mantissa (number / 2 ^ exponent) := by
  have unit : (0 : ℚ) < 2 ^ exponent := by positivity
  refine ⟨⟨(le_div_iff₀ unit).mpr near.low, (div_le_iff₀ unit).mpr near.high⟩, fun tie => near.even ?_⟩
  rwa [div_eq_iff unit.ne', div_eq_iff unit.ne'] at tie

/-- A number whose own place is finer than that of the double near it lies just below the first double of a binade. -/
theorem IsNear.carry (near : IsNear number mantissa exponent) (double : IsDouble mantissa exponent)
    (rounded : IsRounded number whole place) (finer : place < exponent) :
    whole = 2 ^ 53 ∧ mantissa = 2 ^ 52 ∧ exponent = place + 1 := by
  have unit : (0 : ℚ) < 2 ^ exponent := by positivity
  have normal : 2 ^ 52 ≤ mantissa := double.full.resolve_right (by have := rounded.place.least; omega)
  have upper := rounded.place.upper
  have first : mantissa = 2 ^ 52 := by
    by_contra other
    have more : (2 ^ 52 + 1 : ℚ) ≤ mantissa := by exact_mod_cast Nat.lt_of_le_of_ne normal (Ne.symm other)
    have small : (2 : ℚ) ^ (place + 53) ≤ 2 ^ exponent * 2 ^ 52 := by
      calc (2 : ℚ) ^ (place + 53) ≤ 2 ^ (exponent + 52) := two_zpow_le (by omega)
        _ = 2 ^ exponent * 2 ^ 52 := by rw [zpow_add₀ (by norm_num)]; rfl
    have low := near.low
    nlinarith
  subst first
  have low := near.lowest (by
    have := rounded.place.least
    simp only [isLowest, beq_self_eq_true, Bool.true_and, decide_eq_true_eq]
    omega)
  push_cast at low
  have next : exponent = place + 1 := by
    by_contra other
    have small : (2 : ℚ) ^ (place + 53) ≤ 2 ^ exponent * 2 ^ 51 := by
      calc (2 : ℚ) ^ (place + 53) ≤ 2 ^ (exponent + 51) := two_zpow_le (by omega)
        _ = 2 ^ exponent * 2 ^ 51 := by rw [zpow_add₀ (by norm_num)]; rfl
    nlinarith
  subst next
  have unit : (0 : ℚ) < 2 ^ place := by positivity
  rw [zpow_add₀ (by norm_num), zpow_one] at low
  rw [zpow_add₀ (by norm_num)] at upper
  have nearest : IsNearest (2 ^ 53) (number / 2 ^ place) := by
    refine ⟨⟨?_, ?_⟩, fun _ => rfl⟩ <;> push_cast
    · rw [le_div_iff₀ unit]
      linarith
    · rw [div_le_iff₀ unit]
      norm_num at upper ⊢
      linarith
  exact ⟨rounded.nearest.eq nearest, rfl, rfl⟩

/-- A number near a double leaves this double. -/
theorem IsNear.settle (near : IsNear number mantissa exponent) (double : IsDouble mantissa exponent)
    (rounded : IsRounded number whole place) (sign : Sign) :
    settle sign whole place = .finite sign mantissa exponent double.positive := by
  have unit : (0 : ℚ) < 2 ^ exponent := by positivity
  obtain below | rfl | above := lt_trichotomy place exponent
  · obtain ⟨rfl, rfl, rfl⟩ := near.carry double rounded below
    rfl
  · obtain rfl := rounded.nearest.eq near.isNearest
    rw [Double.settle, dif_neg double.positive.ne', if_pos double.small]
  · exfalso
    have lower := rounded.place.lower.resolve_right (by have := double.least; omega)
    have small : (mantissa : ℚ) + 1 ≤ 2 ^ 53 := by exact_mod_cast double.small
    have ordered : (2 : ℚ) ^ (exponent + 53) ≤ 2 ^ (place + 52) := two_zpow_le (by omega)
    rw [zpow_add₀ (by norm_num)] at ordered
    have high := near.high
    have : (mantissa + 1 / 2 : ℚ) * 2 ^ exponent < 2 ^ 53 * 2 ^ exponent := by gcongr; linarith
    norm_num at *
    linarith

end HedgedForecast.Double
