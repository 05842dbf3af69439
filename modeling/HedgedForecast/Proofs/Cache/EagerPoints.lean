import HedgedForecast.Cache.Policy
import HedgedForecast.Proofs.Double.Arithmetic
import HedgedForecast.Proofs.Double.Order

/-! # Eager points

A time in seconds is a sum of two doubles, the whole seconds and the rest. It is neither so small nor so large that its
product with a threshold between zero and one could be anything but a time again. So a policy under which values are
fresh for some time names an eager point exactly for such a threshold, and none for one beyond these bounds; only for a
threshold that is not a number it fails to say which.
-/

namespace HedgedForecast

open Double
open Float.Model (UnpackedFloat)

namespace Double

variable {value first second : Float} {number : ℚ} {low high low' high' : ℤ}

/-- A positive double that is not subnormal, whose exponent lies between the bounds. -/
def Spans (value : Float) (low high : ℤ) : Prop :=
  ∃ mantissa exponent positive, value.toModel.unpack = .finite .positive mantissa exponent positive ∧
    2 ^ 52 ≤ mantissa ∧ low ≤ exponent ∧ exponent ≤ high

theorem Spans.mono (spans : Spans value low high) (lower : low' ≤ low) (higher : high ≤ high') :
    Spans value low' high' := by
  obtain ⟨mantissa, exponent, positive, unpacked, full, least, most⟩ := spans
  exact ⟨mantissa, exponent, positive, unpacked, full, lower.trans least, most.trans higher⟩

/-- What is rounded to a double is about as large as the double. -/
theorem spans_settle {whole : ℕ} {place : ℤ} (rounded : IsRounded number whole place) (least : -1021 ≤ low)
    (most : high ≤ 1000) (above : 2 ^ low ≤ number) (below : number < 2 ^ high) :
    Spans (packed (settle .positive whole place)) (low - 52) (high - 52) := by
  have lower : low < place + 53 := lt_of_two_zpow_lt (above.trans_lt rounded.place.upper)
  have filled : 2 ^ (place + 52) ≤ number := rounded.place.lower.resolve_right (by omega)
  have upper : place + 52 < high := lt_of_two_zpow_lt (filled.trans_lt below)
  have full : 2 ^ 52 ≤ whole := rounded.full.resolve_right (by omega)
  have small : number < 2 ^ 1000 := by
    rw [← zpow_natCast]
    exact below.trans_le (two_zpow_le most)
  have unpacked := unpack_packed (isCanonical_settle rounded small .positive)
  by_cases fits : whole < 2 ^ 53
  · rw [settle, dif_neg (by omega), if_pos fits] at unpacked ⊢
    exact ⟨_, _, _, unpacked, full, by omega, by omega⟩
  · rw [settle, dif_neg (by omega), if_neg fits] at unpacked ⊢
    exact ⟨_, _, _, unpacked, le_refl _, by omega, by omega⟩

/-- The bounds of a double's exponent are bounds of the double. -/
theorem bounds_of_unpack {mantissa : ℕ} {exponent : ℤ} {positive : 0 < mantissa}
    (unpacked : value.toModel.unpack = .finite .positive mantissa exponent positive) (full : 2 ^ 52 ≤ mantissa)
    (least : low ≤ exponent) (most : exponent ≤ high) :
    (2 : ℚ) ^ (low + 52) ≤ mantissa * 2 ^ exponent ∧ (mantissa * 2 ^ exponent : ℚ) < 2 ^ (high + 53) := by
  have small : (mantissa : ℚ) < 2 ^ 53 := by exact_mod_cast (isDouble_of_unpack unpacked).small
  have large : (2 ^ 52 : ℚ) ≤ mantissa := by exact_mod_cast full
  constructor
  · calc (2 : ℚ) ^ (low + 52) ≤ 2 ^ (exponent + 52) := two_zpow_le (by omega)
      _ = 2 ^ 52 * 2 ^ exponent := by rw [zpow_add₀ (by norm_num), mul_comm]; rfl
      _ ≤ mantissa * 2 ^ exponent := by gcongr
  · calc (mantissa : ℚ) * 2 ^ exponent < 2 ^ 53 * 2 ^ exponent := by gcongr
      _ = 2 ^ (exponent + 53) := by rw [zpow_add₀ (by norm_num), mul_comm]; rfl
      _ ≤ 2 ^ (high + 53) := two_zpow_le (by omega)

theorem StandsFor.spans (stands : StandsFor value number) (above : 2 ^ low ≤ number) (below : number < 2 ^ high) :
    Spans value (low - 52) (high - 52) := by
  obtain ⟨mantissa, exponent, positive, unpacked, full, rfl⟩ := stands
  obtain ⟨lower, upper⟩ := bounds_of_unpack unpacked full (le_refl exponent) (le_refl exponent)
  have most := lt_of_two_zpow_lt (above.trans_lt upper)
  have least := lt_of_two_zpow_lt (lower.trans_lt below)
  exact ⟨mantissa, exponent, positive, unpacked, full, by omega, by omega⟩

/-- Whole numbers are doubles of moderate size, even if they are rounded. -/
theorem spans_ofNat {whole : ℕ} (positive : 0 < whole) (small : whole < 2 ^ 64) :
    Spans (Float.ofNat whole) (-52) 12 := by
  have above : (2 : ℚ) ^ (0 : ℤ) ≤ whole := by exact_mod_cast positive
  have below : (whole : ℚ) < 2 ^ (64 : ℤ) := by exact_mod_cast small
  by_cases exact : whole < 2 ^ 53
  · exact (standsFor_ofNat positive exact).spans above below
  · have wide : 2 ^ 52 ≤ whole <<< 53 * 10 ^ (0 : ℤ).toNat := by
      rw [Nat.shiftLeft_eq, Int.toNat_zero, pow_zero]
      omega
    obtain ⟨rounded, place, near, product⟩ := @exists_mul _ _ (-53) 0
      (show 0 < whole <<< 53 by rw [Nat.shiftLeft_eq]; omega) (show 0 < 10 ^ (0 : ℤ).toNat by decide) wide
      .positive .positive
    have same : ((whole <<< 53 : ℕ) * 2 ^ (-53 : ℤ) * ((10 ^ (0 : ℤ).toNat : ℕ) * 2 ^ (0 : ℤ)) : ℚ) = whole := by
      rw [Nat.shiftLeft_eq]
      push_cast
      field_simp
      norm_num
    rw [same] at near
    have value : Float.ofNat whole = packed (settle .positive rounded place) := by
      show Float.ofScientific whole false 0 = _
      rw [Float.ofScientific, dif_neg (by omega)]
      refine congrArg packed (Eq.trans ?_ product)
      show UnpackedFloat.ofScientific Float.Model.Format.binary64 whole 0 = _
      rw [UnpackedFloat.ofScientific, dif_neg positive.ne', if_neg (by decide), if_neg ?_, if_pos (le_refl _)]
      · rfl
      · have width : (2 ^ Float.Model.Format.binary64.exponentBits : ℤ) = 2048 := rfl
        omega
    rw [value]
    exact spans_settle near (by decide) (by decide) above below

/-- Thousandths below one, written as a quotient of nanoseconds. -/
theorem spans_thousandths {part : ℕ} (positive : 0 < part) (small : part < 1000) :
    Spans (Float.ofNat (part * 1000000) / 1000000000.0) (-62) (-52) := by
  obtain ⟨first, scale, positive', unpacked, _, same⟩ :=
    standsFor_ofNat (show 0 < part * 1000000 by omega) (by omega)
  obtain ⟨second, scale', positive'', unpacked', _, same'⟩ :=
    standsFor_of_isPowerOfTen (show isPowerOfTen 1000000000.0 9 = true by decide +kernel)
  obtain ⟨whole, place, rounded, quotient⟩ := exists_div positive' positive'' .positive .positive
  rw [← unpacked, ← unpacked'] at quotient
  rw [show Float.ofNat (part * 1000000) / 1000000000.0 = packed (settle .positive whole place) from
    congrArg packed quotient]
  rw [same, same'] at rounded
  have least : (1 : ℚ) ≤ part := by exact_mod_cast positive
  have most : (part : ℚ) < 1000 := by exact_mod_cast small
  refine @spans_settle _ (-10) 0 whole place rounded (by decide) (by decide) ?_ ?_
  · rw [le_div_iff₀ (by norm_num)]
    push_cast
    norm_num
    linarith
  · rw [div_lt_iff₀ (by norm_num)]
    push_cast
    norm_num
    linarith

theorem add_zero (spans : Spans value low high) : value + 0.0 = value := by
  obtain ⟨mantissa, exponent, positive, unpacked, _⟩ := spans
  have sum : UnpackedFloat.add .binary64 value.toModel.unpack (0.0 : Float).toModel.unpack = value.toModel.unpack := by
    rw [unpack_zero, unpacked]
    rfl
  exact (congrArg packed sum).trans (packed_unpack value)

theorem zero_add (spans : Spans value low high) : 0.0 + value = value := by
  obtain ⟨mantissa, exponent, positive, unpacked, _⟩ := spans
  have sum : UnpackedFloat.add .binary64 (0.0 : Float).toModel.unpack value.toModel.unpack = value.toModel.unpack := by
    rw [unpack_zero, unpacked]
    rfl
  exact (congrArg packed sum).trans (packed_unpack value)

theorem spans_add (spans : Spans first (-52) 12) (spans' : Spans second (-62) (-52)) :
    Spans (first + second) (-52) 14 := by
  obtain ⟨mantissa, exponent, positive, unpacked, full, least, most⟩ := spans
  obtain ⟨mantissa', exponent', positive', unpacked', full', least', most'⟩ := spans'
  obtain ⟨whole, place, rounded, sum⟩ := exists_add positive positive'
  rw [← unpacked, ← unpacked'] at sum
  rw [show first + second = packed (settle .positive whole place) from congrArg packed sum]
  obtain ⟨above, below⟩ := bounds_of_unpack unpacked full least most
  obtain ⟨above', below'⟩ := bounds_of_unpack unpacked' full' least' most'
  norm_num at above below above' below'
  refine @spans_settle _ 0 66 whole place rounded (by decide) (by decide) ?_ ?_
  · norm_num
    linarith
  · norm_num
    linarith

end Double

/-- Any time that is not zero and fits in a word of seconds is a double of moderate size. -/
theorem spans_secondsOf {milliseconds : ℕ} (positive : 0 < milliseconds) (short : milliseconds < 2 ^ 64 * 1000) :
    Spans (secondsOf milliseconds) (-62) 14 := by
  have nothing : Float.ofNat 0 = 0.0 := rfl
  have nothing' : Float.ofNat (0 * 1000000) / 1000000000.0 = 0.0 := by decide +kernel
  rw [secondsOf]
  obtain none | some := Nat.eq_zero_or_pos (milliseconds / 1000)
  · have rest := spans_thousandths (show 0 < milliseconds % 1000 by omega) (Nat.mod_lt _ (by decide))
    rw [none, nothing, Double.zero_add rest]
    exact rest.mono (le_refl _) (by decide)
  · have whole := spans_ofNat some (by omega)
    obtain none' | some' := Nat.eq_zero_or_pos (milliseconds % 1000)
    · rw [none', nothing', Double.add_zero whole]
      exact whole.mono (by decide) (by decide)
    · exact (spans_add whole (spans_thousandths some' (Nat.mod_lt _ (by decide)))).mono (by decide) (le_refl _)

/-- A rounded product is a time. -/
theorem nanosecondsOf?_settle {number : ℚ} {whole : ℕ} {place : ℤ} (rounded : IsRounded number whole place)
    (small : number < 2 ^ 1000) :
    ∃ nanoseconds, nanosecondsOf? (packed (settle .positive whole place)) = some nanoseconds := by
  rw [nanosecondsOf?, read_eq, unpack_packed (isCanonical_settle rounded small .positive)]
  unfold settle
  split_ifs
  · exact ⟨_, rfl⟩
  · exact ⟨_, rfl⟩
  · exact ⟨_, rfl⟩

/-- A part of a time is a time. -/
theorem exists_nanosecondsOf? {threshold seconds : Float} (number : threshold.isNaN = false) (above : ¬threshold ≤ 0.0)
    (below : ¬1.0 ≤ threshold) (spans : Spans seconds (-62) 14) :
    ∃ nanoseconds, nanosecondsOf? (threshold * seconds) = some nanoseconds := by
  obtain ⟨first, scale, positive, unpacked, least⟩ := exists_of_between number above below
  obtain ⟨second, scale', positive', unpacked', full, _, most⟩ := spans
  obtain ⟨whole, place, rounded, product⟩ :=
    exists_mul positive positive' (full.trans (Nat.le_mul_of_pos_left second positive)) .positive .positive
  rw [← unpacked, ← unpacked'] at product
  rw [show threshold * seconds = packed (settle .positive whole place) from congrArg packed product]
  refine nanosecondsOf?_settle rounded ?_
  have mantissa : (first : ℚ) < 2 ^ 53 := by exact_mod_cast (isDouble_of_unpack unpacked).small
  have mantissa' : (second : ℚ) < 2 ^ 53 := by exact_mod_cast (isDouble_of_unpack unpacked').small
  calc (first * 2 ^ scale * (second * 2 ^ scale') : ℚ)
      ≤ 2 ^ 53 * 2 ^ (-52 : ℤ) * (2 ^ 53 * 2 ^ (14 : ℤ)) := by gcongr <;> norm_num
    _ < 2 ^ 69 := by norm_num
    _ ≤ 2 ^ 1000 := pow_le_pow_right₀ (by norm_num) (by decide)

/-- What is not a number is no part of a time. -/
theorem nanosecondsOf?_of_isNaN {threshold : Float} (unordered : threshold.isNaN = true) (seconds : Float) :
    nanosecondsOf? (threshold * seconds) = none := by
  have product : UnpackedFloat.mul .binary64 threshold.toModel.unpack seconds.toModel.unpack = .notANumber := by
    rw [isNaN_iff.mp unordered]
    cases seconds.toModel.unpack <;> rfl
  rw [show threshold * seconds = packed .notANumber from congrArg packed product, nanosecondsOf?, read_eq,
    unpack_packed (show IsCanonical .notANumber from trivial)]
  rfl

namespace Policy

variable {policy : Policy} {now : Nat}

/-- What is stored now may be served until an instant that there is: its seconds fit in a word with a sign. -/
def IsTimed (policy : Policy) (now : Nat) : Prop :=
  now + (if policy.failSafe then max policy.maxAge policy.ttl else policy.ttl) < 2 ^ 63 * 1000

/-- So it is fresh until such an instant. -/
theorem IsTimed.fresh (timed : policy.IsTimed now) : now + policy.ttl < 2 ^ 63 * 1000 := by
  unfold IsTimed at timed
  split at timed <;> omega

theorem eagerPoint_eq_never (idle : policy.ttl = 0 ∨ policy.eagerThreshold ≤ 0.0 ∨ 1.0 ≤ policy.eagerThreshold) :
    policy.eagerPoint = .never := by
  rw [eagerPoint, if_pos]
  simpa [or_assoc] using idle

theorem eagerPoint_eq_match (fresh : policy.ttl ≠ 0) (above : ¬policy.eagerThreshold ≤ 0.0)
    (below : ¬1.0 ≤ policy.eagerThreshold) :
    policy.eagerPoint = match nanosecondsOf? (policy.eagerThreshold * secondsOf policy.ttl) with
      | some nanoseconds => .after nanoseconds
      | none => .undefined := by
  have timely : ¬(policy.ttl == 0 || decide (policy.eagerThreshold ≤ 0.0) || decide (1.0 ≤ policy.eagerThreshold)) =
      true := by simpa [or_assoc] using ⟨fresh, above, below⟩
  unfold eagerPoint
  exact if_neg timely

theorem eagerPoint_of_isNaN (fresh : policy.ttl ≠ 0) (unordered : policy.eagerThreshold.isNaN = true) :
    policy.eagerPoint = .undefined := by
  have above : ¬policy.eagerThreshold ≤ 0.0 := (not_le_of_isNaN unordered).1
  have below : ¬1.0 ≤ policy.eagerThreshold := (not_le_of_isNaN unordered).2
  rw [eagerPoint_eq_match fresh above below, nanosecondsOf?_of_isNaN unordered]

theorem exists_eagerPoint (timed : policy.IsTimed now) (fresh : policy.ttl ≠ 0)
    (number : policy.eagerThreshold.isNaN = false) (above : ¬policy.eagerThreshold ≤ 0.0)
    (below : ¬1.0 ≤ policy.eagerThreshold) : ∃ nanoseconds, policy.eagerPoint = .after nanoseconds := by
  have short : policy.ttl < 2 ^ 64 * 1000 := by
    have inTime := timed.fresh
    omega
  obtain ⟨nanoseconds, named⟩ :=
    exists_nanosecondsOf? number above below (spans_secondsOf (Nat.pos_of_ne_zero fresh) short)
  exact ⟨nanoseconds, by rw [eagerPoint_eq_match fresh above below, named]⟩

/-- Every policy says when values are recomputed, if at all, unless its threshold is not a number. -/
theorem eagerPoint_eq_undefined_iff (timed : policy.IsTimed now) :
    policy.eagerPoint = .undefined ↔ policy.ttl ≠ 0 ∧ policy.eagerThreshold.isNaN = true := by
  refine ⟨fun undefined => ?_, fun ⟨fresh, unordered⟩ => eagerPoint_of_isNaN fresh unordered⟩
  by_cases idle : policy.ttl = 0 ∨ policy.eagerThreshold ≤ 0.0 ∨ 1.0 ≤ policy.eagerThreshold
  · rw [eagerPoint_eq_never idle] at undefined
    contradiction
  simp only [not_or] at idle
  obtain ⟨fresh, above, below⟩ := idle
  refine ⟨fresh, ?_⟩
  by_contra number
  obtain ⟨_, named⟩ := exists_eagerPoint timed fresh (Bool.eq_false_iff.mpr number) above below
  rw [named] at undefined
  contradiction

/-- A policy names a point exactly if values are fresh for some time and the threshold lies between zero and one. -/
theorem exists_eagerPoint_iff (timed : policy.IsTimed now) :
    (∃ nanoseconds, policy.eagerPoint = .after nanoseconds) ↔
      policy.ttl ≠ 0 ∧ 0.0 < policy.eagerThreshold ∧ policy.eagerThreshold < 1.0 := by
  constructor
  · rintro ⟨nanoseconds, named⟩
    by_cases idle : policy.ttl = 0 ∨ policy.eagerThreshold ≤ 0.0 ∨ 1.0 ≤ policy.eagerThreshold
    · rw [eagerPoint_eq_never idle] at named
      contradiction
    simp only [not_or] at idle
    obtain ⟨fresh, above, below⟩ := idle
    have number : policy.eagerThreshold.isNaN = false := by
      by_contra unordered
      rw [eagerPoint_of_isNaN fresh (Bool.eq_true_of_not_eq_false unordered)] at named
      contradiction
    exact ⟨fresh, lt_of_not_le (by decide +kernel) number above, lt_of_not_le number (by decide +kernel) below⟩
  · rintro ⟨fresh, above, below⟩
    exact exists_eagerPoint timed fresh (isNaN_of_lt above).2 (not_le_of_lt above) (not_le_of_lt below)

end Policy

end HedgedForecast
