import HedgedForecast.Decimal.Layout
import HedgedForecast.Proofs.Double.Arithmetic
import HedgedForecast.Proofs.Double.Shortest
import HedgedForecast.Proofs.Toml.Numbers

/-! # Doubles in settings files

A double is written with a point and at least one digit on both sides of it, and read by rounding what the digits stand
for. The shortest digits of a double are near it, so that every double is read as it was written, zeros of both signs,
infinities and what is no number among them.
-/

namespace HedgedForecast.Toml

open Decimal Double

/-- Digits below ten, the first of which are given by their value. -/
theorem valueOf_bounds {digits : List ℕ} (small : ∀ digit ∈ digits, digit < 10) (front : ℕ) :
    front * 10 ^ digits.length ≤ digits.foldl (fun n digit => n * 10 + digit) front ∧
      digits.foldl (fun n digit => n * 10 + digit) front < (front + 1) * 10 ^ digits.length := by
  induction digits generalizing front with
  | nil => simp
  | cons digit digits ih =>
    have bound := small digit List.mem_cons_self
    obtain ⟨low, high⟩ := ih (fun digit member => small digit (List.mem_cons_of_mem _ member)) (front * 10 + digit)
    rw [List.length_cons, List.foldl_cons, pow_succ]
    constructor
    · calc front * (10 ^ digits.length * 10) = front * 10 * 10 ^ digits.length := by ring
        _ ≤ (front * 10 + digit) * 10 ^ digits.length := by gcongr; omega
        _ ≤ _ := low
    · calc _ < (front * 10 + digit + 1) * 10 ^ digits.length := high
        _ ≤ ((front + 1) * 10) * 10 ^ digits.length := by gcongr; omega
        _ = (front + 1) * (10 ^ digits.length * 10) := by ring

/-- Zeros in front do not count. -/
theorem valueOf_dropWhile (digits : List ℕ) : valueOf 10 (digits.dropWhile (· == 0)) = valueOf 10 digits := by
  induction digits with
  | nil => rfl
  | cons digit digits ih =>
    rw [List.dropWhile_cons]
    split
    · next zero =>
      rw [beq_iff_eq] at zero
      rw [ih, zero]
      rfl
    · rfl

/-- The number of digits that count tells how large their value is. -/
theorem valueOf_magnitude {digits : List ℕ} (small : ∀ digit ∈ digits, digit < 10) (some : 0 < valueOf 10 digits) :
    ∃ count, (digits.dropWhile (· == 0)).length = count + 1 ∧ 10 ^ count ≤ valueOf 10 digits ∧
      valueOf 10 digits < 10 ^ (count + 1) := by
  have same := valueOf_dropWhile digits
  cases significant : digits.dropWhile (· == 0) with
  | nil =>
    rw [significant] at same
    exact absurd same some.ne
  | cons digit behind =>
    have first := List.head?_dropWhile_not (· == 0) digits
    rw [significant] at first
    have nonzero : 1 ≤ digit := Nat.pos_of_ne_zero (beq_eq_false_iff_ne.mp first)
    have inside (other : ℕ) (member : other ∈ digit :: behind) : other < 10 :=
      small other (List.dropWhile_subset _ (significant ▸ member))
    obtain ⟨low, high⟩ := valueOf_bounds (fun other member => inside other (List.mem_cons_of_mem _ member)) digit
    have value : valueOf 10 digits = behind.foldl (fun n digit => n * 10 + digit) digit := by
      rw [← same, significant, valueOf, List.foldl_cons, Nat.zero_mul, Nat.zero_add]
    refine ⟨behind.length, rfl, ?_, ?_⟩
    · rw [value]
      exact (Nat.le_mul_of_pos_left _ nonzero).trans low
    · rw [value, pow_succ']
      exact high.trans_le (Nat.mul_le_mul_right _ (inside digit List.mem_cons_self))

section Fraction

variable {mantissa : ℕ} {exponent : ℤ} {number : ℚ}

/-- Numbers near doubles are neither too large nor too small to be read. -/
theorem near_bounds (near : IsNear number mantissa exponent) (double : IsDouble mantissa exponent) :
    1 ≤ number * 10 ^ 400 ∧ number < 10 ^ 400 := by
  have unit : (0 : ℚ) < 2 ^ exponent := by positivity
  have some : (1 : ℚ) ≤ mantissa := by exact_mod_cast double.positive
  have small : (mantissa : ℚ) + 1 ≤ 2 ^ 53 := by exact_mod_cast double.small
  have eighths {power : ℕ} (fits : power ≤ 1200) : (2 : ℚ) ^ power ≤ 10 ^ 400 := by
    calc (2 : ℚ) ^ power ≤ 2 ^ 1200 := pow_le_pow_right₀ (by norm_num) fits
      _ = (2 ^ 3) ^ 400 := by rw [← pow_mul]
      _ ≤ 10 ^ 400 := by gcongr; norm_num
  have least : (2 : ℚ) ^ (-1075 : ℤ) ≤ number := by
    calc (2 : ℚ) ^ (-1075 : ℤ) ≤ 2 ^ (exponent - 1) := two_zpow_le (by have := double.least; omega)
      _ = 1 / 2 * 2 ^ exponent := by
        rw [zpow_sub₀ (by norm_num)]
        ring
      _ ≤ number := by
        have := near.low
        nlinarith
  have positive : (0 : ℚ) < 2 ^ (-1075 : ℤ) := by positivity
  have most : number < 2 ^ 1024 := by
    calc number ≤ (mantissa + 1 / 2) * 2 ^ exponent := near.high
      _ < 2 ^ 53 * 2 ^ exponent := by
        gcongr
        linarith
      _ ≤ 2 ^ 53 * 2 ^ (971 : ℤ) := mul_le_mul_of_nonneg_left (two_zpow_le double.most) (by norm_num)
      _ = 2 ^ 1024 := by
        rw [← zpow_natCast, ← zpow_natCast, ← zpow_add₀ (by norm_num)]
        rfl
  refine ⟨?_, most.trans_le (eighths (by decide))⟩
  calc (1 : ℚ) = 2 ^ (-1075 : ℤ) * 2 ^ 1075 := by
        rw [← zpow_natCast, ← zpow_add₀ (by norm_num)]
        rfl
    _ ≤ number * 10 ^ 400 := mul_le_mul least (eighths (by decide)) (by positivity) (positive.trans_le least).le

theorem neg_packed (double : IsDouble mantissa exponent) :
    -packed (.finite .positive mantissa exponent double.positive) =
      packed (.finite .negative mantissa exponent double.positive) := by
  have unpacked := unpack_packed_finite double .positive
  exact congrArg (fun value => packed value.neg) unpacked

theorem packed_ne_infinity (sign : Float.Model.UnpackedFloat.Sign) (double : IsDouble mantissa exponent) :
    (packed (.finite sign mantissa exponent double.positive) == 1.0 / 0.0) = false := by
  have infinity : (1.0 / 0.0 : Float) = packed (.infinity .positive) := by decide +kernel
  have unpacked : (packed (.infinity .positive)).toModel.unpack = .infinity .positive := unpack_packed trivial
  show Float.Model.UnpackedFloat.beq _ _ = false
  rw [unpack_packed_finite double sign, infinity, unpacked]
  cases sign <;> rfl

/-- The double of a sign. -/
def signed (negative : Bool) : Float.Model.UnpackedFloat.Sign :=
  if negative then .negative else .positive

/-- The digits of a number near a double that count are neither too far before the point nor too far behind it. -/
theorem places_bounds {digits places count : ℕ} (near : IsNear (digits / 10 ^ places) mantissa exponent)
    (double : IsDouble mantissa exponent) (least : 10 ^ count ≤ digits) (most : digits < 10 ^ (count + 1)) :
    places ≤ count + 401 ∧ count < 400 + places ∧ places ≤ 2048 + digits.log2 := by
  obtain ⟨low, high⟩ := near_bounds near double
  have scale : (0 : ℚ) < 10 ^ places := by positivity
  have atLeast : (10 : ℚ) ^ count ≤ digits := by exact_mod_cast least
  have atMost : (digits : ℚ) < 10 ^ (count + 1) := by exact_mod_cast most
  have notSmall : places ≤ count + 401 := by
    rw [div_mul_eq_mul_div, one_le_div scale] at low
    have above : (10 : ℚ) ^ places < 10 ^ (count + 401) := by
      calc (10 : ℚ) ^ places ≤ digits * 10 ^ 400 := low
        _ < 10 ^ (count + 1) * 10 ^ 400 := by gcongr
        _ = 10 ^ (count + 401) := by rw [← pow_add]
    exact ((pow_lt_pow_iff_right₀ (by norm_num)).mp above).le
  have notLarge : count < 400 + places := by
    rw [div_lt_iff₀ scale, ← pow_add] at high
    exact (pow_lt_pow_iff_right₀ (by norm_num)).mp (atLeast.trans_lt high)
  have halves : 2 ^ count ≤ digits := by
    calc 2 ^ count ≤ 10 ^ count := Nat.pow_le_pow_left (by decide) count
      _ ≤ digits := least
  have bits := (Nat.le_log2 (Nat.ne_zero_of_lt (Nat.lt_of_lt_of_le (Nat.two_pow_pos count) halves))).mpr halves
  exact ⟨notSmall, notLarge, by omega⟩

theorem double?_eq {digits : List ℕ} {places : ℕ} (small : ∀ digit ∈ digits, digit < 10) (fraction : 0 < places)
    (near : IsNear (valueOf 10 digits / 10 ^ places) mantissa exponent) (double : IsDouble mantissa exponent)
    (negative : Bool) :
    double? negative digits places 0 =
      some (.float (packed (.finite (signed negative) mantissa exponent double.positive))) := by
  have some : 0 < valueOf 10 digits := by
    refine Nat.pos_of_ne_zero fun none => ?_
    have low := (near_bounds near double).1
    rw [none, Nat.cast_zero, zero_div, zero_mul] at low
    exact absurd low (by norm_num)
  obtain ⟨count, length, least, most⟩ := valueOf_magnitude small some
  obtain ⟨notSmall, notLarge, few⟩ := places_bounds near double least most
  have size := ofScientific_eq some fraction few near double
  have counts : (digits.dropWhile (· == 0)).isEmpty = false := by
    rw [List.isEmpty_eq_false_iff_exists_mem]
    exact List.exists_mem_of_length_pos (by omega)
  have middle : ¬((digits.dropWhile (· == 0)).length : ℤ) + (0 - places) < -400 ∧
      ¬400 < ((digits.dropWhile (· == 0)).length : ℤ) + (0 - places) := by
    rw [length]
    omega
  have behind : decide ((0 : ℤ) - places < 0) = true ∧ ((0 : ℤ) - places).natAbs = places :=
    ⟨decide_eq_true (by omega), by omega⟩
  simp only [double?, counts, decide_eq_false middle.1, Bool.false_or, Bool.false_eq_true, if_false, if_neg middle.2,
    behind.1, behind.2, size]
  cases negative with
  | false =>
    have finite := packed_ne_infinity .positive double
    simp only [Bool.false_eq_true, if_false, finite]
    rfl
  | true =>
    have finite := packed_ne_infinity .negative double
    simp only [if_true, neg_packed double, finite]
    rfl

end Fraction

/-- A text with digits on both sides of a point that stands for a number. -/
structure IsFraction (text : String) (number : ℚ) (whole fraction : List Char) : Prop where
  text : text.toList = whole ++ '.' :: fraction
  isWhole : IsWhole whole
  digits : AllDigits fraction
  nonempty : fraction ≠ []
  value : (Nat.ofDigitChars 10 (whole ++ fraction) 0 : ℚ) / 10 ^ fraction.length = number

theorem positionalText_of_fraction {d : Digits} {front fraction : List Char} (parts : positional d = (front, fraction))
    (nonempty : fraction ≠ []) (whole : String) :
    (positionalText d whole).toList = front ++ '.' :: fraction := by
  rw [positionalText, parts]
  cases fraction with
  | nil => exact absurd rfl nonempty
  | cons c cs => simp

theorem allDigits_append {first second : List Char} (digits : AllDigits first) (digits' : AllDigits second) :
    AllDigits (first ++ second) :=
  fun c member => (List.mem_append.mp member).elim (digits c) (digits' c)

theorem allDigits_zeros (count : ℕ) : AllDigits (List.replicate count '0') :=
  fun _ member => List.eq_of_mem_replicate member ▸ rfl

theorem value_of_down {d : Digits} {places : ℕ} (down : d.exponent = -places) :
    d.value = d.digits / 10 ^ places := by
  rw [Digits.value, down, zpow_neg, zpow_natCast, div_eq_mul_inv]

/-- Digits with a point and zeros in front of them. -/
theorem isFraction_small {d : Digits} {places : ℕ} (down : d.exponent = -places) (fraction : 0 < places)
    (short : (natDigits d.digits).length ≤ places) : IsFraction (positionalText d ".0") d.value
    ['0'] (List.replicate (places - (natDigits d.digits).length) '0' ++ natDigits d.digits) := by
  have nonempty : List.replicate (places - (natDigits d.digits).length) '0' ++ natDigits d.digits ≠ [] :=
    List.append_ne_nil_of_right_ne_nil _ Nat.toDigits_ne_nil
  have parts : positional d =
      (['0'], List.replicate (places - (natDigits d.digits).length) '0' ++ natDigits d.digits) := by
    have same : (-d.exponent).toNat = places := by omega
    simp only [positional, if_neg (show ¬0 ≤ d.exponent by omega), same, if_neg (Nat.not_lt.mpr short)]
  have length : (List.replicate (places - (natDigits d.digits).length) '0' ++ natDigits d.digits).length = places := by
    rw [List.length_append, List.length_replicate]
    omega
  refine ⟨positionalText_of_fraction parts nonempty _, .inl rfl,
    allDigits_append (allDigits_zeros _) (allDigits_natDigits _), nonempty, ?_⟩
  rw [length, ← List.append_assoc, show ['0'] = List.replicate 1 '0' from rfl, ← List.replicate_add,
    Nat.ofDigitChars_append, Nat.ofDigitChars_replicate_zero, Nat.mul_zero, natDigits, Nat.ofDigitChars_ten_toDigits,
    value_of_down down]

section Positional

variable {d : Digits} (some : 0 < d.digits)

include some

/-- Digits with zeros behind them, and a fraction of zero. -/
theorem isFraction_whole (up : 0 ≤ d.exponent) : IsFraction (positionalText d ".0") d.value
    (natDigits d.digits ++ List.replicate d.exponent.toNat '0') ['0'] := by
  have nonempty : natDigits d.digits ≠ [] := Nat.toDigits_ne_nil
  have parts : positional d = (natDigits d.digits ++ List.replicate d.exponent.toNat '0', []) := if_pos up
  refine ⟨?_, .inr ⟨List.append_ne_nil_of_left_ne_nil nonempty _,
    allDigits_append (allDigits_natDigits _) (allDigits_zeros _), ?_⟩, allDigits_zeros 1, List.cons_ne_nil _ _, ?_⟩
  · rw [positionalText, parts]
    simp
  · rw [List.head?_append_of_ne_nil _ nonempty]
    exact head?_natDigits some
  · have power : (10 : ℚ) ^ d.exponent = 10 ^ d.exponent.toNat := by
      rw [← zpow_natCast, Int.toNat_of_nonneg up]
    have zeros : List.replicate d.exponent.toNat '0' ++ ['0'] = List.replicate (d.exponent.toNat + 1) '0' :=
      List.replicate_succ'.symm
    rw [List.append_assoc, zeros, Nat.ofDigitChars_append, Nat.ofDigitChars_replicate_zero, natDigits,
      Nat.ofDigitChars_ten_toDigits, Digits.value, power, pow_succ]
    push_cast
    field_simp
    rfl

/-- Digits with a point between them. -/
theorem isFraction_split {places : ℕ} (down : d.exponent = -places) (fraction : 0 < places)
    (long : places < (natDigits d.digits).length) : IsFraction (positionalText d ".0") d.value
    ((natDigits d.digits).take ((natDigits d.digits).length - places))
    ((natDigits d.digits).drop ((natDigits d.digits).length - places)) := by
  have length : ((natDigits d.digits).drop ((natDigits d.digits).length - places)).length = places := by
    rw [List.length_drop]
    omega
  have nonempty : (natDigits d.digits).drop ((natDigits d.digits).length - places) ≠ [] :=
    List.ne_nil_of_length_pos (by omega)
  have parts : positional d = ((natDigits d.digits).take ((natDigits d.digits).length - places),
      (natDigits d.digits).drop ((natDigits d.digits).length - places)) := by
    have same : (-d.exponent).toNat = places := by omega
    simp only [positional, if_neg (show ¬0 ≤ d.exponent by omega), same, if_pos long]
  refine ⟨positionalText_of_fraction parts nonempty _, .inr ⟨?_, ?_, ?_⟩, ?_, nonempty, ?_⟩
  · refine List.ne_nil_of_length_pos ?_
    rw [List.length_take]
    omega
  · exact fun c member => allDigits_natDigits _ c (List.mem_of_mem_take member)
  · rw [List.head?_take, if_neg (by omega)]
    exact head?_natDigits some
  · exact fun c member => allDigits_natDigits _ c (List.mem_of_mem_drop member)
  · rw [List.take_append_drop, length, natDigits, Nat.ofDigitChars_ten_toDigits, value_of_down down]

theorem exists_isFraction : ∃ whole fraction, IsFraction (positionalText d ".0") d.value whole fraction := by
  by_cases up : 0 ≤ d.exponent
  · exact ⟨_, _, isFraction_whole some up⟩
  · obtain ⟨places, down⟩ : ∃ places : ℕ, d.exponent = -places := ⟨(-d.exponent).toNat, by omega⟩
    by_cases long : places < (natDigits d.digits).length
    · exact ⟨_, _, isFraction_split some down (by omega) long⟩
    · exact ⟨_, _, isFraction_small down (by omega) (Nat.le_of_not_lt long)⟩

end Positional

/-- The sign of a double that is written. -/
theorem toList_signed (negative : Bool) (text : String) :
    (Decimal.signed negative text).toList = sign negative ++ text.toList := by
  cases negative <;> simp [Decimal.signed, sign]

theorem signed_isMinus (sign : Float.Model.UnpackedFloat.Sign) : signed (isMinus sign) = sign := by
  cases sign <;> rfl

/-- A number with a point that is near a double is read as this double. -/
theorem readScalar?_isFraction {mantissa : ℕ} {exponent : ℤ} {number : ℚ} {text : String}
    {whole fraction rest : List Char} (isFraction : IsFraction text number whole fraction) (near : IsNear number mantissa exponent)
    (double : IsDouble mantissa exponent) (negative : Bool) (ends : Ends rest) :
    readScalar? (sign negative ++ (text.toList ++ rest)) =
      some (.float (packed (.finite (signed negative) mantissa exponent double.positive)), rest) := by
  have endsWhole : EndsWhole ('.' :: (fraction ++ rest)) := by
    intro c head
    exact .inl (Option.some.inj head).symm
  have small (digit : ℕ) (member : digit ∈ (whole ++ fraction).map digitValue) : digit < 10 := by
    obtain ⟨c, inside, rfl⟩ := List.mem_map.mp member
    exact (hexValue?_of_isDigit (allDigits_append isFraction.isWhole.allDigits isFraction.digits c inside)).2
  have value := isFraction.value
  rw [← valueOf_map_digitValue] at value
  rw [isFraction.text, List.append_assoc, List.cons_append, readScalar?_append isFraction.isWhole endsWhole,
    readDecimal?_fraction isFraction.isWhole isFraction.digits isFraction.nonempty ends,
    double?_eq small (List.length_pos_of_ne_nil isFraction.nonempty) (value ▸ near) double]
  rfl

theorem double?_zero (sign : Float.Model.UnpackedFloat.Sign) :
    double? (isMinus sign) [0, 0] 1 0 = some (.float (packed (.zero sign))) := by
  cases sign with
  | positive =>
    have same : (0.0 : Float) = packed (.zero .positive) := by decide +kernel
    have finite : ((0.0 : Float) == 1.0 / 0.0) = false := by decide +kernel
    rw [← same]
    simp [double?, isMinus, finite]
  | negative =>
    have same : (-0.0 : Float) = packed (.zero .negative) := by decide +kernel
    have finite : ((-0.0 : Float) == 1.0 / 0.0) = false := by decide +kernel
    rw [← same]
    simp [double?, isMinus, finite]

/-- Zero is written with one digit on both sides of the point. -/
theorem readScalar?_zero (sign : Float.Model.UnpackedFloat.Sign) {rest : List Char} (ends : Ends rest) :
    readScalar? (Toml.sign (isMinus sign) ++ ((positionalText (shortest 0 (-1074) false) ".0").toList ++ rest)) =
      some (.float (packed (.zero sign)), rest) := by
  have text : (positionalText (shortest 0 (-1074) false) ".0").toList ++ rest = ['0'] ++ '.' :: (['0'] ++ rest) := rfl
  have endsWhole : EndsWhole ('.' :: (['0'] ++ rest)) := fun c head => .inl (Option.some.inj head).symm
  have digits : AllDigits ['0'] := allDigits_zeros 1
  rw [text, readScalar?_append (.inl rfl) endsWhole,
    readDecimal?_fraction (.inl rfl) digits (List.cons_ne_nil _ _) ends]
  exact congrArg (Option.map (·, rest)) (double?_zero sign)

theorem shortest_pos {mantissa : ℕ} {exponent : ℤ} (double : IsDouble mantissa exponent) :
    0 < (shortest mantissa exponent (isLowest mantissa exponent)).digits := by
  have near := (isNear_shortest double).low
  refine Nat.pos_of_ne_zero fun none => ?_
  have unit : (0 : ℚ) < 2 ^ exponent := by positivity
  have some : (1 : ℚ) ≤ mantissa := by exact_mod_cast double.positive
  rw [Digits.value, none, Nat.cast_zero, zero_mul] at near
  nlinarith

/-- Every double is read back from its text. -/
theorem readScalar?_setting (value : Float) {rest : List Char} (ends : Ends rest) :
    readScalar? ((Decimal.setting value).toList ++ rest) = some (.float value, rest) := by
  have canonical := isCanonical_unpack value.toModel.toBits.toBitVec
  have same := packed_unpack value
  have read := read_eq value
  rw [Decimal.setting, read]
  change IsCanonical value.toModel.unpack at canonical
  generalize value.toModel.unpack = unpacked at canonical same
  subst same
  cases unpacked with
  | notANumber =>
    have same : (0.0 / 0.0 : Float) = packed .notANumber := by decide +kernel
    show readScalar? ('n' :: 'a' :: 'n' :: rest) = _
    simp [readScalar?, readMoment?_cons, readNumber?, readSign, same]
  | infinity sign =>
    cases sign with
    | positive =>
      have same : (1.0 / 0.0 : Float) = packed (.infinity .positive) := by decide +kernel
      show readScalar? ('i' :: 'n' :: 'f' :: rest) = _
      simp [readScalar?, readMoment?_cons, readNumber?, readSign, same]
    | negative =>
      have same : -(1.0 / 0.0 : Float) = packed (.infinity .negative) := by decide +kernel
      show readScalar? ('-' :: 'i' :: 'n' :: 'f' :: rest) = _
      simp [readScalar?, readMoment?_cons, readNumber?, readSign, same]
  | zero sign =>
    simp only [reading]
    rw [toList_signed, List.append_assoc]
    exact readScalar?_zero sign ends
  | finite sign mantissa exponent positive =>
    have double : IsDouble mantissa exponent := canonical
    obtain ⟨whole, fraction, isFraction⟩ :=
      exists_isFraction (shortest_pos double)
    simp only [reading]
    rw [toList_signed, List.append_assoc, readScalar?_isFraction isFraction (isNear_shortest double) double _ ends,
      signed_isMinus]

end HedgedForecast.Toml
