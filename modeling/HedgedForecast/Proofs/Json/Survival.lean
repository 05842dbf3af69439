import HedgedForecast.Proofs.Json.Documents

/-! # Doubles that survive

The reader scales the digits of a number by one power of ten. This rounds once, to the written double, if digits and
power are doubles without an error: all doubles with at most fifteen digits survive, of a size as temperatures have it.
With more digits the quotient may be rounded to a neighbour.
-/

namespace HedgedForecast.Json

open Decimal Double
open Toml (AllDigits IsFraction digitValue valueOf allDigits_natDigits shortest_pos neg_packed valueOf_map_digitValue)

/-- The double is written in a form that is read as the same double. -/
def Survives (value : Float) : Prop :=
  read? (writeFloat value) = some (.float value)

theorem Survives.reads {value : Float} (survives : Survives value) : Reads (.float value) (.float value) := by
  obtain ⟨result, reads⟩ := exists_readsAs_float value
  have each : Reads (.float value) result := .of_compact reads fun _ => rfl
  have same := (each.read? (isDocument_write _)).symm.trans survives
  obtain rfl := Option.some.inj same
  exact each

/-- A double survives if the number that it is written as stands for it. -/
theorem survives_of_spelling {value : Float} {spelling : Spelling} (wellFormed : spelling.WellFormed)
    (text : (writeFloat value).toList = spelling.toChars) (same : spelling.toNumeral.toData = .float value) :
    Survives value := by
  have reads := readsAs_number wellFormed
  rw [same] at reads
  have whole : (writeFloat value).toList = [] ++ spelling.toChars ++ [] := by
    rw [text, List.nil_append, List.append_nil]
  exact read?_of_readsAs reads whole allSpace_nil allSpace_nil

theorem le_foldl_digits (digits : List ℕ) (front : ℕ) :
    front ≤ digits.foldl (fun n digit => n * 10 + digit) front := by
  induction digits generalizing front with
  | nil => exact le_refl front
  | cons digit digits ih =>
    have behind := ih (front * 10 + digit)
    rw [List.foldl_cons]
    omega

theorem gatherWhole_eq {digits : List ℕ} {front : ℕ}
    (fits : digits.foldl (fun n digit => n * 10 + digit) front ≤ significandLimit) :
    gatherWhole front digits = (digits.foldl (fun n digit => n * 10 + digit) front, 0) := by
  induction digits generalizing front with
  | nil => rfl
  | cons digit digits ih =>
    rw [List.foldl_cons] at fits ⊢
    have behind := le_foldl_digits digits (front * 10 + digit)
    rw [gatherWhole, if_neg (by omega), ih fits]

theorem gatherFraction_eq {digits : List ℕ} {front : ℕ} (taken : ℕ)
    (fits : digits.foldl (fun n digit => n * 10 + digit) front ≤ significandLimit) :
    gatherFraction front taken digits =
      (digits.foldl (fun n digit => n * 10 + digit) front, taken + digits.length) := by
  induction digits generalizing front taken with
  | nil => rfl
  | cons digit digits ih =>
    rw [List.foldl_cons] at fits ⊢
    have behind := le_foldl_digits digits (front * 10 + digit)
    rw [gatherFraction, if_neg (by omega), ih _ fits, List.length_cons, Nat.add_assoc, Nat.add_comm 1]

theorem toData_fractionSpelling {whole fraction : List Char} (negative : Bool)
    (fits : Nat.ofDigitChars 10 (whole ++ fraction) 0 ≤ significandLimit) :
    (fractionSpelling negative whole fraction).toNumeral.toData =
      scaled negative (Nat.ofDigitChars 10 (whole ++ fraction) 0) (-(fraction.length : ℤ)) := by
  have value := valueOf_map_digitValue (whole ++ fraction)
  rw [valueOf, List.map_append, List.foldl_append] at value
  rw [← value] at fits ⊢
  have front := gatherWhole_eq (le_trans (le_foldl_digits _ _) fits)
  have behind := gatherFraction_eq 0 fits
  simp only [Numeral.toData, Spelling.toNumeral, fractionSpelling, Option.map_some, front, behind]
  simp

theorem standsFor_powerOfTen {power : ℕ} (small : power < 23) : StandsFor (powerOfTen power) (10 ^ power) := by
  have checked : ∀ power : Fin 23, isPowerOfTen (powerOfTen power) power = true := by decide +kernel
  exact standsFor_of_isPowerOfTen (checked ⟨power, small⟩)

theorem scaled_eq {digits places mantissa : ℕ} {exponent : ℤ} (some : 0 < digits) (precise : digits < 2 ^ 53)
    (fraction : 0 < places) (few : places < 23) (near : IsNear (digits / 10 ^ places) mantissa exponent)
    (double : IsDouble mantissa exponent) (negative : Bool) :
    scaled negative digits (-(places : ℤ)) =
      .float (packed (.finite (Toml.signed negative) mantissa exponent double.positive)) := by
  obtain ⟨first, scale, positive, unpacked, _, same⟩ := standsFor_ofNat some precise
  obtain ⟨second, scale', positive', unpacked', _, same'⟩ := standsFor_powerOfTen few
  rw [← same, ← same'] at near
  have quotient := div_eq positive positive' .positive .positive near double
  rw [← unpacked, ← unpacked'] at quotient
  have divided : Float.ofScientific digits false 0 / powerOfTen places =
      packed (.finite .positive mantissa exponent double.positive) :=
    congrArg packed quotient
  have size : (-(places : ℤ)).natAbs = places := by omega
  have scaled : scale? (places / 308 + 2) (Float.ofScientific digits false 0) (-(places : ℤ)) =
      Option.some (packed (.finite .positive mantissa exponent double.positive)) := by
    rw [scale?, size, if_pos (by omega), if_neg (by omega), divided]
  rw [Json.scaled, size, scaled]
  cases negative with
  | false => rfl
  | true => exact congrArg Data.float (neg_packed double)

theorem ofDigitChars_lt {cs : List Char} (digits : AllDigits cs) : Nat.ofDigitChars 10 cs 0 < 10 ^ cs.length := by
  have small (digit : ℕ) (member : digit ∈ cs.map digitValue) : digit < 10 := by
    obtain ⟨c, inside, rfl⟩ := List.mem_map.mp member
    exact (Toml.hexValue?_of_isDigit (digits c inside)).2
  have bound := (Toml.valueOf_bounds small 0).2
  rwa [← valueOf, valueOf_map_digitValue, List.length_map, Nat.zero_add, Nat.one_mul] at bound

/-- Fifteen digits are fewer than those of a mantissa. -/
theorem lt_of_lt_pow {n width : ℕ} (below : n < 10 ^ width) (few : width ≤ 15) : n < 2 ^ 53 :=
  calc n < 10 ^ width := below
    _ ≤ 10 ^ 15 := Nat.pow_le_pow_right (by decide) few
    _ < 2 ^ 53 := by decide

section Positional

variable {d : Digits} (some : 0 < d.digits) (short : (natDigits d.digits).length ≤ 15)
  (small : -5 < (natDigits d.digits).length + d.exponent) (large : (natDigits d.digits).length + d.exponent ≤ 14)

include some short small large

/-- Few digits that are neither very large nor very small have few digits on both sides of the point. -/
theorem exists_shortFraction : ∃ whole fraction, IsFraction (positionalText d ".0") d.value whole fraction ∧
    Nat.ofDigitChars 10 (whole ++ fraction) 0 < 2 ^ 53 ∧ fraction.length < 23 := by
  by_cases up : 0 ≤ d.exponent
  · have isFraction := Toml.isFraction_whole some up
    have length : (natDigits d.digits ++ List.replicate d.exponent.toNat '0' ++ ['0']).length ≤ 15 := by
      simp only [List.length_append, List.length_replicate, List.length_singleton]
      omega
    have digits := Toml.allDigits_append isFraction.isWhole.allDigits isFraction.digits
    exact ⟨_, _, isFraction, lt_of_lt_pow (ofDigitChars_lt digits) length, by decide⟩
  · obtain ⟨places, down⟩ : ∃ places : ℕ, d.exponent = -places := ⟨(-d.exponent).toNat, by omega⟩
    have digits : d.digits < 2 ^ 53 := by
      have bound := ofDigitChars_lt (allDigits_natDigits d.digits)
      rw [natDigits, Nat.ofDigitChars_ten_toDigits] at bound
      exact lt_of_lt_pow bound short
    have precise {whole fraction : List Char} (isFraction : IsFraction (positionalText d ".0") d.value whole fraction)
        (length : fraction.length = places) : Nat.ofDigitChars 10 (whole ++ fraction) 0 < 2 ^ 53 := by
      have value := isFraction.value
      rw [length, Toml.value_of_down down, div_left_inj' (by positivity)] at value
      exact (Nat.cast_injective value).trans_lt digits
    by_cases long : places < (natDigits d.digits).length
    · have isFraction := Toml.isFraction_split some down (by omega) long
      have length : ((natDigits d.digits).drop ((natDigits d.digits).length - places)).length = places := by
        rw [List.length_drop]
        omega
      exact ⟨_, _, isFraction, precise isFraction length, by omega⟩
    · have isFraction := Toml.isFraction_small down (by omega) (Nat.le_of_not_lt long)
      have length :
          (List.replicate (places - (natDigits d.digits).length) '0' ++ natDigits d.digits).length = places := by
        rw [List.length_append, List.length_replicate]
        omega
      exact ⟨_, _, isFraction, precise isFraction length, by omega⟩

end Positional

section Short

variable {value : Float} {sign : Float.Model.UnpackedFloat.Sign} {mantissa : ℕ} {exponent : ℤ}

/-- A double survives if it is written with a point and few digits around it. -/
theorem survives_of_isFraction {positive : 0 < mantissa}
    (unpacked : value.toModel.unpack = .finite sign mantissa exponent positive) {text : String} {number : ℚ}
    {whole fraction : List Char} (written : interchange? value = some (signed (isMinus sign) text))
    (isFraction : IsFraction text number whole fraction) (near : IsNear number mantissa exponent)
    (precise : Nat.ofDigitChars 10 (whole ++ fraction) 0 < 2 ^ 53) (few : fraction.length < 23) : Survives value := by
  have double := isDouble_of_unpack unpacked
  have some : 0 < Nat.ofDigitChars 10 (whole ++ fraction) 0 := by
    refine Nat.pos_of_ne_zero fun none => ?_
    have low := (Toml.near_bounds near double).1
    rw [← isFraction.value, none, Nat.cast_zero, zero_div, zero_mul] at low
    exact absurd low (by norm_num)
  have read : (fractionSpelling (isMinus sign) whole fraction).toNumeral.toData = .float value := by
    have same := packed_unpack value
    have near : IsNear (Nat.ofDigitChars 10 (whole ++ fraction) 0 / 10 ^ fraction.length) mantissa exponent :=
      isFraction.value.symm ▸ near
    rw [toData_fractionSpelling _ (le_trans precise.le (by decide)),
      scaled_eq some precise (List.length_pos_of_ne_nil isFraction.nonempty) few near double, Toml.signed_isMinus,
      ← same, unpacked]
  have text : (writeFloat value).toList = (fractionSpelling (isMinus sign) whole fraction).toChars := by
    rw [writeFloat, written, Option.getD_some, toList_signed_fraction isFraction]
  exact survives_of_spelling (wellFormed_fractionSpelling isFraction _) text read

theorem survives_zero (sign : Float.Model.UnpackedFloat.Sign) : Survives (packed (.zero sign)) := by
  have number : scale? 2 (Float.ofScientific 0 false 0) (-1) = some 0.0 := by decide +kernel
  have read : (fractionSpelling (isMinus sign) ['0'] ['0']).toNumeral.toData = .float (packed (.zero sign)) := by
    have same : applySign (isMinus sign) 0.0 = packed (.zero sign) := by cases sign <;> decide +kernel
    rw [toData_fractionSpelling _ (by decide)]
    show scaled (isMinus sign) 0 (-1) = _
    rw [scaled, ← same]
    simp only [show (-1 : ℤ).natAbs / 308 + 2 = 2 from rfl, number]
  have text : (writeFloat (packed (.zero sign))).toList = (fractionSpelling (isMinus sign) ['0'] ['0']).toChars := by
    cases sign <;> decide +kernel
  exact survives_of_spelling (wellFormed_fractionSpelling isFraction_zero _) text read

/-- Whether a double has at most fifteen digits and is written with a point that is not far from them. -/
def isShort (value : Float) : Bool :=
  match Decimal.read value with
  | .finite _ significand exponent lowest =>
    let d := shortest significand exponent lowest
    let point : ℤ := (natDigits d.digits).length + d.exponent
    (natDigits d.digits).length ≤ 15 && -5 < point && point ≤ 14
  | _ => false

/-- Short doubles survive. -/
theorem survives_of_isShort (short : isShort value = true) : Survives value := by
  have same := packed_unpack value
  have read := read_eq value
  unfold isShort at short
  rw [read] at short
  cases unpacked : value.toModel.unpack with
  | notANumber => simp [unpacked, reading] at short
  | infinity sign => simp [unpacked, reading] at short
  | zero sign => exact same ▸ unpacked ▸ survives_zero sign
  | finite sign mantissa exponent positive =>
    have double : IsDouble mantissa exponent := isDouble_of_unpack unpacked
    simp only [unpacked, reading, Bool.and_eq_true, decide_eq_true_eq] at short
    obtain ⟨⟨length, small⟩, large⟩ := short
    have written : interchange? value = some (signed (isMinus sign)
        (positionalText (shortest mantissa exponent (isLowest mantissa exponent)) ".0")) := by
      rw [interchange?, read, unpacked]
      simp only [reading]
      rw [if_pos]
      simp only [Bool.or_eq_true, Bool.and_eq_true, decide_eq_true_eq]
      exact .inr ⟨small, by omega⟩
    obtain ⟨whole, fraction, isFraction, precise, few⟩ := exists_shortFraction (shortest_pos double) length small large
    exact survives_of_isFraction unpacked written isFraction (isNear_shortest double) precise few

/-- A quotient of seventeen digits is rounded to the double next to the written one. -/
example : isShort 21.4 = true ∧
    (read? (writeFloat 31.245270191439438)).bind Data.asFloat? = some 31.24527019143944 := by
  decide +kernel

end Short

end HedgedForecast.Json
