import HedgedForecast.Proofs.Json.Numbers
import HedgedForecast.Proofs.Toml.Doubles

/-! # Doubles in the interchange notation

Each of the two layouts of a finite double, with an exponent and without, is a number as the notation has them.
-/

namespace HedgedForecast.Json

open Decimal Double
open Toml (AllDigits IsFraction sign allDigits_natDigits exists_isFraction toList_signed shortest_pos)

/-- Digits with a point between them. -/
def fractionSpelling (negative : Bool) (whole fraction : List Char) : Spelling where
  negative := negative
  whole := whole
  fraction := some fraction
  exponent := none

section Positional

variable {text : String} {number : ℚ} {whole fraction : List Char}

theorem wellFormed_fractionSpelling (isFraction : IsFraction text number whole fraction) (negative : Bool) :
    (fractionSpelling negative whole fraction).WellFormed where
  whole := isFraction.isWhole
  fraction := by
    rintro _ ⟨⟩
    exact ⟨isFraction.digits, isFraction.nonempty⟩
  exponent := nofun

theorem toList_signed_fraction (isFraction : IsFraction text number whole fraction) (negative : Bool) :
    (signed negative text).toList = (fractionSpelling negative whole fraction).toChars := by
  rw [toList_signed, isFraction.text]
  simp [Spelling.toChars, fractionSpelling, fractionChars, exponentChars]

end Positional

/-- Zero has one digit on each side of the point. -/
theorem isFraction_zero : IsFraction (positionalText (shortest 0 (-1074) false) ".0") 0 ['0'] ['0'] where
  text := rfl
  isWhole := .inl rfl
  digits := Toml.allDigits_zeros 1
  nonempty := List.cons_ne_nil _ _
  value := by norm_num [Nat.ofDigitChars]

/-- One digit, the others behind a point, and an exponent. -/
def scientificSpelling (negative : Bool) (first : Char) (others : List Char) (power : ℤ) : Spelling where
  negative := negative
  whole := [first]
  fraction := if others.isEmpty then none else some others
  exponent := some (decide (power < 0), natDigits power.natAbs)

theorem wellFormed_scientificSpelling {first : Char} {others : List Char} (digits : AllDigits (first :: others))
    (negative : Bool) (power : ℤ) : (scientificSpelling negative first others power).WellFormed where
  whole := by
    by_cases zero : first = '0'
    · exact .inl (congrArg ([·]) zero)
    · refine .inr ⟨List.cons_ne_nil _ _, fun c member => ?_, by simpa [scientificSpelling] using zero⟩
      obtain rfl := List.mem_singleton.mp member
      exact digits _ List.mem_cons_self
  fraction := by
    cases others with
    | nil => exact nofun
    | cons second others =>
      rintro _ ⟨⟩
      exact ⟨fun c member => digits c (List.mem_cons_of_mem _ member), List.cons_ne_nil _ _⟩
  exponent := by
    rintro _ ⟨⟩
    exact ⟨allDigits_natDigits _, Nat.toDigits_ne_nil⟩

theorem exists_scientific (d : Digits) (negative : Bool) :
    ∃ spelling : Spelling, spelling.WellFormed ∧ (signed negative (scientificText d)).toList = spelling.toChars := by
  obtain ⟨first, others, same⟩ : ∃ first others, natDigits d.digits = first :: others :=
    List.exists_cons_of_ne_nil Nat.toDigits_ne_nil
  have digits := allDigits_natDigits d.digits
  rw [same] at digits
  refine ⟨_, wellFormed_scientificSpelling digits negative ((first :: others).length - 1 + d.exponent), ?_⟩
  rw [toList_signed, scientificText, same]
  generalize (((first :: others).length : ℤ) - 1 + d.exponent) = power
  cases others with
  | nil =>
    by_cases down : power < 0 <;> simp [Spelling.toChars, scientificSpelling, fractionChars, exponentChars, down]
  | cons second others =>
    by_cases down : power < 0 <;> simp [Spelling.toChars, scientificSpelling, fractionChars, exponentChars, down]

/-- A finite double is written as a number. -/
theorem exists_spelling {value : Float} {text : String} (written : interchange? value = some text) :
    ∃ spelling : Spelling, spelling.WellFormed ∧ text.toList = spelling.toChars := by
  have canonical := isCanonical_unpack value.toModel.toBits.toBitVec
  have read := read_eq value
  change IsCanonical value.toModel.unpack at canonical
  rw [interchange?, read] at written
  generalize value.toModel.unpack = unpacked at canonical written
  cases unpacked with
  | notANumber => contradiction
  | infinity sign => contradiction
  | zero sign =>
    cases written
    exact ⟨_, wellFormed_fractionSpelling isFraction_zero _, toList_signed_fraction isFraction_zero _⟩
  | finite sign mantissa exponent positive =>
    have double : IsDouble mantissa exponent := canonical
    obtain ⟨whole, fraction, isFraction⟩ := exists_isFraction (shortest_pos double)
    simp only [reading] at written
    split at written
    · cases written
      exact ⟨_, wellFormed_fractionSpelling isFraction _, toList_signed_fraction isFraction _⟩
    · cases written
      exact exists_scientific _ _

end HedgedForecast.Json
