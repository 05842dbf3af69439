import HedgedForecast.Json.Reader
import HedgedForecast.Json.Writer
import HedgedForecast.Proofs.Toml.Numbers

/-! # Numbers in the interchange notation

A number is written with a sign, whole digits, a fraction and an exponent, of which all but the whole digits may be
missing. Whatever stands behind it, as long as it does not prolong the number, the parts are told apart again.
-/

namespace HedgedForecast.Json

open Toml (AllDigits IsWhole digitValue sign allDigits_natDigits isWhole_natDigits)

/-- The parts of a number as it is written. -/
structure Spelling where
  negative : Bool
  whole : List Char
  fraction : Option (List Char)
  /-- The sign and the digits of the exponent; the sign is true for a negative one. -/
  exponent : Option (Bool × List Char)

/-- The point and the digits behind it. -/
def fractionChars : Option (List Char) → List Char
  | none => []
  | some digits => '.' :: digits

/-- The exponent, which always has a sign. -/
def exponentChars : Option (Bool × List Char) → List Char
  | none => []
  | some (down, digits) => 'e' :: (if down then '-' else '+') :: digits

namespace Spelling

/-- The written number. -/
def toChars (spelling : Spelling) : List Char :=
  sign spelling.negative ++ (spelling.whole ++ (fractionChars spelling.fraction ++ exponentChars spelling.exponent))

/-- The values of the digits. -/
def toNumeral (spelling : Spelling) : Numeral where
  negative := spelling.negative
  whole := spelling.whole.map digitValue
  fraction := spelling.fraction.map (·.map digitValue)
  exponent := spelling.exponent.map fun (down, digits) => (down, digits.map digitValue)

/-- Each part that is there has a digit, and no zero stands in front of other whole digits. -/
structure WellFormed (spelling : Spelling) : Prop where
  whole : IsWhole spelling.whole
  fraction : ∀ digits ∈ spelling.fraction, AllDigits digits ∧ digits ≠ []
  exponent : ∀ part ∈ spelling.exponent, AllDigits part.2 ∧ part.2 ≠ []

end Spelling

/-- What does not begin with a digit. -/
def Halts (rest : List Char) : Prop :=
  ∀ c ∈ rest.head?, c.isDigit = false

theorem halts_cons {c : Char} (tail : List Char) (other : c.isDigit = false) : Halts (c :: tail) := by
  rintro _ ⟨⟩
  exact other

theorem takeDigits_append {cs rest : List Char} (digits : AllDigits cs) (halts : Halts rest) :
    takeDigits (cs ++ rest) = (cs.map digitValue, rest) := by
  have none : rest.takeWhile Char.isDigit = [] ∧ rest.dropWhile Char.isDigit = rest := by
    cases rest with
    | nil => exact ⟨rfl, rfl⟩
    | cons c tail => simp [halts c rfl]
  rw [takeDigits, List.takeWhile_append_of_pos digits, List.dropWhile_append_of_pos digits, none.1, none.2,
    List.append_nil]
  rfl

/-- What may stand behind a number: neither a digit nor a point nor an exponent. -/
def EndsNumber (rest : List Char) : Prop :=
  ∀ c ∈ rest.head?, c.isDigit = false ∧ c ≠ '.' ∧ c ≠ 'e' ∧ c ≠ 'E'

section Parts

variable {fraction : Option (List Char)} {exponent : Option (Bool × List Char)} {rest : List Char}

theorem halts_exponentChars (ends : EndsNumber rest) (exponent : Option (Bool × List Char)) :
    Halts (exponentChars exponent ++ rest) := by
  cases exponent with
  | none => exact fun c head => (ends c head).1
  | some part => exact halts_cons _ (by decide)

theorem halts_fractionChars (halts : Halts rest) (fraction : Option (List Char)) :
    Halts (fractionChars fraction ++ rest) := by
  cases fraction with
  | none => exact halts
  | some digits => exact halts_cons _ (by decide)

theorem readFraction?_append (digits : ∀ cs ∈ fraction, AllDigits cs ∧ cs ≠ []) (halts : Halts rest)
    (noPoint : rest.head? ≠ some '.') :
    readFraction? (fractionChars fraction ++ rest) = some (fraction.map (·.map digitValue), rest) := by
  cases fraction with
  | none =>
    cases rest with
    | nil => rfl
    | cons c tail =>
      unfold readFraction?
      split
      · next same => exact absurd (congrArg List.head? same) noPoint
      · rfl
  | some cs =>
    obtain ⟨all, nonempty⟩ := digits cs rfl
    have taken := takeDigits_append all halts
    cases cs with
    | nil => exact absurd rfl nonempty
    | cons c cs =>
      rw [fractionChars, List.cons_append, readFraction?, taken]
      rfl

theorem readExponent?_append (digits : ∀ part ∈ exponent, AllDigits part.2 ∧ part.2 ≠ []) (ends : EndsNumber rest) :
    readExponent? (exponentChars exponent ++ rest) =
      some (exponent.map fun (down, digits) => (down, digits.map digitValue), rest) := by
  cases exponent with
  | none =>
    cases rest with
    | nil => rfl
    | cons c tail =>
      obtain ⟨_, _, lower, upper⟩ := ends c rfl
      rw [exponentChars, List.nil_append, readExponent?, if_neg (by simp [lower, upper])]
      rfl
  | some part =>
    obtain ⟨down, cs⟩ := part
    obtain ⟨all, nonempty⟩ := digits _ rfl
    have taken := takeDigits_append all fun c head => (ends c head).1
    have signed : readSign ((if down then '-' else '+') :: (cs ++ rest)) = (down, cs ++ rest) := by
      cases down <;> rfl
    cases cs with
    | nil => exact absurd rfl nonempty
    | cons c cs =>
      rw [exponentChars, List.cons_append, List.cons_append, readExponent?, if_pos (by decide)]
      simp only [signed, taken]
      rfl

end Parts

/-- A digit that is not zero has a value. -/
theorem digitValue_pos {c : Char} (digit : c.isDigit = true) (other : c ≠ '0') : 0 < digitValue c := by
  have low : 48 ≤ c.toNat := by
    rw [Char.isDigit, Bool.and_eq_true, decide_eq_true_eq] at digit
    exact digit.1
  have differs : c.toNat ≠ 48 := fun same => other (Char.toNat_inj.mp same)
  rw [digitValue]
  omega

/-- The digits in front of the point, if they are at least one and no zero stands in front of others. -/
theorem wholeDigits_cases {whole : List Char} (isWhole : IsWhole whole) :
    whole.map digitValue = [0] ∨ ∃ first others, whole.map digitValue = (first + 1) :: others := by
  obtain rfl | ⟨nonempty, digits, front⟩ := isWhole
  · exact .inl rfl
  · cases whole with
    | nil => exact absurd rfl nonempty
    | cons c cs =>
      have positive := digitValue_pos (digits c List.mem_cons_self) (by simpa using front)
      obtain ⟨first, same⟩ := Nat.exists_eq_add_one.mpr positive
      exact .inr ⟨first, cs.map digitValue, by rw [List.map_cons, same]⟩

/-- A number behind its sign. -/
def readUnsigned? (negative : Bool) (cs : List Char) : Option (Data × List Char) := do
  let (whole, rest) ← match takeDigits cs with
    | ([], _) => none
    | (0 :: _ :: _, _) => none
    | (digits, rest) => some (digits, rest)
  let (fraction, rest) ← readFraction? rest
  let (exponent, rest) ← readExponent? rest
  return ((Numeral.mk negative whole fraction exponent).toData, rest)

theorem readNumber?_sign (negative : Bool) {cs : List Char} (unsigned : cs.head? ≠ some '-') :
    readNumber? (sign negative ++ cs) = readUnsigned? negative cs := by
  cases negative with
  | true => rfl
  | false =>
    rw [sign, if_neg (by decide), List.nil_append]
    unfold readNumber?
    split
    next down digits same =>
      split at same
      · exact absurd rfl unsigned
      · cases same
        rfl

/-- A number is read part by part. -/
theorem readNumber?_append {spelling : Spelling} (wellFormed : spelling.WellFormed) {rest : List Char}
    (ends : EndsNumber rest) :
    readNumber? (spelling.toChars ++ rest) = some (spelling.toNumeral.toData, rest) := by
  obtain ⟨negative, whole, fraction, exponent⟩ := spelling
  obtain ⟨isWhole, inFraction, inExponent⟩ := wellFormed
  simp only at isWhole inFraction inExponent
  have behind : Halts (exponentChars exponent ++ rest) := halts_exponentChars ends exponent
  have noPoint : (exponentChars exponent ++ rest).head? ≠ some '.' := by
    cases exponent with
    | none => exact fun head => (ends '.' head).2.1 rfl
    | some part => simp [exponentChars]
  have unsigned : (whole ++ (fractionChars fraction ++ (exponentChars exponent ++ rest))).head? ≠ some '-' := by
    obtain ⟨c, cs, rfl, digit⟩ := Toml.exists_cons_whole isWhole
    rintro ⟨⟩
    exact absurd digit (by decide)
  have taken := takeDigits_append isWhole.allDigits (halts_fractionChars behind fraction)
  simp only [Spelling.toChars, Spelling.toNumeral, List.append_assoc]
  rw [readNumber?_sign negative unsigned]
  unfold readUnsigned?
  obtain zero | ⟨first, others, nonzero⟩ := wholeDigits_cases isWhole
  · simp only [taken, zero, readFraction?_append inFraction behind noPoint, readExponent?_append inExponent ends,
      Option.bind_eq_bind, Option.bind_some]
    rfl
  · simp only [taken, nonzero, readFraction?_append inFraction behind noPoint, readExponent?_append inExponent ends,
      Option.bind_eq_bind, Option.bind_some]
    rfl

/-- A whole number as it is written. -/
def wholeSpelling (value : Int) : Spelling where
  negative := decide (value < 0)
  whole := Decimal.natDigits value.natAbs
  fraction := none
  exponent := none

theorem wellFormed_wholeSpelling (value : Int) : (wholeSpelling value).WellFormed :=
  ⟨isWhole_natDigits _, nofun, nofun⟩

theorem toList_intText (value : Int) : (Decimal.intText value).toList = (wholeSpelling value).toChars := by
  unfold Decimal.intText
  by_cases below : value < 0
  · simp [Spelling.toChars, wholeSpelling, sign, fractionChars, exponentChars, below]
  · simp [Spelling.toChars, wholeSpelling, sign, fractionChars, exponentChars, below]

end HedgedForecast.Json
