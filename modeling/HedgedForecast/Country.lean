import HedgedForecast.Data.Basic
import HedgedForecast.Text.Blank

/-! # Country codes

A country code is two capital ASCII letters. Reading cuts blanks off both ends and takes letters of
either case; nothing else is a code.
-/

namespace HedgedForecast

/-- Two capital ASCII letters. -/
structure Country where
  first : Char
  second : Char
  first_upper : first.isUpper = true
  second_upper : second.isUpper = true
  deriving DecidableEq, Repr

/-- The capital form of an ASCII letter is a capital letter. -/
theorem isUpper_toUpper {c : Char} (letter : c.isAlpha = true) : c.toUpper.isUpper = true := by
  delta Char.isAlpha at letter
  rw [Bool.or_eq_true] at letter
  delta Char.toUpper
  split
  · next lower =>
    delta Char.isUpper
    simp only [decide_eq_true_eq, ge_iff_le]
    have h : c.val.toNat + ('A'.val - 'a'.val).toNat = c.val.toNat + 4294967264 := rfl
    have low : 97 ≤ c.val.toNat := lower.1
    have high : c.val.toNat ≤ 122 := lower.2
    constructor
    · show (65 : UInt32).toNat ≤ (c.val + ('A'.val - 'a'.val)).toNat
      rw [UInt32.toNat_add, h]
      show 65 ≤ _
      omega
    · show (c.val + ('A'.val - 'a'.val)).toNat ≤ (90 : UInt32).toNat
      rw [UInt32.toNat_add, h]
      show _ ≤ 90
      omega
  · next notLower =>
    rcases letter with upper | lower
    · exact upper
    · delta Char.isLower at lower
      simp only [Bool.and_eq_true, decide_eq_true_eq] at lower
      exact absurd lower notLower

namespace Country

/-- The code in these characters, blanks around it aside. -/
def ofChars? (cs : List Char) : Option Country :=
  match Text.trimBlanks cs with
  | [a, b] =>
    if h : a.isAlpha = true ∧ b.isAlpha = true then
      some ⟨a.toUpper, b.toUpper, isUpper_toUpper h.1, isUpper_toUpper h.2⟩
    else none
  | _ => none

/-- Reads a country code. -/
def parse? (s : String) : Option Country :=
  ofChars? s.toList

/-- The two letters. -/
def toChars (country : Country) : List Char :=
  [country.first, country.second]

theorem toChars_injective {country other : Country} (same : country.toChars = other.toChars) : country = other := by
  cases country
  cases other
  simp only [toChars, List.cons.injEq, and_true] at same
  obtain ⟨rfl, rfl⟩ := same
  rfl

/-- The two letters as a string. -/
def code (country : Country) : String :=
  String.ofList country.toChars

instance : ToString Country := ⟨code⟩

/-- A code as data is its text. -/
def toData (country : Country) : Data :=
  .text country.code

/-- A code in data. -/
def ofData? (data : Data) : Option Country :=
  data.asText?.bind parse?

end Country

end HedgedForecast
