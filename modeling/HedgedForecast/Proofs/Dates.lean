import HedgedForecast.Calendar.Date
import HedgedForecast.Proofs.Blanks
import HedgedForecast.Proofs.Toml.Numbers
import Mathlib.Data.Nat.Digits.Defs

/-! # Dates as they are written

The written form of a date is one of the many that are read as this date: the number of digits of the year tells a year
with a sign from one without, and no part has more digits than are read.
-/

namespace HedgedForecast.Date

open Toml (AllDigits allDigits_natDigits)

theorem allDigits_padded (width n : Nat) : AllDigits (padded width n) := by
  intro c member
  obtain zero | digit := List.mem_append.mp member
  · exact List.eq_of_mem_replicate zero ▸ rfl
  · exact allDigits_natDigits n c digit

theorem padded_ne_nil (width n : Nat) : padded width n ≠ [] :=
  List.append_ne_nil_of_right_ne_nil _ Nat.toDigits_ne_nil

theorem exists_cons_padded (width n : Nat) : ∃ c cs, padded width n = c :: cs ∧ c.isDigit = true := by
  obtain ⟨c, cs, same⟩ := List.exists_cons_of_ne_nil (padded_ne_nil width n)
  exact ⟨c, cs, same, allDigits_padded width n c (by rw [same]; exact List.mem_cons_self)⟩

theorem ofDigitChars_padded (width n : Nat) : Nat.ofDigitChars 10 (padded width n) 0 = n := by
  rw [padded, Text.padZeros, Nat.ofDigitChars_append, Nat.ofDigitChars_replicate_zero, Nat.mul_zero, Decimal.natDigits,
    Nat.ofDigitChars_ten_toDigits]

theorem length_padded_le {width n : Nat} (some : 0 < width) (small : n < 10 ^ width) :
    (padded width n).length ≤ width := by
  have short : (Decimal.natDigits n).length ≤ width := Nat.toDigits_length 10 n width some small
  rw [padded, Text.padZeros, List.length_append, List.length_replicate]
  omega

/-- Digits are read to their end, if they are not more than are read and no other digit follows. -/
theorem readNumber?_append {digits rest : List Char} {most : Option Nat} (allDigits : AllDigits digits)
    (nonempty : digits ≠ []) (fits : ∀ bound ∈ most, digits.length ≤ bound)
    (stop : ∀ c ∈ rest.head?, c.isDigit = false) :
    readNumber? most (digits ++ rest) = some (Nat.ofDigitChars 10 digits 0, rest) := by
  have nothing : rest.takeWhile Char.isDigit = [] := by
    cases rest with
    | nil => rfl
    | cons c tail => simp [stop c rfl]
  have all : (digits ++ rest).takeWhile Char.isDigit = digits := by
    rw [List.takeWhile_append_of_pos allDigits, nothing, List.append_nil]
  have value : digits.foldl (fun n c => n * 10 + (c.toNat - 48)) 0 = Nat.ofDigitChars 10 digits 0 := by
    rw [Nat.ofDigitChars_eq_foldl]
    congr 1
    funext sofar c
    rw [Nat.mul_comm]
    rfl
  cases most with
  | none => simp only [readNumber?, all, List.isEmpty_iff, if_neg nonempty, value, List.drop_left]
  | some bound =>
    simp only [readNumber?, all, List.take_of_length_le (fits bound rfl), List.isEmpty_iff, if_neg nonempty, value,
      List.drop_left]

theorem skipBlanks_padded (width n : Nat) (rest : List Char) :
    skipBlanks (padded width n ++ rest) = padded width n ++ rest := by
  obtain ⟨c, cs, same, digit⟩ := exists_cons_padded width n
  rw [Char.isDigit, Bool.and_eq_true, decide_eq_true_eq, decide_eq_true_eq] at digit
  have low : 48 ≤ c.toNat := digit.1
  have high : c.toNat ≤ 57 := digit.2
  have visible : Text.isBlank c = false := Text.isBlank_eq_false (by omega) (by omega)
  rw [same]
  exact List.dropWhile_cons_of_neg (Bool.eq_false_iff.mp visible)

theorem readNumber?_padded {width n : Nat} {most : Option Nat} (fits : ∀ bound ∈ most, (padded width n).length ≤ bound)
    {rest : List Char} (stop : ∀ c ∈ rest.head?, c.isDigit = false) :
    readNumber? most (padded width n ++ rest) = some (n, rest) := by
  rw [readNumber?_append (allDigits_padded width n) (padded_ne_nil width n) fits stop, ofDigitChars_padded]

/-- A number of two digits at most behind a dash. -/
theorem readPart?_padded {n : Nat} (small : n < 100) {rest : List Char} (stop : ∀ c ∈ rest.head?, c.isDigit = false) :
    readPart? ('-' :: (padded 2 n ++ rest)) = some (n, rest) := by
  have fits : ∀ bound ∈ some 2, (padded 2 n).length ≤ bound := by
    rintro _ ⟨⟩
    exact length_padded_le (by decide) small
  have dash : skipBlanks ('-' :: (padded 2 n ++ rest)) = '-' :: (padded 2 n ++ rest) := rfl
  rw [readPart?, dash]
  simp only [skipBlanks_padded, readNumber?_padded fits stop]

theorem readYear?_unsigned {n : Nat} (small : n < 10 ^ 4) {rest : List Char}
    (stop : ∀ c ∈ rest.head?, c.isDigit = false) : readYear? (padded 4 n ++ rest) = some ((n : Int), rest) := by
  have fits : ∀ bound ∈ some 4, (padded 4 n).length ≤ bound := by
    rintro _ ⟨⟩
    exact length_padded_le (by decide) small
  have number := readNumber?_padded fits stop
  obtain ⟨c, cs, same, digit⟩ := exists_cons_padded 4 n
  rw [readYear?, skipBlanks_padded]
  rw [same, List.cons_append] at number ⊢
  split
  · next first => exact absurd digit (by rw [(List.cons.inj first).1]; decide)
  · next first => exact absurd digit (by rw [(List.cons.inj first).1]; decide)
  · rw [number, Option.map_some]

/-- A year is read without a sign or with the one that is written. -/
theorem readYear?_yearChars (year : Int) {rest : List Char} (stop : ∀ c ∈ rest.head?, c.isDigit = false) :
    readYear? (yearChars year ++ rest) = some (year, rest) := by
  have number : readNumber? none (padded 4 year.natAbs ++ rest) = some (year.natAbs, rest) :=
    readNumber?_padded (fun _ none => absurd none (by simp)) stop
  unfold yearChars
  split_ifs with plain below
  · simp only [Bool.and_eq_true, decide_eq_true_eq] at plain
    have same : (year.natAbs : Int) = year := by omega
    rw [readYear?_unsigned (by omega) stop, same]
  · have same : -(year.natAbs : Int) = year := by omega
    show (readNumber? none (padded 4 year.natAbs ++ rest)).map _ = _
    simp only [number, Option.map_some, same]
  · have same : (year.natAbs : Int) = year := by omega
    show (readNumber? none (padded 4 year.natAbs ++ rest)).map _ = _
    simp only [number, Option.map_some, same]

theorem daysInMonth_le (year : Int) (month : Nat) : daysInMonth year month ≤ 31 := by
  unfold daysInMonth
  split_ifs <;> decide

theorem ofParts?_self (date : Date) : ofParts? date.year date.month date.day = some date :=
  dif_pos ⟨date.year_bounds, date.month_bounds, date.day_bounds⟩

/-- A date is read back from its written form. -/
theorem parse?_toString (date : Date) : parse? (toString date) = some date := by
  have month := date.month_bounds
  have day := date.day_bounds
  have few := daysInMonth_le date.year date.month
  have dash (tail : List Char) : ∀ c ∈ ('-' :: tail).head?, c.isDigit = false := by
    rintro _ ⟨⟩
    rfl
  have written : (toString date).toList =
      yearChars date.year ++ '-' :: (padded 2 date.month ++ '-' :: (padded 2 date.day ++ [])) := by
    simp [toString, toChars]
  have readMonth : readPart? ('-' :: (padded 2 date.month ++ '-' :: (padded 2 date.day ++ []))) =
      some (date.month, '-' :: (padded 2 date.day ++ [])) := readPart?_padded (by omega) (dash _)
  have readDay : readPart? ('-' :: (padded 2 date.day ++ [])) = some (date.day, []) :=
    readPart?_padded (by omega) nofun
  unfold parse? ofChars?
  simp only [written, readYear?_yearChars date.year (dash _), readMonth, readDay, Option.bind_eq_bind, Option.bind_some]
  exact ofParts?_self date

end HedgedForecast.Date
