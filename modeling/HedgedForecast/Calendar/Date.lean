import HedgedForecast.Decimal.Layout
import HedgedForecast.Text.Blank
import HedgedForecast.Text.Hex

/-! # Dates

Dates of the Gregorian calendar, extended to years before zero, within a bounded range of years.
The written form is `year-month-day`. Reading is more lenient than writing: blanks may stand around
each part, months and days may have one digit, and a year with a sign may have any number of digits.
-/

namespace HedgedForecast

/-- Whether February has 29 days. -/
def isLeapYear (year : Int) : Bool :=
  year % 4 == 0 && (year % 100 != 0 || year % 400 == 0)

/-- The length of a month; zero for a number that is no month. -/
def daysInMonth (year : Int) (month : Nat) : Nat :=
  if month == 2 then (if isLeapYear year then 29 else 28)
  else if month == 4 || month == 6 || month == 9 || month == 11 then 30
  else if 1 ≤ month && month ≤ 12 then 31
  else 0

/-- The first year with dates. -/
def firstYear : Int := -262143

/-- The last year with dates. -/
def lastYear : Int := 262142

/-- A day of the calendar. -/
structure Date where
  year : Int
  month : Nat
  day : Nat
  year_bounds : firstYear ≤ year ∧ year ≤ lastYear
  month_bounds : 1 ≤ month ∧ month ≤ 12
  day_bounds : 1 ≤ day ∧ day ≤ daysInMonth year month
  deriving DecidableEq, Repr

namespace Date

/-- The date with the given parts, if there is one. -/
def ofParts? (year : Int) (month day : Nat) : Option Date :=
  if h : (firstYear ≤ year ∧ year ≤ lastYear) ∧ (1 ≤ month ∧ month ≤ 12) ∧
      (1 ≤ day ∧ day ≤ daysInMonth year month) then
    some ⟨year, month, day, h.1, h.2.1, h.2.2⟩
  else none

/-- A number that grows from each date to the next. -/
def rank (date : Date) : Int :=
  (date.year * 16 + date.month) * 32 + date.day

instance : LE Date := ⟨fun a b => a.rank ≤ b.rank⟩

instance : LT Date := ⟨fun a b => a.rank < b.rank⟩

instance (a b : Date) : Decidable (a ≤ b) := inferInstanceAs (Decidable (a.rank ≤ b.rank))

instance (a b : Date) : Decidable (a < b) := inferInstanceAs (Decidable (a.rank < b.rank))

/-- The following day; the last date follows itself. -/
def next (date : Date) : Date :=
  (ofParts? date.year date.month (date.day + 1) <|>
    ofParts? date.year (date.month + 1) 1 <|>
    ofParts? (date.year + 1) 1 1).getD date

/-- The preceding day; the first date precedes itself. -/
def previous (date : Date) : Date :=
  (ofParts? date.year date.month (date.day - 1) <|>
    ofParts? date.year (date.month - 1) (daysInMonth date.year (date.month - 1)) <|>
    ofParts? (date.year - 1) 12 31).getD date

/-- The day some days later. -/
def later (date : Date) : Nat → Date
  | 0 => date
  | count + 1 => later date.next count

/-- As many consecutive dates as asked for. -/
def consecutive (start : Date) : Nat → List Date
  | 0 => []
  | count + 1 => start :: consecutive start.next count

/-- Digits padded with zeros to a width. -/
def padded (width n : Nat) : List Char :=
  Text.padZeros width (Decimal.natDigits n)

/-- The year with four digits, or with a sign and at least four digits if it needs them. -/
def yearChars (year : Int) : List Char :=
  if 0 ≤ year && year ≤ 9999 then padded 4 year.natAbs
  else (if year < 0 then '-' else '+') :: padded 4 year.natAbs

/-- The characters of the written form. -/
def toChars (date : Date) : List Char :=
  yearChars date.year ++ '-' :: padded 2 date.month ++ '-' :: padded 2 date.day

instance : ToString Date := ⟨fun date => String.ofList date.toChars⟩

/-- Splits off leading digits, at most as many as given, and their value; there must be one. -/
def readNumber? (most : Option Nat) (cs : List Char) : Option (Nat × List Char) :=
  let all := cs.takeWhile Char.isDigit
  let digits := match most with
    | some most => all.take most
    | none => all
  if digits.isEmpty then none
  else some (digits.foldl (fun n c => n * 10 + (c.toNat - 48)) 0, cs.drop digits.length)

/-- The text behind leading blanks. -/
def skipBlanks (cs : List Char) : List Char :=
  cs.dropWhile Text.isBlank

/-- A year: four digits at most, unless it has a sign. -/
def readYear? (cs : List Char) : Option (Int × List Char) :=
  match skipBlanks cs with
  | '-' :: rest => (readNumber? none rest).map fun (n, rest) => (-(n : Int), rest)
  | '+' :: rest => (readNumber? none rest).map fun (n, rest) => ((n : Int), rest)
  | cs => (readNumber? (some 4) cs).map fun (n, rest) => ((n : Int), rest)

/-- A dash and a number of two digits at most, with blanks before each. -/
def readPart? (cs : List Char) : Option (Nat × List Char) :=
  match skipBlanks cs with
  | '-' :: rest => readNumber? (some 2) (skipBlanks rest)
  | _ => none

/-- Reads the characters of a date. -/
def ofChars? (cs : List Char) : Option Date := do
  let (year, rest) ← readYear? cs
  let (month, rest) ← readPart? rest
  let (day, rest) ← readPart? rest
  if (skipBlanks rest).isEmpty then ofParts? year month day else none

/-- Reads a date. -/
def parse? (s : String) : Option Date :=
  ofChars? s.toList

end Date

end HedgedForecast
