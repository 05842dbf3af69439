import HedgedForecast.Calendar.Date

/-! # Moments

A moment in universal time, to the nanosecond. The written form ends in `Z` and has as many
fraction digits as the moment needs, in groups of three. Reading accepts any offset from universal
time. A leap second counts as more than a thousand million nanoseconds of the second before it.
-/

namespace HedgedForecast

/-- A moment of universal time. -/
structure Moment where
  date : Date
  secondOfDay : Nat
  /-- Counted on through a leap second. -/
  nanosecond : Nat
  deriving DecidableEq, Repr

namespace Moment

/-- The moment from which machines count time. -/
def epoch : Moment :=
  ⟨⟨1970, 1, 1, by decide, by decide, by decide⟩, 0, 0⟩

/-- The moment some nanoseconds later. -/
def later (moment : Moment) (nanoseconds : Nat) : Moment :=
  let second := 1000000000
  let total := moment.secondOfDay * second + moment.nanosecond + nanoseconds
  let ofDay := total % (86400 * second)
  ⟨moment.date.later (total / (86400 * second)), ofDay / second, ofDay % second⟩

/-- The fraction of the second, empty for a whole second. -/
def fractionText (nanosecond : Nat) : String :=
  if nanosecond == 0 then ""
  else if nanosecond % 1000000 == 0 then "." ++ String.ofList (Date.padded 3 (nanosecond / 1000000))
  else if nanosecond % 1000 == 0 then "." ++ String.ofList (Date.padded 6 (nanosecond / 1000))
  else "." ++ String.ofList (Date.padded 9 nanosecond)

instance : ToString Moment where
  toString moment :=
    let two := fun n => String.ofList (Date.padded 2 n)
    s!"{moment.date}T" ++ two (moment.secondOfDay / 3600) ++ ":" ++
      two (moment.secondOfDay / 60 % 60) ++ ":" ++
      two (moment.secondOfDay % 60 + moment.nanosecond / 1000000000) ++
      fractionText (moment.nanosecond % 1000000000) ++ "Z"

/-- Exactly two digits. -/
def readPair? : List Char → Option (Nat × List Char)
  | a :: b :: rest =>
    if a.isDigit && b.isDigit then some ((a.toNat - 48) * 10 + (b.toNat - 48), rest) else none
  | _ => none

/-- A given character and then exactly two digits. -/
def readPairAfter? (mark : Char) : List Char → Option (Nat × List Char)
  | c :: rest => if c == mark then readPair? rest else none
  | [] => none

/-- A date with four, two and two digits. -/
def readDate? (cs : List Char) : Option (Date × List Char) := do
  let (century, rest) ← readPair? cs
  let (year, rest) ← readPair? rest
  let (month, rest) ← readPairAfter? '-' rest
  let (day, rest) ← readPairAfter? '-' rest
  let date ← Date.ofParts? (century * 100 + year : Nat) month day
  return (date, rest)

/-- The nanoseconds of a fraction; digits beyond the ninth are dropped. -/
def readFraction? : List Char → Option (Nat × List Char)
  | '.' :: rest =>
    let digits := rest.takeWhile Char.isDigit
    if digits.isEmpty then none
    else
      let kept := (digits ++ List.replicate 9 '0').take 9
      some (kept.foldl (fun n c => n * 10 + (c.toNat - 48)) 0, rest.drop digits.length)
  | cs => some (0, cs)

/-- The offset from universal time in seconds. -/
def readOffset? : List Char → Option Int
  | ['Z'] => some 0
  | ['z'] => some 0
  | sign :: rest => do
    let (hours, rest) ← readPair? rest
    let (minutes, rest) ← readPairAfter? ':' rest
    if !rest.isEmpty || 23 < hours || 59 < minutes then none
    else if sign == '+' then some (hours * 3600 + minutes * 60 : Nat)
    else if sign == '-' then some (-(hours * 3600 + minutes * 60 : Nat))
    else none
  | [] => none

/-- The moment at a second counted from midnight, at most a day away from it. -/
def ofSeconds (date : Date) (second : Int) (nanosecond : Nat) : Moment :=
  if second < 0 then ⟨date.previous, (second + 86400).toNat, nanosecond⟩
  else if 86400 ≤ second then ⟨date.next, (second - 86400).toNat, nanosecond⟩
  else ⟨date, second.toNat, nanosecond⟩

/-- Reads a moment. -/
def parse? (s : String) : Option Moment := do
  let (date, rest) ← readDate? s.toList
  let (hour, rest) ← match rest with
    | c :: rest => if c == 'T' || c == 't' || c == ' ' then readPair? rest else none
    | [] => none
  let (minute, rest) ← readPairAfter? ':' rest
  let (second, rest) ← readPairAfter? ':' rest
  let (nanosecond, rest) ← readFraction? rest
  let offset ← readOffset? rest
  let leap := if second == 60 then 1 else 0
  if 23 < hour || 59 < minute || 60 < second then none
  else
    let second := hour * 3600 + minute * 60 + second - leap
    some (ofSeconds date (second - offset) (nanosecond + leap * 1000000000))

end Moment

end HedgedForecast
