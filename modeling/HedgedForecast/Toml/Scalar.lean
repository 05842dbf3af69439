import HedgedForecast.Data.Basic
import HedgedForecast.Text.Hex

/-! # Scalars of settings files

Texts in four kinds of quotes, whole numbers in four bases, doubles, truth values, dates and times.
Each reader takes the characters of its value and leaves the rest. A date or time is read as a
record without fields: no setting has such a value.
-/

namespace HedgedForecast.Toml

/-- Blanks within a line. -/
def isBlank (c : Char) : Bool :=
  c == ' ' || c == '\t'

/-- The text behind blanks. -/
def skipBlanks (cs : List Char) : List Char :=
  cs.dropWhile isBlank

/-- Whether a character may stand in a text: no control but the tabulator. -/
def isPlain (c : Char) : Bool :=
  c == '\t' || (32 ≤ c.toNat && c.toNat != 127)

/-- Splits off a line break. -/
def newline? : List Char → Option (List Char)
  | '\n' :: rest => some rest
  | '\r' :: '\n' :: rest => some rest
  | _ => none

/-- The text behind blanks and line breaks. -/
def skipLines : Nat → List Char → List Char
  | 0, cs => cs
  | fuel + 1, cs =>
    match newline? (skipBlanks cs) with
    | some rest => skipLines fuel rest
    | none => skipBlanks cs

/-- The character of a number of given width in sixteen digits. -/
def readCode? (width : Nat) (cs : List Char) : Option (Char × List Char) := do
  let digits ← (cs.take width).mapM Text.hexValue?
  let code := digits.foldl (fun n digit => n * 16 + digit) 0
  if digits.length == width && code.isValidChar then some (Char.ofNat code, cs.drop width)
  else none

/-- The character of an escape, behind its backslash. -/
def readEscape? : List Char → Option (Char × List Char)
  | 'b' :: rest => some ('\x08', rest)
  | 't' :: rest => some ('\t', rest)
  | 'n' :: rest => some ('\n', rest)
  | 'f' :: rest => some ('\x0c', rest)
  | 'r' :: rest => some ('\r', rest)
  | '"' :: rest => some ('"', rest)
  | '\\' :: rest => some ('\\', rest)
  | 'u' :: rest => readCode? 4 rest
  | 'U' :: rest => readCode? 8 rest
  | _ => none

/-- The rest of a text with escapes; the characters so far come in reverse. -/
def readBasic? : Nat → List Char → List Char → Option (String × List Char)
  | 0, _, _ => none
  | _ + 1, [], _ => none
  | fuel + 1, c :: rest, sofar =>
    if c == '"' then some (String.ofList sofar.reverse, rest)
    else if c == '\\' then do
      let (escaped, rest) ← readEscape? rest
      readBasic? fuel rest (escaped :: sofar)
    else if isPlain c then readBasic? fuel rest (c :: sofar)
    else none

/-- The rest of a text without escapes. -/
def readLiteral? (cs : List Char) : Option (String × List Char) :=
  match cs.dropWhile fun c => c != '\'' && isPlain c with
  | '\'' :: rest => some (String.ofList (cs.takeWhile fun c => c != '\'' && isPlain c), rest)
  | _ => none

/-- Closes a text of several lines at a run of at least three quotes. Up to two quotes before the
closing ones belong to the text. -/
def closeQuotes? (quote : Char) (cs : List Char) (sofar : List Char) :
    Option (String × List Char) :=
  let run := (cs.takeWhile (· == quote)).length
  if run < 3 then none
  else
    let kept := min (run - 3) 2
    some (String.ofList (sofar.reverse ++ List.replicate kept quote), cs.drop (kept + 3))

/-- The rest of a text of several lines with escapes. A backslash at the end of a line drops the
line break and all blanks behind it. -/
def readLongBasic? : Nat → List Char → List Char → Option (String × List Char)
  | 0, _, _ => none
  | _ + 1, [], _ => none
  | fuel + 1, c :: rest, sofar =>
    if c == '"' then
      match closeQuotes? '"' (c :: rest) sofar with
      | some result => some result
      | none => readLongBasic? fuel rest (c :: sofar)
    else if c == '\\' then
      match readEscape? rest with
      | some (escaped, rest) => readLongBasic? fuel rest (escaped :: sofar)
      | none =>
        match newline? (skipBlanks rest) with
        | some rest => readLongBasic? fuel (skipLines rest.length rest) sofar
        | none => none
    else match newline? (c :: rest) with
      | some rest => readLongBasic? fuel rest ('\n' :: sofar)
      | none => if isPlain c then readLongBasic? fuel rest (c :: sofar) else none

/-- The rest of a text of several lines without escapes. -/
def readLongLiteral? : Nat → List Char → List Char → Option (String × List Char)
  | 0, _, _ => none
  | _ + 1, [], _ => none
  | fuel + 1, c :: rest, sofar =>
    if c == '\'' then
      match closeQuotes? '\'' (c :: rest) sofar with
      | some result => some result
      | none => readLongLiteral? fuel rest (c :: sofar)
    else match newline? (c :: rest) with
      | some rest => readLongLiteral? fuel rest ('\n' :: sofar)
      | none => if isPlain c then readLongLiteral? fuel rest (c :: sofar) else none

/-- A text within one line. -/
def readLineText? : List Char → Option (String × List Char)
  | '"' :: rest => readBasic? (rest.length + 1) rest []
  | '\'' :: rest => readLiteral? rest
  | _ => none

/-- A text in any quotes; a line break right behind three opening quotes does not count. -/
def readText? (cs : List Char) : Option (String × List Char) :=
  match cs with
  | '"' :: '"' :: '"' :: rest =>
    readLongBasic? (rest.length + 1) ((newline? rest).getD rest) []
  | '\'' :: '\'' :: '\'' :: rest =>
    readLongLiteral? (rest.length + 1) ((newline? rest).getD rest) []
  | _ => readLineText? cs

/-- Digits of a base below a bound on their values; an underscore may stand between two. The digits
so far come in reverse. -/
def readDigits (base : Nat) : List Char → List Nat → List Nat × List Char
  | [], sofar => (sofar.reverse, [])
  | c :: rest, sofar =>
    let isDigit := fun (c : Char) => (Text.hexValue? c).any (· < base)
    if isDigit c then readDigits base rest ((Text.hexValue? c).getD 0 :: sofar)
    else if c == '_' && !sofar.isEmpty && rest.head?.any isDigit then readDigits base rest sofar
    else (sofar.reverse, c :: rest)

/-- The value of digits. -/
def valueOf (base : Nat) (digits : List Nat) : Nat :=
  digits.foldl (fun n digit => n * base + digit) 0

/-- At least one digit; an underscore with no digit behind it is an error. -/
def readDigits? (base : Nat) (cs : List Char) : Option (List Nat × List Char) :=
  match readDigits base cs [] with
  | ([], _) => none
  | (_, '_' :: _) => none
  | (digits, rest) => some (digits, rest)

/-- A sign, true for a minus. -/
def readSign : List Char → Bool × List Char
  | '+' :: rest => (false, rest)
  | '-' :: rest => (true, rest)
  | cs => (false, cs)

/-- The digits of a whole decimal number; a zero in front stands alone. -/
def readWhole? (cs : List Char) : Option (List Nat × List Char) :=
  match cs with
  | '0' :: rest => some ([0], rest)
  | _ => readDigits? 10 cs

/-- A whole number of 64 bits with sign. -/
def wholeNumber? (value : Int) : Option Data :=
  if -Int.pow 2 63 ≤ value && value < Int.pow 2 63 then some (.int value) else none

/-- The double nearest to a decimal number, unless it is too large for all doubles. -/
def double? (negative : Bool) (digits : List Nat) (places : Nat) (power : Int) : Option Data :=
  let significant := digits.dropWhile (· == 0)
  let exponent := power - places
  let magnitude : Int := significant.length + exponent
  let size :=
    if significant.isEmpty || magnitude < -400 then 0.0
    else if 400 < magnitude then 1.0 / 0.0
    else Float.ofScientific (valueOf 10 digits) (exponent < 0) exponent.natAbs
  let value := if negative then -size else size
  if value == 1.0 / 0.0 then none else some (.float value)

/-- The fraction of a double, empty if there is no point. -/
def readFraction? : List Char → Option (List Nat × List Char)
  | '.' :: rest => readDigits? 10 rest
  | cs => some ([], cs)

/-- The exponent of a double, zero if there is none. -/
def readPower? (cs : List Char) : Option (Int × List Char) :=
  match cs with
  | c :: rest =>
    if c == 'e' || c == 'E' then do
      let (down, rest) := readSign rest
      let (digits, rest) ← readDigits? 10 rest
      let size : Int := valueOf 10 digits
      return (if down then -size else size, rest)
    else some (0, cs)
  | [] => some (0, [])

/-- A number with a decimal integer part, behind its sign. -/
def readDecimal? (negative : Bool) (cs : List Char) : Option (Data × List Char) := do
  let (whole, behind) ← readWhole? cs
  match behind with
  | c :: _ =>
    if c == '.' || c == 'e' || c == 'E' then do
      let (fraction, rest) ← readFraction? behind
      let (power, rest) ← readPower? rest
      let value ← double? negative (whole ++ fraction) fraction.length power
      return (value, rest)
    else do
      let size : Int := valueOf 10 whole
      let value ← wholeNumber? (if negative then -size else size)
      return (value, behind)
  | [] => do
    let size : Int := valueOf 10 whole
    let value ← wholeNumber? (if negative then -size else size)
    return (value, behind)

/-- A whole number in a base that is not ten, behind its mark. -/
def readBased? (base : Nat) (cs : List Char) : Option (Data × List Char) := do
  let (digits, rest) ← readDigits? base cs
  let value ← wholeNumber? (valueOf base digits)
  return (value, rest)

/-- A number. -/
def readNumber? (cs : List Char) : Option (Data × List Char) :=
  match cs with
  | '0' :: 'x' :: rest => readBased? 16 rest
  | '0' :: 'o' :: rest => readBased? 8 rest
  | '0' :: 'b' :: rest => readBased? 2 rest
  | _ =>
    let (negative, rest) := readSign cs
    match rest with
    | 'i' :: 'n' :: 'f' :: rest =>
      some (.float (if negative then -(1.0 / 0.0) else 1.0 / 0.0), rest)
    | 'n' :: 'a' :: 'n' :: rest => some (.float (0.0 / 0.0), rest)
    | _ => readDecimal? negative rest

/-- A number of given width between two bounds. -/
def readField? (width low high : Nat) (cs : List Char) : Option (Nat × List Char) :=
  let digits := cs.take width
  let value := digits.foldl (fun n c => n * 10 + (c.toNat - 48)) 0
  if digits.length == width && digits.all Char.isDigit && low ≤ value && value ≤ high then
    some (value, cs.drop width)
  else none

/-- Splits off a character. -/
def expect? (mark : Char) : List Char → Option (List Char)
  | c :: rest => if c == mark then some rest else none
  | [] => none

/-- Passes a time of day. -/
def passTime? (cs : List Char) : Option (List Char) := do
  let (_, rest) ← readField? 2 0 23 cs
  let rest ← expect? ':' rest
  let (_, rest) ← readField? 2 0 59 rest
  let rest ← expect? ':' rest
  let (_, rest) ← readField? 2 0 60 rest
  match rest with
  | '.' :: fraction =>
    if fraction.head?.any Char.isDigit then some (fraction.dropWhile Char.isDigit) else none
  | _ => some rest

/-- Passes a distance from universal time, if there is one. -/
def passOffset (cs : List Char) : List Char :=
  match cs with
  | 'Z' :: rest => rest
  | 'z' :: rest => rest
  | sign :: rest =>
    if sign == '+' || sign == '-' then
      let passed := do
        let (_, rest) ← readField? 2 0 23 rest
        let rest ← expect? ':' rest
        let (_, rest) ← readField? 2 0 59 rest
        return rest
      passed.getD cs
    else cs
  | [] => []

/-- The length of a month in a year. -/
def monthLength (year month : Nat) : Nat :=
  if month == 2 then
    (if year % 4 == 0 && (year % 100 != 0 || year % 400 == 0) then 29 else 28)
  else if [4, 6, 9, 11].contains month then 30
  else 31

/-- Passes a date, and the time of day behind it. -/
def passDate? (cs : List Char) : Option (List Char) := do
  let (year, rest) ← readField? 4 0 9999 cs
  let rest ← expect? '-' rest
  let (month, rest) ← readField? 2 1 12 rest
  let rest ← expect? '-' rest
  let (_, rest) ← readField? 2 1 (monthLength year month) rest
  match rest with
  | c :: time =>
    if c == 'T' || c == 't' || c == ' ' then
      match passTime? time with
      | some rest => some (passOffset rest)
      | none => some rest
    else some rest
  | [] => some []

/-- A date or time. -/
def readMoment? (cs : List Char) : Option (Data × List Char) :=
  ((passDate? cs).orElse fun _ => passTime? cs).map fun rest => (.record [], rest)

/-- A value that has no parts. -/
def readScalar? (cs : List Char) : Option (Data × List Char) :=
  match cs with
  | 't' :: 'r' :: 'u' :: 'e' :: rest => some (.bool true, rest)
  | 'f' :: 'a' :: 'l' :: 's' :: 'e' :: rest => some (.bool false, rest)
  | c :: _ =>
    if c == '"' || c == '\'' then (readText? cs).map fun (text, rest) => (.text text, rest)
    else (readMoment? cs).orElse fun _ => readNumber? cs
  | [] => none

end HedgedForecast.Toml
