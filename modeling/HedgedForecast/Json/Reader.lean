import HedgedForecast.Json.Numeral
import HedgedForecast.Text.Hex

/-! # Reading the interchange notation

The grammar is strict: no comments, no trailing commas, no leading zeros, no bare controls in texts.
A text with half of a surrogate pair, or a number beyond all doubles, is well formed but unreadable:
a reader that has no use for the field does not notice.
-/

namespace HedgedForecast.Json

/-- Blank between tokens. -/
def isSpace (c : Char) : Bool :=
  c == ' ' || c == '\t' || c == '\n' || c == '\r'

/-- The text behind blanks. -/
def skipSpace (cs : List Char) : List Char :=
  cs.dropWhile isSpace

/-- Splits off a run of digits, as values. -/
def takeDigits (cs : List Char) : List Nat × List Char :=
  ((cs.takeWhile Char.isDigit).map fun c => c.toNat - 48, cs.dropWhile Char.isDigit)

/-- Digits behind a point, of which there must be one. -/
def readFraction? : List Char → Option (Option (List Nat) × List Char)
  | '.' :: cs =>
    match takeDigits cs with
    | ([], _) => none
    | (digits, rest) => some (some digits, rest)
  | cs => some (none, cs)

/-- The sign in front of an exponent's digits; true for a negative one. -/
def readSign : List Char → Bool × List Char
  | '+' :: cs => (false, cs)
  | '-' :: cs => (true, cs)
  | cs => (false, cs)

/-- An exponent, which must have a digit. -/
def readExponent? : List Char → Option (Option (Bool × List Nat) × List Char)
  | c :: cs =>
    if c == 'e' || c == 'E' then
      let (down, digits) := readSign cs
      match takeDigits digits with
      | ([], _) => none
      | (digits, rest) => some (some (down, digits), rest)
    else some (none, c :: cs)
  | [] => some (none, [])

/-- A number; a leading zero stands alone. -/
def readNumber? (cs : List Char) : Option (Data × List Char) := do
  let (negative, cs) := match cs with
    | '-' :: rest => (true, rest)
    | _ => (false, cs)
  let (whole, rest) ← match takeDigits cs with
    | ([], _) => none
    | (0 :: _ :: _, _) => none
    | (digits, rest) => some (digits, rest)
  let (fraction, rest) ← readFraction? rest
  let (exponent, rest) ← readExponent? rest
  return ((Numeral.mk negative whole fraction exponent).toData, rest)

/-- Four hexadecimal digits. -/
def readUnit? : List Char → Option (Nat × List Char)
  | a :: b :: c :: d :: rest => do
    let a ← Text.hexValue? a
    let b ← Text.hexValue? b
    let c ← Text.hexValue? c
    let d ← Text.hexValue? d
    return (((a * 16 + b) * 16 + c) * 16 + d, rest)
  | _ => none

/-- The character of an escape with one letter. -/
def shortEscape? : Char → Option Char
  | '"' => some '"'
  | '\\' => some '\\'
  | '/' => some '/'
  | 'b' => some '\x08'
  | 'f' => some '\x0c'
  | 'n' => some '\n'
  | 'r' => some '\r'
  | 't' => some '\t'
  | _ => none

/-- The second half of a surrogate pair that follows as an escape. -/
def lowSurrogate? : List Char → Option (Nat × List Char)
  | '\\' :: 'u' :: rest => do
    let (unit, rest) ← readUnit? rest
    if 0xDC00 ≤ unit && unit ≤ 0xDFFF then some (unit, rest) else none
  | _ => none

/-- The rest of a text behind its opening quote. The characters so far come in reverse; nothing in
their place says that the text has half of a surrogate pair. -/
def readText? : Nat → List Char → Option (List Char) → Option (Option String × List Char)
  | 0, _, _ => none
  | _ + 1, [], _ => none
  | fuel + 1, c :: cs, sofar =>
    if c == '"' then some (sofar.map fun cs => String.ofList cs.reverse, cs)
    else if c == '\\' then
      match cs with
      | 'u' :: cs => do
        let (unit, rest) ← readUnit? cs
        if 0xD800 ≤ unit && unit ≤ 0xDBFF then
          match lowSurrogate? rest with
          | some (low, rest) =>
            let code := (unit - 0xD800) * 0x400 + (low - 0xDC00) + 0x10000
            readText? fuel rest (sofar.map (Char.ofNat code :: ·))
          | none => readText? fuel rest none
        else if 0xDC00 ≤ unit && unit ≤ 0xDFFF then readText? fuel rest none
        else readText? fuel rest (sofar.map (Char.ofNat unit :: ·))
      | e :: cs => do
        let plain ← shortEscape? e
        readText? fuel cs (sofar.map (plain :: ·))
      | [] => none
    else if c.toNat < 32 then none
    else readText? fuel cs (sofar.map (c :: ·))

mutual

/-- One value and what follows it. -/
def readValue? : Nat → List Char → Option (Data × List Char)
  | 0, _ => none
  | fuel + 1, cs =>
    match skipSpace cs with
    | 'n' :: 'u' :: 'l' :: 'l' :: rest => some (.null, rest)
    | 't' :: 'r' :: 'u' :: 'e' :: rest => some (.bool true, rest)
    | 'f' :: 'a' :: 'l' :: 's' :: 'e' :: rest => some (.bool false, rest)
    | '"' :: rest =>
      match readText? (rest.length + 1) rest (some []) with
      | some (some value, rest) => some (.text value, rest)
      | some (none, rest) => some (.unreadable, rest)
      | none => none
    | '[' :: rest =>
      match skipSpace rest with
      | ']' :: rest => some (.list [], rest)
      | rest => readItems? fuel rest []
    | '\x7b' :: rest =>
      match skipSpace rest with
      | '\x7d' :: rest => some (.record [], rest)
      | rest => readMembers? fuel rest []
    | rest => readNumber? rest

/-- The items of a list up to its end; those before come in reverse. -/
def readItems? : Nat → List Char → List Data → Option (Data × List Char)
  | 0, _, _ => none
  | fuel + 1, cs, sofar =>
    match readValue? fuel cs with
    | none => none
    | some (item, rest) =>
      match skipSpace rest with
      | ',' :: rest => readItems? fuel rest (item :: sofar)
      | ']' :: rest => some (.list (item :: sofar).reverse, rest)
      | _ => none

/-- The members of a record up to its end; those before come in reverse. -/
def readMembers? : Nat → List Char → List (String × Data) → Option (Data × List Char)
  | 0, _, _ => none
  | fuel + 1, cs, sofar =>
    match skipSpace cs with
    | '"' :: rest =>
      match readText? (rest.length + 1) rest (some []) with
      | some (some name, rest) =>
        match skipSpace rest with
        | ':' :: rest =>
          match readValue? fuel rest with
          | none => none
          | some (value, rest) =>
            match skipSpace rest with
            | ',' :: rest => readMembers? fuel rest ((name, value) :: sofar)
            | '\x7d' :: rest => some (.record ((name, value) :: sofar).reverse, rest)
            | _ => none
        | _ => none
      | _ => none
    | _ => none

end

/-- Reads a text that holds one value and blanks around it. -/
def read? (s : String) : Option Data :=
  let cs := s.toList
  match readValue? (2 * cs.length + 2) cs with
  | some (value, rest) => if (skipSpace rest).isEmpty then some value else none
  | none => none

end HedgedForecast.Json
