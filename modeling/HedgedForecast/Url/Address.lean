import HedgedForecast.Text.Hex

/-! # Numeric addresses

Hosts given by number: four bytes, which may be written in fewer parts and in three bases, or eight
groups of sixteen bits, in which one run of zero groups may be left out.
-/

namespace HedgedForecast.Url

/-- Cuts a text at every occurrence of a character. -/
def splitAtChar (mark : Char) (cs : List Char) : List (List Char) :=
  cs.splitOn mark

/-- The value of digits in a base, if they are all digits of it. -/
def digitsValue? (base : Nat) (cs : List Char) : Option Nat :=
  cs.foldlM (fun n c =>
    match Text.hexValue? c with
    | some digit => if digit < base then some (n * base + digit) else none
    | none => none) 0

/-- One part of a four-byte address: decimal, octal after a zero, hexadecimal after `0x`. -/
def readPart? : List Char → Option Nat
  | [] => none
  | ['0'] => some 0
  | '0' :: 'x' :: digits => digitsValue? 16 digits
  | '0' :: 'X' :: digits => digitsValue? 16 digits
  | '0' :: digits => digitsValue? 8 digits
  | digits => digitsValue? 10 digits

/-- The parts of a dotted name; an empty last part does not count. -/
def dottedParts (cs : List Char) : List (List Char) :=
  let parts := splitAtChar '.' cs
  if parts.getLast? == some [] then parts.dropLast else parts

/-- Whether a host has to be a four-byte address: its last part is a number. -/
def endsInNumber (cs : List Char) : Bool :=
  match (dottedParts cs).getLast? with
  | some last => (!last.isEmpty && last.all Char.isDigit) || (readPart? last).isSome
  | none => false

/-- Joins bytes, most significant first. -/
def joinBytes (bytes : List Nat) : Nat :=
  bytes.foldl (fun n byte => n * 256 + byte) 0

/-- A four-byte address: all parts but the last are bytes, the last fills what is left. -/
def readIPv4? (cs : List Char) : Option Nat := do
  let numbers ← (dottedParts cs).mapM readPart?
  let last ← numbers.getLast?
  let front := numbers.dropLast
  if 3 < front.length || front.any (255 < ·) then none
  else if Nat.pow 256 (4 - front.length) ≤ last then none
  else some (joinBytes front * Nat.pow 256 (4 - front.length) + last)

/-- The four bytes of an address with dots between them. -/
def writeIPv4 (address : Nat) : String :=
  ".".intercalate ([3, 2, 1, 0].map fun place => toString (address / Nat.pow 256 place % 256))

/-- A group of up to four hexadecimal digits. -/
def readGroup? (cs : List Char) : Option Nat :=
  if cs.isEmpty || 4 < cs.length then none else digitsValue? 16 cs

/-- A decimal byte without leading zeros. -/
def readByte? (cs : List Char) : Option Nat :=
  if cs.isEmpty || (1 < cs.length && cs.head? == some '0') || 3 < cs.length then none
  else match digitsValue? 10 cs with
    | some n => if n ≤ 255 then some n else none
    | none => none

/-- The last group, which may stand for two groups in dotted form. -/
def readLastGroup? (cs : List Char) : Option (List Nat) :=
  match splitAtChar '.' cs with
  | [digits] => (readGroup? digits).map ([·])
  | [a, b, c, d] => do
    let a ← readByte? a
    let b ← readByte? b
    let c ← readByte? c
    let d ← readByte? d
    return [a * 256 + b, c * 256 + d]
  | _ => none

/-- Groups with colons between them; only the last may be dotted, and only at the very end. -/
def readGroups? (atEnd : Bool) (cs : List Char) : Option (List Nat) :=
  if cs.isEmpty then some []
  else do
    let parts := splitAtChar ':' cs
    let last ← parts.getLast?
    let front ← parts.dropLast.mapM readGroup?
    let back ← if atEnd then readLastGroup? last else (readGroup? last).map ([·])
    return front ++ back

/-- Cuts a text at the first pair of colons. -/
def splitAtGap : List Char → Option (List Char × List Char)
  | ':' :: ':' :: rest => some ([], rest)
  | c :: rest => (splitAtGap rest).map fun (front, back) => (c :: front, back)
  | [] => none

/-- The eight groups of an address; a pair of colons stands for at least one zero group. -/
def readIPv6? (cs : List Char) : Option (List Nat) :=
  match splitAtGap cs with
  | some (front, back) => do
    let front ← readGroups? false front
    let back ← readGroups? true back
    if front.length + back.length ≤ 7 then
      some (front ++ List.replicate (8 - front.length - back.length) 0 ++ back)
    else none
  | none => do
    let groups ← readGroups? true cs
    if groups.length == 8 then some groups else none

/-- How many zeros a list of groups starts with. -/
def leadingZeros (groups : List Nat) : Nat :=
  (groups.takeWhile (· == 0)).length

/-- Where the longest run of at least two zero groups starts, and its length; of two, the first. -/
def longestZeros (groups : List Nat) : Option (Nat × Nat) :=
  (List.range groups.length).foldl (fun best start =>
    let length := leadingZeros (groups.drop start)
    let longest := match best with
      | some (_, longest) => longest
      | none => 1
    if longest < length then some (start, length) else best) none

/-- Groups in hexadecimal with colons between them. -/
def writeGroups (groups : List Nat) : String :=
  ":".intercalate (groups.map (Text.hexLower 1))

/-- The written form of eight groups. -/
def writeIPv6 (groups : List Nat) : String :=
  match longestZeros groups with
  | some (start, length) =>
    writeGroups (groups.take start) ++ "::" ++ writeGroups (groups.drop (start + length))
  | none => writeGroups groups

end HedgedForecast.Url
