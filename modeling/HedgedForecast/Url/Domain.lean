import HedgedForecast.Text.Quoted
import HedgedForecast.Text.Upper
import HedgedForecast.Url.Punycode

/-! # Domain names

The ASCII form of a domain name. Capital letters are lowered, wide forms are narrowed and invisible
characters dropped; a label that still has characters beyond ASCII is encoded. A name with a
character that no domain may hold has no ASCII form.
-/

namespace HedgedForecast.Url

/-- ASCII characters that a domain may not hold. -/
def isForbiddenInDomain (c : Char) : Bool :=
  c.toNat ≤ 32 || c.toNat == 127 ||
    ['%', '"', '#', '/', ':', '<', '>', '?', '@', '[', '\\', ']', '^', '`', '\x7b', '|',
      '\x7d'].contains c

/-- The small letter whose capital form is this single character. -/
def smallLetter (n : Nat) : Nat :=
  match Text.caseRuns.find? fun run => run.covers ((n : Int) - run.offset).toNat with
  | some run => ((n : Int) - run.offset).toNat
  | none => n

/-- Characters that leave no trace in a domain name. -/
def isIgnoredInDomain (n : Nat) : Bool :=
  n == 0xAD || n == 0x34F || (0x180B ≤ n && n ≤ 0x180F) || n == 0x200B || n == 0x2060 ||
    n == 0x2064 || (0xFE00 ≤ n && n ≤ 0xFE0F) || n == 0xFEFF || (0xE0100 ≤ n && n ≤ 0xE01EF)

/-- Marks that combine with the letter before them, in the blocks set aside for such marks. -/
def isCombining (n : Nat) : Bool :=
  (0x300 ≤ n && n ≤ 0x36F) || (0x1AB0 ≤ n && n ≤ 0x1AFF) || (0x1DC0 ≤ n && n ≤ 0x1DFF) ||
    (0x20D0 ≤ n && n ≤ 0x20FF) || (0xFE20 ≤ n && n ≤ 0xFE2F)

/-- What a character becomes in a domain name; nothing if it may not stand there. -/
def mapDomainChar? (c : Char) : Option (List Char) :=
  let n := c.toNat
  if n < 128 then some [c.toLower]
  else if isIgnoredInDomain n then some []
  else if n == 0x3002 || n == 0xFF0E || n == 0xFF61 then some ['.']
  else if 0xFF01 ≤ n && n ≤ 0xFF5E then some [(Char.ofNat (n - 0xFEE0)).toLower]
  else if n == 0x1E9E then some ['s', 's']
  else if isCombining n then some [c]
  else if Text.isNumbered c || n == 0xFFFD then none
  else some [Char.ofNat (smallLetter n)]

/-- Cuts a name into its labels. -/
def labelsOf (cs : List Char) : List (List Char) :=
  cs.splitOn '.'

/-- Whether a decoded label is one that encoding could have produced. -/
def isEncodable (label : List Char) : Bool :=
  label.any (128 ≤ ·.toNat) && !(label.head?.any fun c => isCombining c.toNat) &&
    label.all fun c => mapDomainChar? c == some [c]

/-- The ASCII form of one mapped label. -/
def asciiLabel? (label : List Char) : Option (List Char) :=
  match label with
  | 'x' :: 'n' :: '-' :: '-' :: encoded => do
    let decoded ← Punycode.decode? encoded
    if isEncodable decoded && Punycode.encode decoded == encoded then some label else none
  | _ =>
    if label.all (·.toNat < 128) then some label
    else if label.head?.any fun c => isCombining c.toNat then none
    else some (['x', 'n', '-', '-'] ++ Punycode.encode label)

/-- The ASCII form of a domain name. -/
def asciiDomain? (cs : List Char) : Option (List Char) := do
  let mapped ← cs.mapM mapDomainChar?
  let labels ← (labelsOf mapped.flatten).mapM asciiLabel?
  let name := ['.'].intercalate labels
  if name.any isForbiddenInDomain then none else some name

end HedgedForecast.Url
