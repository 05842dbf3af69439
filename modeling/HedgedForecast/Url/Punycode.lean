/-! # Domain labels in ASCII

A label beyond ASCII is written as its ASCII characters followed by the positions and numbers of
all others, as a sequence of differences in a number system with adapting digit weights.
-/

namespace HedgedForecast.Url.Punycode

/-- The character of a digit below 36. -/
def digitChar (digit : Nat) : Char :=
  if digit < 26 then Char.ofNat (97 + digit) else Char.ofNat (22 + digit)

/-- The value of a digit. -/
def digitValue? (c : Char) : Option Nat :=
  if c.isLower then some (c.toNat - 97)
  else if c.isUpper then some (c.toNat - 65)
  else if c.isDigit then some (c.toNat - 22)
  else none

/-- The largest final digit at a place, for a bias. -/
def threshold (place bias : Nat) : Nat :=
  min 26 (max 1 (place - bias))

/-- Divides by 35 until the difference is small; counts the places. -/
def settle (delta places : Nat) : Nat :=
  if 455 < delta then settle (delta / 35) (places + 36)
  else places + 36 * delta / (delta + 38)
termination_by delta

/-- The bias after a difference, for the number of characters so far. -/
def adapt (delta count : Nat) (first : Bool) : Nat :=
  let delta := if first then delta / 700 else delta / 2
  settle (delta + delta / count) 0

/-- The digits of a difference. -/
def writeDelta (bias place delta : Nat) : List Char :=
  let t := threshold place bias
  if delta < t then [digitChar delta]
  else
    digitChar (t + (delta - t) % (36 - t)) :: writeDelta bias (place + 36) ((delta - t) / (36 - t))
termination_by delta
decreasing_by
  have positive : 1 ≤ threshold place bias := by unfold threshold; omega
  exact Nat.lt_of_le_of_lt (Nat.div_le_self _ _) (by omega)

/-- Where an encoder stands. -/
structure Encoder where
  written : List Char
  delta : Nat
  bias : Nat
  /-- How many characters are handled. -/
  count : Nat

/-- Passes one character of the label while the characters with number `code` are written. -/
def Encoder.pass (basic code : Nat) (encoder : Encoder) (c : Char) : Encoder :=
  if c.toNat < code then { encoder with delta := encoder.delta + 1 }
  else if c.toNat == code then
    { written := encoder.written ++ writeDelta encoder.bias 36 encoder.delta
      delta := 0
      bias := adapt encoder.delta (encoder.count + 1) (encoder.count == basic)
      count := encoder.count + 1 }
  else encoder

/-- Writes the characters with the given numbers, in ascending order. -/
def Encoder.run (label : List Char) (basic : Nat) : List Nat → Nat → Encoder → Encoder
  | [], _, encoder => encoder
  | code :: codes, next, encoder =>
    let encoder := { encoder with delta := encoder.delta + (code - next) * (encoder.count + 1) }
    let encoder := label.foldl (Encoder.pass basic code) encoder
    Encoder.run label basic codes (code + 1) { encoder with delta := encoder.delta + 1 }

/-- The ASCII form of a label, without its mark in front. -/
def encode (label : List Char) : List Char :=
  let basic := label.filter fun c => c.toNat < 128
  let codes := ((label.map Char.toNat).filter (128 ≤ ·)).mergeSort.eraseDups
  let encoder := Encoder.run label basic.length codes 128 ⟨[], 0, 72, basic.length⟩
  (if basic.isEmpty then [] else basic ++ ['-']) ++ encoder.written

/-- Where a decoder stands. -/
structure Decoder where
  label : List Char
  /-- The number of the character inserted last. -/
  code : Nat
  /-- The position behind it. -/
  position : Nat
  bias : Nat
  /-- The difference read so far, its next place and the weight of that place. -/
  delta : Nat
  place : Nat
  weight : Nat

/-- Inserts the character that a complete difference tells. -/
def Decoder.insert? (decoder : Decoder) (delta : Nat) : Option Decoder :=
  let count := decoder.label.length + 1
  let total := decoder.position + delta
  let code := decoder.code + total / count
  if code.isValidChar then
    let position := total % count
    some {
      label := decoder.label.take position ++ [Char.ofNat code] ++ decoder.label.drop position
      code := code
      position := position + 1
      bias := adapt delta count (decoder.position == 0 && decoder.code == 128)
      delta := 0
      place := 36
      weight := 1 }
  else none

/-- Takes a digit into the difference and inserts a character if it was the final one. -/
def Decoder.take? (decoder : Decoder) (digit : Nat) : Option Decoder :=
  let delta := decoder.delta + digit * decoder.weight
  let t := threshold decoder.place decoder.bias
  if Nat.pow 2 32 ≤ delta then none
  else if digit < t then decoder.insert? delta
  else some { decoder with
    delta := delta, place := decoder.place + 36, weight := decoder.weight * (36 - t) }

/-- Reads digits to the end, which must not lie within a difference. -/
def Decoder.run (cs : List Char) (decoder : Decoder) : Option (List Char) :=
  match cs.foldlM (fun decoder c => (digitValue? c).bind decoder.take?) decoder with
  | some decoder => if decoder.place == 36 then some decoder.label else none
  | none => none

/-- Cuts at the last dash; without one, or with one in front, everything is digits. -/
def cutAtLastDash (cs : List Char) : List Char × List Char :=
  let digits := (cs.reverse.takeWhile (· != '-')).reverse
  let front := cs.take (cs.length - digits.length - 1)
  if front.isEmpty then ([], cs) else (front, digits)

/-- The label of an ASCII form. -/
def decode? (cs : List Char) : Option (List Char) :=
  let (basic, digits) := cutAtLastDash cs
  Decoder.run digits ⟨basic, 128, 0, 72, 0, 36, 1⟩

end HedgedForecast.Url.Punycode
