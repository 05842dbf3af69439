import HedgedForecast.Data.Basic

/-! # Numbers of the interchange notation

A numeral without fraction and exponent is a whole number if it fits 64 bits. Any other is a double,
obtained by one scaling: the digits are gathered into a 64-bit significand, digits that no longer
fit are dropped, and the significand is multiplied or divided by a power of ten. The result may
differ in its last place from the double nearest to the numeral.
-/

namespace HedgedForecast.Json

/-- A numeral taken apart; digits are values below ten, most significant first. -/
structure Numeral where
  negative : Bool
  whole : List Nat
  fraction : Option (List Nat)
  /-- The sign and the digits of the exponent; the sign is true for a negative one. -/
  exponent : Option (Bool × List Nat)

/-- The largest significand. -/
def significandLimit : Nat := Nat.pow 2 64 - 1

/-- The largest exponent that a numeral may spell out. -/
def exponentLimit : Nat := Nat.pow 2 31 - 1

/-- Digits in front of the point: those that fit, and how many were left out. -/
def gatherWhole : Nat → List Nat → Nat × Nat
  | significand, [] => (significand, 0)
  | significand, d :: rest =>
    if significandLimit < significand * 10 + d then (significand, rest.length + 1)
    else gatherWhole (significand * 10 + d) rest

/-- Digits after the point: those that fit, and how many they are. -/
def gatherFraction : Nat → Nat → List Nat → Nat × Nat
  | significand, taken, [] => (significand, taken)
  | significand, taken, d :: rest =>
    if significandLimit < significand * 10 + d then (significand, taken)
    else gatherFraction (significand * 10 + d) (taken + 1) rest

/-- The exponent's magnitude, if it is within the limit. -/
def exponentMagnitude? (digits : List Nat) : Option Nat :=
  digits.foldlM (fun magnitude d =>
    if exponentLimit < magnitude * 10 + d then none else some (magnitude * 10 + d)) 0

/-- The double nearest to a power of ten. -/
def powerOfTen (n : Nat) : Float :=
  Float.ofScientific 1 false n

/-- Scales a double by powers of ten of at most 308; nothing if it would grow beyond all doubles. -/
def scale? : Nat → Float → Int → Option Float
  | 0, x, _ => some x
  | fuel + 1, x, exponent =>
    if exponent.natAbs ≤ 308 then
      if 0 ≤ exponent then
        let scaled := x * powerOfTen exponent.natAbs
        if scaled.isInf then none else some scaled
      else some (x / powerOfTen exponent.natAbs)
    else if x == 0.0 then some x
    else if 0 ≤ exponent then none
    else scale? fuel (x / powerOfTen 308) (exponent + 308)

/-- Gives a magnitude its sign. -/
def applySign (negative : Bool) (x : Float) : Float :=
  if negative then -x else x

/-- The double of a significand and an exponent. -/
def scaled (negative : Bool) (significand : Nat) (exponent : Int) : Data :=
  match scale? (exponent.natAbs / 308 + 2) (Float.ofScientific significand false 0) exponent with
  | some x => .float (applySign negative x)
  | none => .unreadable

/-- What the numeral stands for. -/
def Numeral.toData (numeral : Numeral) : Data :=
  let (front, surplus) := gatherWhole 0 numeral.whole
  let (significand, taken) := match numeral.fraction with
    | none => (front, 0)
    | some digits => gatherFraction front 0 digits
  let start : Int := (surplus : Int) - taken
  match numeral.exponent with
  | some (down, digits) =>
    match exponentMagnitude? digits with
    | some magnitude =>
      scaled numeral.negative significand (if down then start - magnitude else start + magnitude)
    | none =>
      if significand != 0 && !down then .unreadable else .float (applySign numeral.negative 0.0)
  | none =>
    if numeral.fraction.isSome || surplus != 0 then scaled numeral.negative significand start
    else if !numeral.negative then .int significand
    else if significand == 0 || Nat.pow 2 63 < significand then
      .float (-Float.ofScientific significand false 0)
    else .int (-significand)

end HedgedForecast.Json
