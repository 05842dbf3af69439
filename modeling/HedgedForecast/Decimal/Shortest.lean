/-! # Shortest decimal digits of a double

A double is written with the fewest decimal digits that read back as the same double; of the
decimals with that many digits, the nearest. The choice is made in exact integer arithmetic on the
significand and the exponent that the bits hold.
-/

namespace HedgedForecast.Decimal

/-- What the bits of a double stand for. -/
inductive Reading where
  | nan
  | infinite (negative : Bool)
  /-- The number `± significand * 2 ^ exponent`; `lowest` marks the first double of a binade. -/
  | finite (negative : Bool) (significand : Nat) (exponent : Int) (lowest : Bool)
  deriving Repr, DecidableEq

/-- Decodes the bits of a double. -/
def read (x : Float) : Reading :=
  let bits := x.toBits.toNat
  let negative := bits / Nat.pow 2 63 == 1
  let field : Nat := bits / Nat.pow 2 52 % Nat.pow 2 11
  let fraction := bits % Nat.pow 2 52
  if field == 2047 then (if fraction == 0 then .infinite negative else .nan)
  else if field == 0 then .finite negative fraction (-1074) false
  else .finite negative (fraction + Nat.pow 2 52) ((field : Int) - 1075) (fraction == 0 && 1 < field)

/-- The decimal number `digits * 10 ^ exponent`. -/
structure Digits where
  digits : Nat
  exponent : Int
  deriving Repr, DecidableEq

/-- Moves trailing zeros of the digits into the exponent. -/
def stripZeros : Nat → Digits → Digits
  | 0, d => d
  | fuel + 1, d =>
    if d.digits != 0 && d.digits % 10 == 0 then
      stripZeros fuel ⟨d.digits / 10, d.exponent + 1⟩
    else d

/-- A positive quotient together with the interval of reals that round to it. -/
structure Rounding where
  low : Nat
  value : Nat
  high : Nat
  denominator : Nat
  /-- Whether the ends of the interval round to the value as well. -/
  closed : Bool

/-- The interval of the double `significand * 2 ^ exponent`, in quarters of its last place. -/
def Rounding.ofBinary (significand : Nat) (exponent : Int) (lowest : Bool) : Rounding :=
  let quarter := exponent - 2
  let scale := Nat.pow 2 quarter.toNat
  { low := (4 * significand - (if lowest then 1 else 2)) * scale
    value := 4 * significand * scale
    high := (4 * significand + 2) * scale
    denominator := Nat.pow 2 (-quarter).toNat
    closed := significand % 2 == 0 }

/-- The least `shift ≥ start` with `value * 10 ^ shift ≥ denominator`, if the fuel reaches it. -/
def leastShift (value denominator : Nat) : Nat → Nat → Nat
  | 0, start => start
  | fuel + 1, start =>
    if denominator ≤ value * Nat.pow 10 start then start
    else leastShift value denominator fuel (start + 1)

/-- The number of digits before the point, at most zero for quotients below one. -/
def Rounding.magnitude (r : Rounding) : Int :=
  if r.denominator ≤ r.value then (Nat.toDigits 10 (r.value / r.denominator)).length
  else 1 - (leastShift r.value r.denominator 400 1 : Int)

/-- Whether `digits * 10 ^ exponent` rounds to the value. -/
def Rounding.admits (r : Rounding) (d : Digits) : Bool :=
  let left := d.digits * Nat.pow 10 d.exponent.toNat * r.denominator
  let scale := Nat.pow 10 (-d.exponent).toNat
  if r.closed then r.low * scale ≤ left && left ≤ r.high * scale
  else r.low * scale < left && left < r.high * scale

/-- Whether the value is at most halfway from `d` to the next decimal with its exponent. -/
def Rounding.nearerBelow (r : Rounding) (d : Digits) : Bool :=
  2 * r.value * Nat.pow 10 (-d.exponent).toNat ≤
    (2 * d.digits + 1) * Nat.pow 10 d.exponent.toNat * r.denominator

/-- The last multiple of `10 ^ exponent` that is not above the value. -/
def Rounding.below (r : Rounding) (exponent : Int) : Digits :=
  ⟨r.value * Nat.pow 10 (-exponent).toNat / (Nat.pow 10 exponent.toNat * r.denominator), exponent⟩

/-- The nearest decimal on the grid of multiples of `10 ^ exponent` that rounds to the value. -/
def Rounding.onGrid? (r : Rounding) (exponent : Int) : Option Digits :=
  let below := r.below exponent
  let above : Digits := ⟨below.digits + 1, exponent⟩
  match r.admits below, r.admits above with
  | true, true => some (if r.nearerBelow below then below else above)
  | true, false => some below
  | false, true => some above
  | false, false => none

/-- The first grid, from coarse to fine, on which a decimal rounds to the value. -/
def Rounding.search (r : Rounding) : Nat → Int → Digits
  | 0, exponent => r.below exponent
  | fuel + 1, exponent =>
    match r.onGrid? exponent with
    | some d => d
    | none => r.search fuel (exponent - 1)

/-- The shortest digits of `significand * 2 ^ exponent`. -/
def shortest (significand : Nat) (exponent : Int) (lowest : Bool) : Digits :=
  if significand == 0 then ⟨0, 0⟩
  else
    let r := Rounding.ofBinary significand exponent lowest
    stripZeros 400 (r.search 17 (r.magnitude - 1))

end HedgedForecast.Decimal
