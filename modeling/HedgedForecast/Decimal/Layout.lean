import HedgedForecast.Decimal.Shortest

/-! # Layouts of a decimal number

Three layouts of the same shortest digits. Data interchange keeps a point in every number and
switches to an exponent outside a fixed window; messages and addresses are positional and drop an
empty fraction; settings files are positional and keep it.
-/

namespace HedgedForecast.Decimal

/-- The decimal digits of a natural number. -/
def natDigits (n : Nat) : List Char :=
  Nat.toDigits 10 n

/-- The decimal digits of an integer, with a sign if it is negative. -/
def intText (n : Int) : String :=
  if n < 0 then "-" ++ String.ofList (natDigits n.natAbs) else String.ofList (natDigits n.natAbs)

/-- Positional digits: the integer part and the fraction, the latter possibly empty. -/
def positional (d : Digits) : List Char × List Char :=
  let ds := natDigits d.digits
  if 0 ≤ d.exponent then (ds ++ List.replicate d.exponent.toNat '0', [])
  else
    let places := (-d.exponent).toNat
    if places < ds.length then (ds.take (ds.length - places), ds.drop (ds.length - places))
    else (['0'], List.replicate (places - ds.length) '0' ++ ds)

/-- Positional text in which a whole number ends with the given fraction. -/
def positionalText (d : Digits) (whole : String) : String :=
  match positional d with
  | (front, []) => String.ofList front ++ whole
  | (front, fraction) => String.ofList front ++ "." ++ String.ofList fraction

/-- One digit, a point if more follow, and the power of ten with its sign. -/
def scientificText (d : Digits) : String :=
  let ds := natDigits d.digits
  let power : Int := ds.length - 1 + d.exponent
  let mantissa := match ds with
    | [] => ""
    | [one] => one.toString
    | first :: rest => first.toString ++ "." ++ String.ofList rest
  mantissa ++ "e" ++ (if power < 0 then "-" else "+") ++ String.ofList (natDigits power.natAbs)

/-- Writes the sign and then the magnitude. -/
def signed (negative : Bool) (magnitude : String) : String :=
  if negative then "-" ++ magnitude else magnitude

/-- The text in messages and addresses: positional, no fraction for a whole number. -/
def plain (x : Float) : String :=
  match read x with
  | .nan => "NaN"
  | .infinite negative => signed negative "inf"
  | .finite negative significand exponent lowest =>
    signed negative (positionalText (shortest significand exponent lowest) "")

/-- The text in settings files: positional, a whole number ends in `.0`. -/
def setting (x : Float) : String :=
  match read x with
  | .nan => "nan"
  | .infinite negative => signed negative "inf"
  | .finite negative significand exponent lowest =>
    signed negative (positionalText (shortest significand exponent lowest) ".0")

/-- The text in data interchange: an exponent is used from `10 ^ 16` on and below `10 ^ -5`;
numbers that are not finite have none. -/
def interchange? (x : Float) : Option String :=
  match read x with
  | .nan => none
  | .infinite _ => none
  | .finite negative significand exponent lowest =>
    let d := shortest significand exponent lowest
    let point : Int := (natDigits d.digits).length + d.exponent
    if d.digits == 0 || (-5 < point && point ≤ 16) then
      some (signed negative (positionalText d ".0"))
    else some (signed negative (scientificText d))

end HedgedForecast.Decimal
