/-! # Hexadecimal digits

Writing numbers with sixteen digits, in either case and with a least width, and reading one digit.
-/

namespace HedgedForecast.Text

/-- The lower-case digits of a number, most significant first, at least one. -/
def hexDigits (n : Nat) : List Char :=
  Nat.toDigits 16 n

/-- Puts zeros in front until the text has the given width. -/
def padZeros (width : Nat) (digits : List Char) : List Char :=
  List.replicate (width - digits.length) '0' ++ digits

/-- Lower-case digits, padded to a width. -/
def hexLower (width n : Nat) : String :=
  String.ofList (padZeros width (hexDigits n))

/-- Upper-case digits, padded to a width. -/
def hexUpper (width n : Nat) : String :=
  String.ofList (padZeros width ((hexDigits n).map Char.toUpper))

/-- The value of a digit of either case. -/
def hexValue? (c : Char) : Option Nat :=
  if '0' ≤ c && c ≤ '9' then some (c.toNat - 48)
  else if 'a' ≤ c && c ≤ 'f' then some (c.toNat - 87)
  else if 'A' ≤ c && c ≤ 'F' then some (c.toNat - 55)
  else none

end HedgedForecast.Text
