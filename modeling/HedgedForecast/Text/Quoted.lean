import HedgedForecast.Text.Hex
import HedgedForecast.Text.Quoted.Table

/-! # Text in quotes, for messages

Messages show a text from outside between double quotes. Quote, backslash and the usual controls
have short escapes; a character that would not be seen, or would attach to its neighbour, is
written by its number in braces; all else stands for itself.
-/

namespace HedgedForecast.Text

/-- Whether quoted text writes the character by its number. -/
def isNumbered (c : Char) : Bool :=
  let n := c.toNat
  if 32 ≤ n && n < 127 then false
  else numberedRanges.any fun (first, last) => first ≤ n && n ≤ last

/-- How one character stands in quoted text. -/
def quoteChar (c : Char) : String :=
  if c == '\x00' then "\\0"
  else if c == '\t' then "\\t"
  else if c == '\n' then "\\n"
  else if c == '\r' then "\\r"
  else if c == '"' then "\\\""
  else if c == '\\' then "\\\\"
  else if isNumbered c then "\\u\x7b" ++ hexLower 1 c.toNat ++ "\x7d"
  else c.toString

/-- The text between double quotes. -/
def quote (s : String) : String :=
  "\"" ++ String.join (s.toList.map quoteChar) ++ "\""

end HedgedForecast.Text
