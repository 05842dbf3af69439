import HedgedForecast.Data.Basic
import HedgedForecast.Decimal.Layout
import HedgedForecast.Text.Hex

/-! # Writing the interchange notation

Compact text has no blanks; indented text puts each item on a line of its own, two blanks deeper
than its list. Only quote, backslash and controls are escaped. A double that is not finite is
written as null.
-/

namespace HedgedForecast.Json

/-- How one character stands in a text. -/
def escapeChar (c : Char) : String :=
  if c == '"' then "\\\""
  else if c == '\\' then "\\\\"
  else if c == '\x08' then "\\b"
  else if c == '\x0c' then "\\f"
  else if c == '\n' then "\\n"
  else if c == '\r' then "\\r"
  else if c == '\t' then "\\t"
  else if c.toNat < 32 then "\\u" ++ Text.hexLower 4 c.toNat
  else c.toString

/-- A text in quotes. -/
def writeText (s : String) : String :=
  "\"" ++ String.join (s.toList.map escapeChar) ++ "\""

/-- A double, or null. -/
def writeFloat (x : Float) : String :=
  (Decimal.interchange? x).getD "null"

mutual

/-- Compact text. -/
def write : Data → String
  | .null => "null"
  | .unreadable => "null"
  | .bool true => "true"
  | .bool false => "false"
  | .int value => Decimal.intText value
  | .float value => writeFloat value
  | .text value => writeText value
  | .list items => "[" ++ writeItems items ++ "]"
  | .record fields => "\x7b" ++ writeFields fields ++ "\x7d"

/-- Items with commas between them. -/
def writeItems : List Data → String
  | [] => ""
  | [item] => write item
  | item :: rest => write item ++ "," ++ writeItems rest

/-- Fields with commas between them. -/
def writeFields : List (String × Data) → String
  | [] => ""
  | [(name, value)] => writeText name ++ ":" ++ write value
  | (name, value) :: rest => writeText name ++ ":" ++ write value ++ "," ++ writeFields rest

end

/-- A new line at the given depth. -/
def indent (depth : Nat) : String :=
  "\n" ++ String.ofList (List.replicate (2 * depth) ' ')

mutual

/-- Indented text, for a value that stands at the given depth. -/
def writeIndented : Nat → Data → String
  | _, .list [] => "[]"
  | depth, .list items => "[" ++ indentedItems (depth + 1) items ++ indent depth ++ "]"
  | _, .record [] => "\x7b\x7d"
  | depth, .record fields => "\x7b" ++ indentedFields (depth + 1) fields ++ indent depth ++ "\x7d"
  | _, data => write data

/-- Items, each on its line. -/
def indentedItems : Nat → List Data → String
  | _, [] => ""
  | depth, [item] => indent depth ++ writeIndented depth item
  | depth, item :: rest =>
    indent depth ++ writeIndented depth item ++ "," ++ indentedItems depth rest

/-- Fields, each on its line. -/
def indentedFields : Nat → List (String × Data) → String
  | _, [] => ""
  | depth, [(name, value)] =>
    indent depth ++ writeText name ++ ": " ++ writeIndented depth value
  | depth, (name, value) :: rest =>
    indent depth ++ writeText name ++ ": " ++ writeIndented depth value ++ "," ++
      indentedFields depth rest

end

end HedgedForecast.Json
