import HedgedForecast.Data.Basic
import HedgedForecast.Decimal.Layout
import HedgedForecast.Text.Hex

/-! # Writing settings files

A table is written as the lines of its values and then the tables in it, each under a header, with
blank lines between sections. A text takes the plainest quotes that hold it. Null fields are left
out; a whole number beyond 64 bits with sign cannot be written.
-/

namespace HedgedForecast.Toml

/-- The kinds of quotes. -/
inductive Quotes where
  | basic
  | literal
  | longBasic
  | longLiteral
  deriving DecidableEq, Repr

/-- Controls that need an escape wherever they stand. -/
def needsEscape (c : Char) : Bool :=
  (c.toNat < 32 && c != '\t' && c != '\n') || c.toNat == 127

/-- The length of the longest run of a character. -/
def longestRun (mark : Char) (cs : List Char) : Nat :=
  (cs.foldl (fun (longest, current) c =>
    let current := if c == mark then current + 1 else 0
    (max longest current, current)) (0, 0)).1

/-- The plainest quotes that hold a text. -/
def quotesFor (cs : List Char) : Quotes :=
  let escapes := cs.any needsEscape
  let backslash := cs.contains '\\'
  let newline := cs.contains '\n'
  if !escapes && !backslash && !cs.contains '"' && !newline then .basic
  else if !escapes && !cs.contains '\'' && !newline then .literal
  else if !escapes && !backslash && longestRun '"' cs ≤ 2 then .longBasic
  else if !escapes && longestRun '\'' cs ≤ 2 then .longLiteral
  else if newline then .longBasic
  else .basic

/-- An escaped character. -/
def escapeChar (c : Char) : String :=
  if c == '\x08' then "\\b"
  else if c == '\t' then "\\t"
  else if c == '\n' then "\\n"
  else if c == '\x0c' then "\\f"
  else if c == '\r' then "\\r"
  else if c == '"' then "\\\""
  else if c == '\\' then "\\\\"
  else if needsEscape c then "\\u" ++ Text.hexUpper 4 c.toNat
  else c.toString

/-- The characters of a text within one line of double quotes. -/
def escapeLine (cs : List Char) : String :=
  String.join (cs.map escapeChar)

/-- The characters of a text in tripled double quotes: line breaks stand for themselves, and so do
quotes unless they are third in a row. The number counts the quotes just before. -/
def escapeLong : Nat → List Char → String
  | _, [] => ""
  | run, c :: rest =>
    if c == '\n' then "\n" ++ escapeLong 0 rest
    else if c == '"' then
      if run == 2 then "\\\"" ++ escapeLong 0 rest else "\"" ++ escapeLong (run + 1) rest
    else escapeChar c ++ escapeLong 0 rest

/-- A text in quotes. -/
def writeText (s : String) : String :=
  let cs := s.toList
  let lead := if cs.contains '\n' then "\n" else ""
  match quotesFor cs with
  | .basic => "\"" ++ escapeLine cs ++ "\""
  | .literal => "'" ++ s ++ "'"
  | .longBasic => "\"\"\"" ++ lead ++ escapeLong 0 cs ++ "\"\"\""
  | .longLiteral => "'''" ++ lead ++ s ++ "'''"

/-- A list on one line if it has at most one item, otherwise with a line for each. -/
def writeList : List String → String
  | [] => "[]"
  | [item] => "[" ++ item ++ "]"
  | items => "[\n" ++ String.join (items.map fun item => "    " ++ item ++ ",\n") ++ "]"

mutual

/-- A value that stands behind a key; nothing for one that cannot be written. -/
def writeValue? : Data → Option String
  | .bool true => some "true"
  | .bool false => some "false"
  | .int value =>
    if -Int.pow 2 63 ≤ value && value < Int.pow 2 63 then some (Decimal.intText value) else none
  | .float value => some (Decimal.setting value)
  | .text value => some (writeText value)
  | .list items => (writeItems? items).map writeList
  | _ => none

/-- The items of a list. -/
def writeItems? : List Data → Option (List String)
  | [] => some []
  | item :: rest =>
    match writeValue? item, writeItems? rest with
    | some item, some rest => some (item :: rest)
    | _, _ => none

end

/-- Whether the data is a table of its own. -/
def isTable : Data → Bool
  | .record _ => true
  | _ => false

/-- The line of a field, empty if the field is null or a table. -/
def writeLine? (name : String) : Data → Option String
  | .null => some ""
  | .record _ => some ""
  | data => (writeValue? data).map fun value => name ++ " = " ++ value ++ "\n"

/-- The lines of a table's values. -/
def writeLines? (fields : List (String × Data)) : Option String :=
  (fields.mapM fun (name, data) => writeLine? name data).map String.join

/-- Joins sections with blank lines; empty ones do not count. -/
def joinSections (sections : List String) : String :=
  "\n".intercalate (sections.filter (· != ""))

mutual

/-- The section of a table with the given path, and the sections of the tables in it. A table
without values of its own, but with tables in it, has no header. -/
def writeTable? (path : List String) : Data → Option String
  | .record fields =>
    match writeLines? fields, writeTables? path fields with
    | some lines, some tables =>
      let header :=
        if path.isEmpty || (lines == "" && fields.any fun (_, data) => isTable data) then ""
        else "[" ++ ".".intercalate path ++ "]\n"
      some (joinSections [header ++ lines, tables])
    | _, _ => none
  | _ => some ""

/-- The sections of the tables among these fields. -/
def writeTables? (path : List String) : List (String × Data) → Option String
  | [] => some ""
  | (name, data) :: rest =>
    match writeTable? (path ++ [name]) data, writeTables? path rest with
    | some table, some tables => some (joinSections [table, tables])
    | _, _ => none

end

/-- Writes a settings file. -/
def write? (data : Data) : Option String :=
  writeTable? [] data

end HedgedForecast.Toml
