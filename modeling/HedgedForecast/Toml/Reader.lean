import HedgedForecast.Toml.Scalar
import HedgedForecast.Toml.Table

/-! # Reading settings files

A file is a sequence of lines: blank lines, comments, headers and keys with values. Values may be
nested, up to a bound on their depth. Any error anywhere makes the file unreadable.
-/

namespace HedgedForecast.Toml

/-- How deep values may be nested, and how many parts a key may have. -/
def depthLimit : Nat := 80

/-- Whether a character may stand in a key without quotes. -/
def isKeyChar (c : Char) : Bool :=
  c.isAlphanum || c == '-' || c == '_'

/-- One part of a key. -/
def readKeyPart? (cs : List Char) : Option (String × List Char) :=
  match cs with
  | c :: _ =>
    if c == '"' || c == '\'' then readLineText? cs
    else if isKeyChar c then
      some (String.ofList (cs.takeWhile isKeyChar), cs.dropWhile isKeyChar)
    else none
  | [] => none

/-- The parts of a key with points between them and blanks around them. -/
def readKeyParts? : Nat → List Char → Option (List String × List Char)
  | 0, _ => none
  | fuel + 1, cs => do
    let (part, rest) ← readKeyPart? (skipBlanks cs)
    match skipBlanks rest with
    | '.' :: rest => do
      let (parts, rest) ← readKeyParts? fuel rest
      return (part :: parts, rest)
    | rest => return ([part], rest)

/-- A key: the path to a table and a name in it. -/
def readKey? (cs : List Char) : Option ((List String × String) × List Char) := do
  let (parts, rest) ← readKeyParts? depthLimit cs
  let name ← parts.getLast?
  if parts.length < depthLimit then some ((parts.dropLast, name), rest) else none

/-- The text behind a comment, if there is one; a comment has no controls but the tabulator. -/
def skipComment : List Char → List Char
  | '#' :: rest => rest.dropWhile fun c => c == '\t' || (32 ≤ c.toNat && c.toNat != 127)
  | cs => cs

/-- The text behind blanks, comments and line breaks. -/
def skipSpace : Nat → List Char → Option (List Char)
  | 0, cs => some cs
  | fuel + 1, cs =>
    match skipBlanks cs with
    | '#' :: rest => (newline? (skipComment ('#' :: rest))).bind (skipSpace fuel)
    | cs =>
      match newline? cs with
      | some rest => skipSpace fuel rest
      | none => some cs

/-- The items of a list behind its bracket; those before come in reverse. -/
def readItems? (value : List Char → Option (Data × List Char)) :
    Nat → List Char → List Data → Option (Data × List Char)
  | 0, _, _ => none
  | fuel + 1, cs, sofar => do
    let cs ← skipSpace cs.length cs
    match cs with
    | ']' :: rest => return (.list sofar.reverse, rest)
    | _ => do
      let (item, rest) ← value cs
      let rest ← skipSpace rest.length rest
      match rest with
      | ',' :: rest => readItems? value fuel rest (item :: sofar)
      | ']' :: rest => return (.list (item :: sofar).reverse, rest)
      | _ => none

/-- The members of a record behind its brace, in one line and without a final comma. -/
def readMembers? (value : List Char → Option (Data × List Char)) :
    Nat → List Char → Draft → Option (Data × List Char)
  | 0, _, _ => none
  | fuel + 1, cs, draft => do
    let ((path, name), rest) ← readKey? cs
    let rest ← expect? '=' rest
    let (data, rest) ← value (skipBlanks rest)
    let draft ← draft.insert? path name data
    match skipBlanks rest with
    | ',' :: rest => readMembers? value fuel rest draft
    | '\x7d' :: rest => return (draft.toData, rest)
    | _ => none

/-- A value; the number bounds how deep it may be nested. -/
def readValue? : Nat → List Char → Option (Data × List Char)
  | 0, _ => none
  | depth + 1, cs =>
    match cs with
    | '[' :: rest =>
      if depth == 0 then none else readItems? (readValue? depth) (rest.length + 1) rest []
    | '\x7b' :: rest =>
      if depth == 0 then none
      else match skipBlanks rest with
        | '\x7d' :: rest => some (.record [], rest)
        | rest => readMembers? (readValue? depth) (rest.length + 1) rest ⟨.header, []⟩
    | _ => readScalar? cs

/-- The text behind the end of a line: blanks, a comment and a line break, or nothing at all. -/
def endLine? (cs : List Char) : Option (List Char) :=
  match skipComment (skipBlanks cs) with
  | [] => some []
  | rest => newline? rest

/-- The tables read so far, and the one that keys without header belong to. -/
structure File where
  root : Draft := ⟨.header, []⟩
  current : List String := []

/-- Adds a key with its value. -/
def File.readKeyValue? (file : File) (cs : List Char) : Option (File × List Char) := do
  let ((path, name), rest) ← readKey? cs
  let rest ← expect? '=' rest
  let (data, rest) ← readValue? depthLimit (skipBlanks rest)
  let rest ← endLine? rest
  let root ← file.root.modify? false (·.insert? path name data) file.current
  return ({ file with root }, rest)

/-- Opens a table, behind the bracket of its header. -/
def File.readHeader? (file : File) (cs : List Char) : Option (File × List Char) :=
  match cs with
  | '[' :: rest => do
    let ((path, name), rest) ← readKey? rest
    let rest ← expect? ']' rest
    let rest ← expect? ']' rest
    let rest ← endLine? rest
    let root ← file.root.openElement? path name
    return (⟨root, path ++ [name]⟩, rest)
  | _ => do
    let ((path, name), rest) ← readKey? cs
    let rest ← expect? ']' rest
    let rest ← endLine? rest
    let root ← file.root.openTable? path name
    return (⟨root, path ++ [name]⟩, rest)

/-- Reads line by line to the end. -/
def File.readLines? : Nat → File → List Char → Option File
  | 0, _, _ => none
  | fuel + 1, file, cs =>
    match skipBlanks cs with
    | [] => some file
    | '#' :: rest => (endLine? ('#' :: rest)).bind (File.readLines? fuel file)
    | '[' :: rest => do
      let (file, rest) ← file.readHeader? rest
      File.readLines? fuel file rest
    | c :: rest =>
      match newline? (c :: rest) with
      | some rest => File.readLines? fuel file rest
      | none => do
        let (file, rest) ← file.readKeyValue? (c :: rest)
        File.readLines? fuel file rest

/-- The text behind a byte order mark. -/
def skipMark : List Char → List Char
  | '\uFEFF' :: rest => rest
  | cs => cs

/-- Reads a settings file. -/
def read? (s : String) : Option Data :=
  let cs := skipMark s.toList
  (File.readLines? (cs.length + 1) {} cs).map fun file => file.root.toData

end HedgedForecast.Toml
