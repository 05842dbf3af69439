import HedgedForecast.Data.Basic

/-! # Tables under construction

A settings file builds one tree of tables in three ways: by headers, by the paths that headers
imply, and by dotted keys. A table remembers which, since a table may be completed only in the way
in which it was begun. Values are closed: nothing is added to a list or record once it is read.
-/

namespace HedgedForecast.Toml

/-- How a table came to be. -/
inductive Origin where
  /-- It has a header of its own. -/
  | header
  /-- It is on the path of another table's header. -/
  | implied
  /-- It is on the path of a dotted key. -/
  | dotted
  deriving DecidableEq, Repr

/-- What a key stands for. -/
inductive Node where
  | value (data : Data)
  | table (origin : Origin) (entries : List (String × Node))
  /-- A list of tables, each with a header of its own. -/
  | tables (elements : List (List (String × Node)))

/-- A table under construction. -/
structure Draft where
  origin : Origin
  entries : List (String × Node)

/-- Puts a node in the place of the one with the same key, or at the end. -/
def setEntry (key : String) (node : Node) : List (String × Node) → List (String × Node)
  | [] => [(key, node)]
  | (name, old) :: rest =>
    if name == key then (key, node) :: rest else (name, old) :: setEntry key node rest

/-- Changes the table at a path, creating tables on the way. Dotted keys do not lead into tables
that have headers; the path leads into the last table of a list. -/
def Draft.modify? (dotted : Bool) (change : Draft → Option Draft) :
    List String → Draft → Option Draft
  | [], draft => change draft
  | key :: path, draft =>
    let descend := fun inner => Draft.modify? dotted change path inner
    match draft.entries.lookup key with
    | none => do
      let inner ← descend ⟨if dotted then .dotted else .implied, []⟩
      return ⟨draft.origin, setEntry key (.table inner.origin inner.entries) draft.entries⟩
    | some (.value _) => none
    | some (.table origin entries) =>
      if dotted && origin == .header then none
      else do
        let inner ← descend ⟨origin, entries⟩
        return ⟨draft.origin, setEntry key (.table inner.origin inner.entries) draft.entries⟩
    | some (.tables elements) => do
      let last ← elements.getLast?
      let inner ← descend ⟨.header, last⟩
      let elements := elements.dropLast ++ [inner.entries]
      return ⟨draft.origin, setEntry key (.tables elements) draft.entries⟩

/-- Adds a value under a dotted key, in which only the last part names the value. -/
def Draft.insert? (path : List String) (key : String) (value : Data) (draft : Draft) :
    Option Draft :=
  let add := fun (inner : Draft) =>
    if !path.isEmpty && inner.origin != .dotted then none
    else if (inner.entries.lookup key).isSome then none
    else some ⟨inner.origin, setEntry key (.value value) inner.entries⟩
  draft.modify? true add path

/-- Opens the table with a header; its path may have been implied before. -/
def Draft.openTable? (path : List String) (key : String) (draft : Draft) : Option Draft :=
  let start := fun (parent : Draft) =>
    match parent.entries.lookup key with
    | none => some ⟨parent.origin, setEntry key (.table .header []) parent.entries⟩
    | some (.table .implied entries) =>
      some ⟨parent.origin, setEntry key (.table .header entries) parent.entries⟩
    | some _ => none
  draft.modify? false start path

/-- Adds a table to the list of tables with a header. -/
def Draft.openElement? (path : List String) (key : String) (draft : Draft) : Option Draft :=
  let start := fun (parent : Draft) =>
    match parent.entries.lookup key with
    | none => some ⟨parent.origin, setEntry key (.tables [[]]) parent.entries⟩
    | some (.tables elements) =>
      some ⟨parent.origin, setEntry key (.tables (elements ++ [[]])) parent.entries⟩
    | some _ => none
  draft.modify? false start path

mutual

/-- The data of a node. -/
def Node.toData : Node → Data
  | .value data => data
  | .table _ entries => .record (entriesToData entries)
  | .tables elements => .list (elementsToData elements)

/-- The data of a table's entries. -/
def entriesToData : List (String × Node) → List (String × Data)
  | [] => []
  | (key, node) :: rest => (key, node.toData) :: entriesToData rest

/-- The data of a list of tables. -/
def elementsToData : List (List (String × Node)) → List Data
  | [] => []
  | entries :: rest => .record (entriesToData entries) :: elementsToData rest

end

/-- The finished table as data. -/
def Draft.toData (draft : Draft) : Data :=
  .record (entriesToData draft.entries)

end HedgedForecast.Toml
