import HedgedForecast.Proofs.Toml.Tables
import HedgedForecast.Proofs.Toml.Values

/-! # Reading what was written

A file that is written of data is read as that data, but for what files do not keep: fields without a value, and
where tables stand among values. Nothing is assumed of texts and numbers; the names of fields have to be such that they
need no quotes, and tables and lists may be nested no deeper than files allow.
-/

namespace HedgedForecast.Toml

/-- Whether a field is written in the lines of its table. -/
def isValue : Data → Bool
  | .null => false
  | .record _ => false
  | _ => true

mutual

/-- What a file keeps of data: no nulls, and values before tables. -/
def filed : Data → Data
  | .record fields => .record ((fields.filter fun field => isValue field.2) ++ filedTables fields)
  | data => data

/-- The tables among fields, each as a file keeps it. -/
def filedTables : List (String × Data) → List (String × Data)
  | [] => []
  | (name, data) :: rest => if isTable data then (name, filed data) :: filedTables rest else filedTables rest

end

/-- A name that needs no quotes. -/
def IsBare (name : String) : Prop :=
  name.toList ≠ [] ∧ ∀ c ∈ name.toList, isKeyChar c = true

instance (name : String) : Decidable (IsBare name) :=
  decidable_of_iff (name.toList ≠ [] ∧ name.toList.all isKeyChar = true) (by rw [IsBare, List.all_eq_true])

mutual

/-- Data that files hold at a level: fields with distinct names without quotes, nothing nested too deep. -/
def Fits (level : Nat) : Data → Prop
  | .record fields => level < depthLimit ∧ (fields.map Prod.fst).Nodup ∧ FieldsFit level fields
  | data => nesting data < depthLimit

/-- The fields of a table at a level. -/
def FieldsFit (level : Nat) : List (String × Data) → Prop
  | [] => True
  | (name, data) :: rest => IsBare name ∧ Fits (level + 1) data ∧ FieldsFit level rest

end

theorem map_fst_entriesToData (entries : List (String × Node)) :
    (entriesToData entries).map Prod.fst = entries.map Prod.fst := by
  induction entries with
  | nil => rfl
  | cons entry rest ih =>
    obtain ⟨key, node⟩ := entry
    rw [entriesToData, List.map_cons, List.map_cons, ih]

theorem entriesToData_append (front back : List (String × Node)) :
    entriesToData (front ++ back) = entriesToData front ++ entriesToData back := by
  induction front with
  | nil => rfl
  | cons entry rest ih =>
    obtain ⟨key, node⟩ := entry
    rw [List.cons_append, entriesToData, entriesToData, ih, List.cons_append]

/-- Values as entries of a table. -/
def valueEntries (fields : List (String × Data)) : List (String × Node) :=
  (fields.filter fun field => isValue field.2).map fun field => (field.1, .value field.2)

theorem entriesToData_valueEntries (fields : List (String × Data)) :
    entriesToData (valueEntries fields) = fields.filter fun field => isValue field.2 := by
  unfold valueEntries
  induction fields.filter fun field => isValue field.2 with
  | nil => rfl
  | cons field rest ih => rw [List.map_cons, entriesToData, ih, Node.toData]

theorem map_fst_filedTables (fields : List (String × Data)) :
    (filedTables fields).map Prod.fst = (fields.filter fun field => isTable field.2).map Prod.fst := by
  induction fields with
  | nil => rfl
  | cons field rest ih =>
    obtain ⟨name, data⟩ := field
    rw [filedTables]
    by_cases table : isTable data
    · simp [table, ih]
    · simp [table, ih]

/-- Values and tables have distinct names if all fields have. -/
theorem nodup_filed {fields : List (String × Data)} (distinct : (fields.map Prod.fst).Nodup) :
    (((fields.filter fun field => isValue field.2) ++ filedTables fields).map Prod.fst).Nodup := by
  have whole :
      ((fields.filter fun field => isValue field.2) ++ fields.filter fun field => !isValue field.2).Perm fields :=
    List.filter_append_perm _ fields
  have others : (fields.filter fun field => isTable field.2).Sublist (fields.filter fun field => !isValue field.2) := by
    refine List.monotone_filter_right fields fun field table => ?_
    obtain ⟨name, data⟩ := field
    cases data <;> simp [isTable, isValue] at table ⊢
  have halves := ((whole.map Prod.fst).nodup_iff).mpr distinct
  rw [List.map_append] at halves ⊢
  rw [map_fst_filedTables]
  exact halves.sublist ((List.Sublist.refl _).append (others.map Prod.fst))

theorem isBlank_of_isKeyChar {c : Char} (key : isKeyChar c = true) : isBlank c = false := by
  rw [isBlank, Bool.or_eq_false_iff, beq_eq_false_iff_ne, beq_eq_false_iff_ne]
  constructor <;> (rintro rfl; exact absurd key (by decide))

section Keys

variable {name : String} {path : List String} {rest : List Char}

theorem IsBare.cons (bare : IsBare name) : ∃ c tail, name.toList = c :: tail ∧ isKeyChar c = true := by
  obtain ⟨nonempty, all⟩ := bare
  cases letters : name.toList with
  | nil => exact absurd letters nonempty
  | cons c tail => exact ⟨c, tail, rfl, all c (letters ▸ List.mem_cons_self)⟩

/-- A name is read up to what no name contains. -/
theorem readKeyPart?_append (bare : IsBare name) (stop : ∀ c ∈ rest.head?, isKeyChar c = false) :
    readKeyPart? (name.toList ++ rest) = some (name, rest) := by
  obtain ⟨c, tail, same, key⟩ := bare.cons
  have unquoted : (c == '"' || c == '\'') = false := by
    rw [Bool.or_eq_false_iff, beq_eq_false_iff_ne, beq_eq_false_iff_ne]
    constructor <;> (rintro rfl; exact absurd key (by decide))
  have front : (name.toList ++ rest).takeWhile isKeyChar = name.toList := by
    rw [List.takeWhile_append_of_pos bare.2]
    cases rest with
    | nil => simp
    | cons c rest => rw [List.takeWhile_cons_of_neg (by simp [stop c rfl]), List.append_nil]
  have back : (name.toList ++ rest).dropWhile isKeyChar = rest := by
    rw [List.dropWhile_append_of_pos bare.2]
    cases rest with
    | nil => rfl
    | cons c rest => rw [List.dropWhile_cons_of_neg (by simp [stop c rfl])]
  rw [same, List.cons_append] at front back ⊢
  rw [readKeyPart?, unquoted, if_neg (by decide), if_pos key, front, back, ← same, String.ofList_toList]

/-- Names with points between them are read as the parts of a key. -/
theorem readKeyParts?_append (stop : ∀ c ∈ rest.head?, isKeyChar c = false)
    (last : ∀ tail, skipBlanks rest ≠ '.' :: tail) :
    ∀ (names : List String) (fuel : Nat), names ≠ [] → names.length ≤ fuel → (∀ name ∈ names, IsBare name) →
      readKeyParts? fuel ((".".intercalate names).toList ++ rest) = some (names, skipBlanks rest) := by
  intro names
  induction names with
  | nil => exact fun _ nonempty => absurd rfl nonempty
  | cons name names ih =>
    intro fuel _ enough bare
    obtain ⟨fuel, rfl⟩ := Nat.exists_eq_add_one_of_ne_zero (Nat.ne_zero_of_lt enough)
    have bareName := bare name List.mem_cons_self
    obtain ⟨c, tail, same, key⟩ := bareName.cons
    have stays (behind : List Char) : skipBlanks (name.toList ++ behind) = name.toList ++ behind := by
      rw [same, List.cons_append, skipBlanks_of_not_isBlank (isBlank_of_isKeyChar key)]
    cases names with
    | nil =>
      rw [String.intercalate_singleton, readKeyParts?, stays, readKeyPart?_append bareName stop]
      simp only [Option.bind_eq_bind, Option.bind_some]
      rfl
    | cons next names =>
      have behind := ih fuel (List.cons_ne_nil _ _) (Nat.le_of_succ_le_succ enough)
        fun name member => bare name (List.mem_cons_of_mem _ member)
      have text : (".".intercalate (name :: next :: names)).toList ++ rest =
          name.toList ++ '.' :: ((".".intercalate (next :: names)).toList ++ rest) := by
        simp [String.intercalate_cons_cons]
      have point : ∀ c ∈ ('.' :: ((".".intercalate (next :: names)).toList ++ rest)).head?, isKeyChar c = false := by
        intro c head
        obtain rfl := Option.some.inj head
        decide
      rw [text, readKeyParts?, stays, readKeyPart?_append bareName point]
      simp only [Option.bind_eq_bind, Option.bind_some]
      rw [skipBlanks_of_not_isBlank (by decide)]
      simp only [behind, Option.bind_some]
      rfl

/-- Names with points between them begin as the first of them. -/
theorem intercalate_start {names : List String} (nonempty : names ≠ []) (bare : ∀ name ∈ names, IsBare name) :
    ∃ c tail, (".".intercalate names).toList = c :: tail ∧ isKeyChar c = true := by
  cases names with
  | nil => exact absurd rfl nonempty
  | cons name names =>
    obtain ⟨c, tail, same, key⟩ := (bare name List.mem_cons_self).cons
    cases names with
    | nil => exact ⟨c, tail, by rw [String.intercalate_singleton, same], key⟩
    | cons next names =>
      refine ⟨c, tail ++ '.' :: (".".intercalate (next :: names)).toList, ?_, key⟩
      simp [String.intercalate_cons_cons, same]

/-- The key of a field or header. -/
theorem readKey?_append (stop : ∀ c ∈ rest.head?, isKeyChar c = false) (last : ∀ tail, skipBlanks rest ≠ '.' :: tail)
    (bare : ∀ part ∈ path ++ [name], IsBare part) (short : path.length + 1 < depthLimit) :
    readKey? ((".".intercalate (path ++ [name])).toList ++ rest) = some ((path, name), skipBlanks rest) := by
  have length : (path ++ [name]).length = path.length + 1 := by simp
  rw [readKey?, readKeyParts?_append stop last _ _ (by simp) (by omega) bare]
  simp [short]

end Keys

/-- Reading these characters, whatever follows them, turns one state of a file into another. -/
def Reads (chars : List Char) (file after : File) : Prop :=
  ∃ lines ≤ chars.length, ∀ fuel rest,
    File.readLines? (fuel + lines) file (chars ++ rest) = File.readLines? fuel after rest

section Lines

variable {file between after : File} {chars more : List Char} {path : List String} {name text : String}
  {root grown : Draft} {current : List String}

theorem Reads.refl (file : File) : Reads [] file file :=
  ⟨0, Nat.le_refl 0, fun _ _ => rfl⟩

theorem Reads.trans (first : Reads chars file between) (second : Reads more between after) :
    Reads (chars ++ more) file after := by
  obtain ⟨lines, few, reads⟩ := first
  obtain ⟨lines', few', reads'⟩ := second
  refine ⟨lines' + lines, by rw [List.length_append]; omega, fun fuel rest => ?_⟩
  rw [← Nat.add_assoc, List.append_assoc, reads, reads']

/-- One line is read in one step. -/
theorem Reads.line (nonempty : chars ≠ [])
    (step : ∀ fuel rest, File.readLines? (fuel + 1) file (chars ++ rest) = File.readLines? fuel after rest) :
    Reads chars file after :=
  ⟨1, List.length_pos_iff.mpr nonempty, step⟩

theorem reads_blank (file : File) : Reads ['\n'] file file :=
  .line (List.cons_ne_nil _ _) fun _ _ => rfl

/-- Sections are read one after another. -/
theorem reads_joinSections {front back : String} (first : Reads front.toList file between)
    (second : Reads back.toList between after) : Reads (joinSections [front, back]).toList file after := by
  unfold joinSections
  by_cases noFront : front = ""
  · subst noFront
    have both := first.trans second
    by_cases noBack : back = ""
    · subst noBack
      exact both
    · simpa [noBack] using both
  · by_cases noBack : back = ""
    · subst noBack
      have both := first.trans second
      simpa [noFront] using both
    · have both := (first.trans (reads_blank between)).trans second
      simpa [noFront, noBack, String.intercalate_cons_cons] using both

theorem endLine?_feed (rest : List Char) : endLine? ('\n' :: rest) = some rest :=
  rfl

/-- A header opens its table. -/
theorem reads_header (bare : ∀ part ∈ path ++ [name], IsBare part) (short : path.length + 1 < depthLimit)
    (opened : root.openTable? path name = some grown) :
    Reads ("[" ++ ".".intercalate (path ++ [name]) ++ "]\n").toList ⟨root, current⟩ ⟨grown, path ++ [name]⟩ := by
  refine .line (by simp) fun fuel rest => ?_
  have line : ("[" ++ ".".intercalate (path ++ [name]) ++ "]\n").toList ++ rest =
      '[' :: ((".".intercalate (path ++ [name])).toList ++ ']' :: '\n' :: rest) := by
    simp
  have key : readKey? ((".".intercalate (path ++ [name])).toList ++ ']' :: '\n' :: rest) =
      some ((path, name), skipBlanks (']' :: '\n' :: rest)) :=
    readKey?_append (fun c head => Option.some.inj head ▸ by decide)
      (fun tail same => by simp [skipBlanks, isBlank] at same) bare short
  obtain ⟨c, tail, same, isKey⟩ := intercalate_start (List.append_ne_nil_of_right_ne_nil _ (List.cons_ne_nil _ _)) bare
  have single : ∀ behind, (".".intercalate (path ++ [name])).toList ++ ']' :: '\n' :: rest ≠ '[' :: behind := by
    intro behind other
    rw [same, List.cons_append] at other
    exact absurd isKey (by rw [(List.cons.inj other).1]; decide)
  have header : File.readHeader? ⟨root, current⟩ ((".".intercalate (path ++ [name])).toList ++ ']' :: '\n' :: rest) =
      some (⟨grown, path ++ [name]⟩, rest) := by
    unfold File.readHeader?
    split
    · next other => exact absurd other (single _)
    · rw [key]
      simp [skipBlanks, isBlank, expect?, endLine?_feed, opened]
  have step (cs : List Char) : File.readLines? (fuel + 1) ⟨root, current⟩ ('[' :: cs) =
      (File.readHeader? ⟨root, current⟩ cs).bind fun result => File.readLines? fuel result.1 result.2 := rfl
  rw [line, step, header]
  rfl

theorem readLines?_key {c : Char} (key : isKeyChar c = true) (fuel : Nat) (tail : List Char) :
    File.readLines? (fuel + 1) file (c :: tail) =
      (file.readKeyValue? (c :: tail)).bind fun result => File.readLines? fuel result.1 result.2 := by
  have differs (mark : Char) (other : isKeyChar mark = false) : c ≠ mark := by
    rintro rfl
    exact absurd key (by simp [other])
  have stays : skipBlanks (c :: tail) = c :: tail := skipBlanks_of_not_isBlank (isBlank_of_isKeyChar key)
  have noBreak : newline? (c :: tail) = none := newline?_of_ne (differs '\n' (by decide)) (differs '\r' (by decide))
  rw [File.readLines?, stays]
  split
  · next same => exact absurd same (List.cons_ne_nil _ _)
  · next same => exact absurd (List.cons.inj same).1 (differs '#' (by decide))
  · next same => exact absurd (List.cons.inj same).1 (differs '[' (by decide))
  · next same =>
    obtain ⟨rfl, rfl⟩ := List.cons.inj same
    rw [noBreak]
    rfl

/-- The line of a field adds an entry to the table that the last header opened. -/
theorem reads_field {data : Data} (bare : IsBare name) (reads : ReadsAs depthLimit data text)
    (added : root.modify? false (·.insert? [] name data) path = some grown) :
    Reads (name ++ " = " ++ text ++ "\n").toList ⟨root, path⟩ ⟨grown, path⟩ := by
  refine .line (by simp) fun fuel rest => ?_
  have line : (name ++ " = " ++ text ++ "\n").toList ++ rest =
      name.toList ++ ' ' :: '=' :: ' ' :: (text.toList ++ '\n' :: rest) := by
    simp
  have key : readKey? ((".".intercalate ([] ++ [name])).toList ++ ' ' :: '=' :: ' ' :: (text.toList ++ '\n' :: rest)) =
      some (([], name), skipBlanks (' ' :: '=' :: ' ' :: (text.toList ++ '\n' :: rest))) :=
    readKey?_append (fun c head => Option.some.inj head ▸ by decide)
      (fun tail same => by simp [skipBlanks, isBlank] at same)
      (fun part member => List.mem_singleton.mp member ▸ bare) (by decide)
  rw [List.nil_append, String.intercalate_singleton] at key
  obtain ⟨first, behind, begins, other⟩ := reads.start
  have blanks : skipBlanks (' ' :: (text.toList ++ '\n' :: rest)) = text.toList ++ '\n' :: rest := by
    have visible : isBlank first = false := by
      rw [isBlank, Bool.or_eq_false_iff, beq_eq_false_iff_ne, beq_eq_false_iff_ne]
      constructor <;> (rintro rfl; exact absurd other (by decide))
    rw [begins]
    exact skipBlanks_of_not_isBlank visible
  have value := reads ('\n' :: rest) (ends_cons _ (.inl rfl))
  obtain ⟨c, tail, same, isKey⟩ := bare.cons
  have keyValue : File.readKeyValue? ⟨root, path⟩ (name.toList ++ ' ' :: '=' :: ' ' :: (text.toList ++ '\n' :: rest)) =
      some (⟨grown, path⟩, rest) := by
    have equals : skipBlanks (' ' :: '=' :: ' ' :: (text.toList ++ '\n' :: rest)) =
        '=' :: ' ' :: (text.toList ++ '\n' :: rest) := rfl
    rw [equals] at key
    simp only [File.readKeyValue?, key, Option.bind_eq_bind, Option.bind_some, expect?, beq_self_eq_true, if_true,
      blanks, value, endLine?_feed, added]
    rfl
  rw [line]
  rw [same, List.cons_append] at keyValue ⊢
  rw [readLines?_key isKey, keyValue]
  rfl

theorem writeLines?_cons {data : Data} {fields : List (String × Data)}
    (written : writeLines? ((name, data) :: fields) = some text) :
    ∃ line lines, writeLine? name data = some line ∧ writeLines? fields = some lines ∧ text = line ++ lines := by
  unfold writeLines? at written ⊢
  rw [List.mapM_cons] at written
  obtain ⟨all, some', rfl⟩ := Option.map_eq_some_iff.mp written
  simp only [Option.bind_eq_bind, Option.bind_eq_some_iff] at some'
  obtain ⟨line, first, lines, rest, same⟩ := some'
  obtain rfl := Option.some.inj same
  exact ⟨line, String.join lines, first, by rw [rest]; rfl, String.join_cons⟩

/-- The line of a value is its name and what is written of it. -/
theorem exists_writeValue?_of_writeLine? {data : Data} {line : String} (value : isValue data = true)
    (written : writeLine? name data = some line) :
    ∃ text, writeValue? data = some text ∧ line = name ++ " = " ++ text ++ "\n" := by
  have spelt : (writeValue? data).map (fun value => name ++ " = " ++ value ++ "\n") = some line := by
    cases data <;> simp_all [isValue, writeLine?]
  obtain ⟨text, some', rfl⟩ := Option.map_eq_some_iff.mp spelt
  exact ⟨text, some', rfl⟩

/-- The lines of a table's values add them as entries. -/
theorem reads_lines : ∀ (fields : List (String × Data)) (text : String) (root grown : Draft),
    writeLines? fields = some text → FieldsFit path.length fields → root.Stands path →
    root.modify? false (Draft.extend? (valueEntries fields)) path = some grown →
    Reads text.toList ⟨root, path⟩ ⟨grown, path⟩ := by
  intro fields
  induction fields with
  | nil =>
    intro text root grown written _ stands success
    obtain rfl := Option.some.inj written
    obtain rfl := Option.some.inj (stands.symm.trans success)
    exact .refl _
  | cons field fields ih =>
    intro text root grown written fit stands success
    obtain ⟨name, data⟩ := field
    obtain ⟨bare, fits, others⟩ := fit
    obtain ⟨line, lines, first, rest, rfl⟩ := writeLines?_cons written
    rw [String.toList_append]
    cases value : isValue data with
    | false =>
      have empty : line = "" := by
        cases data <;> simp_all [isValue, writeLine?]
      have entries : valueEntries ((name, data) :: fields) = valueEntries fields := by simp [valueEntries, value]
      rw [entries] at success
      subst empty
      exact ih lines root grown rest others stands success
    | true =>
      obtain ⟨text, spelt, rfl⟩ := exists_writeValue?_of_writeLine? value first
      have entries : valueEntries ((name, data) :: fields) = [(name, .value data)] ++ valueEntries fields := by
        simp [valueEntries, value]
      rw [entries] at success
      obtain ⟨between, here, behind⟩ := Draft.exists_modify?_extend? success
      have shallow : nesting data < depthLimit := by
        cases data <;> simp_all [isValue, Fits]
      have reads := readsAs_writeValue? data text depthLimit spelt shallow
      have front := reads_field bare reads (Draft.insert?_of_extend? here)
      exact front.trans (ih lines between grown rest others (Draft.stands_of_extend? here) behind)

/-- A table without lines has no values. -/
theorem filter_isValue_of_writeLines? : ∀ {fields : List (String × Data)}, writeLines? fields = some "" →
    (fields.filter fun field => isValue field.2) = [] := by
  intro fields
  induction fields with
  | nil => exact fun _ => rfl
  | cons field fields ih =>
    intro written
    obtain ⟨name, data⟩ := field
    obtain ⟨line, lines, first, rest, same⟩ := writeLines?_cons written
    obtain ⟨rfl, rfl⟩ := String.append_eq_empty_iff.mp same.symm
    cases value : isValue data with
    | false => rw [List.filter_cons_of_neg (by simp [value]), ih rest]
    | true =>
      obtain ⟨text, _, same⟩ := exists_writeValue?_of_writeLine? value first
      exact absurd (String.append_eq_empty_iff.mp same.symm).2 (by decide)

end Lines

theorem isTable_iff {data : Data} : isTable data = true ↔ ∃ fields, data = .record fields := by
  cases data <;> simp [isTable]

/-- A table of a file is written with or without a header. -/
theorem writeTable?_record {path : List String} {fields : List (String × Data)} {text : String}
    (written : writeTable? path (.record fields) = some text) :
    ∃ lines tables, writeLines? fields = some lines ∧ writeTables? path fields = some tables ∧
      text = joinSections [(if path.isEmpty || (lines == "" && fields.any fun (_, data) => isTable data) then ""
        else "[" ++ ".".intercalate path ++ "]\n") ++ lines, tables] := by
  rw [writeTable?] at written
  split at written
  · next lines tables first second => exact ⟨lines, tables, first, second, (Option.some.inj written).symm⟩
  · contradiction

/-- What reading the text of a table adds: one entry to the table around it. -/
def ReadsTable (path : List String) (name : String) (data : Data) (text : String) : Prop :=
  ∃ origin entries, .record (entriesToData entries) = filed data ∧
    ∀ (root grown : Draft) (current : List String),
      root.modify? false (Draft.extend? [(name, .table origin entries)]) path = some grown →
        ∃ current', Reads text.toList ⟨root, current⟩ ⟨grown, current'⟩

/-- What reading the texts of a table's tables adds: an entry for each of them. The table is there before, unless its
tables make it. -/
def ReadsTables (path : List String) (fields : List (String × Data)) (text : String) : Prop :=
  ∃ entries, entriesToData entries = filedTables fields ∧
    ∀ (root grown : Draft) (current : List String), (root.Stands path ∨ fields.any fun (_, data) => isTable data) →
      root.modify? false (Draft.extend? entries) path = some grown →
        ∃ current', Reads text.toList ⟨root, current⟩ ⟨grown, current'⟩

section Tables

variable {path : List String} {name text : String} {fields : List (String × Data)}

/-- A table is read as a whole if the tables in it are. -/
theorem readsTable_record (bare : ∀ part ∈ path ++ [name], IsBare part)
    (fit : Fits (path.length + 1) (.record fields)) (written : writeTable? (path ++ [name]) (.record fields) = some text)
    (inner : ∀ tables, writeTables? (path ++ [name]) fields = some tables → ReadsTables (path ++ [name]) fields tables) :
    ReadsTable path name (.record fields) text := by
  rw [Fits] at fit
  obtain ⟨short, distinct, fits⟩ := fit
  obtain ⟨lines, tables, spelt, speltTables, rfl⟩ := writeTable?_record written
  obtain ⟨entries, same, readsTables⟩ := inner tables speltTables
  have names := nodup_filed distinct
  have contents : entriesToData (valueEntries fields ++ entries) =
      (fields.filter fun field => isValue field.2) ++ filedTables fields := by
    rw [entriesToData_append, entriesToData_valueEntries, same]
  have length : (path ++ [name]).length = path.length + 1 := by simp
  have distinct' : ((valueEntries fields ++ entries).map Prod.fst).Nodup := by
    rw [← map_fst_entriesToData, contents]
    exact names
  by_cases bareTable : (lines == "" && fields.any fun (_, data) => isTable data) = true
  case pos =>
    obtain ⟨noLines, any⟩ := Bool.and_eq_true_iff.mp bareTable
    obtain rfl := eq_of_beq noLines
    have noValues : valueEntries fields = [] := by rw [valueEntries, filter_isValue_of_writeLines? spelt, List.map_nil]
    rw [noValues, List.nil_append] at contents distinct'
    refine ⟨.implied, entries, by rw [filed, contents], fun root grown current success => ?_⟩
    obtain ⟨current', reads⟩ := readsTables root grown current (.inr any) (Draft.modify?_implied distinct' success)
    refine ⟨current', ?_⟩
    rw [bareTable, Bool.or_true, if_pos rfl]
    exact reads_joinSections (.refl _) reads
  case neg =>
    refine ⟨.header, valueEntries fields ++ entries, by rw [filed, contents], fun root grown current success => ?_⟩
    obtain ⟨filled, values, tablesAdded⟩ := Draft.exists_modify?_table distinct' success
    have distinctValues : (([] ++ valueEntries fields).map Prod.fst).Nodup := by
      rw [List.map_append] at distinct'
      exact (List.nodup_append.mp distinct').1
    obtain ⟨opened, header, valuesAdded⟩ := Draft.exists_modify?_table distinctValues values
    have readsHeader : Reads _ ⟨root, current⟩ ⟨opened, path ++ [name]⟩ :=
      reads_header bare (by omega) (Draft.openTable?_of_extend? header)
    have stands := Draft.stands_table (by simp) header
    have readsLines := reads_lines fields lines opened filled spelt (by rw [length]; exact fits) stands valuesAdded
    have standsFilled := Draft.stands_table distinctValues values
    obtain ⟨current', readsInner⟩ := readsTables filled grown (path ++ [name]) (.inl standsFilled) tablesAdded
    refine ⟨current', ?_⟩
    have section' := readsHeader.trans readsLines
    rw [← String.toList_append] at section'
    have inside : (path ++ [name]).isEmpty = false := by simp
    rw [inside, Bool.false_or, if_neg bareTable]
    exact reads_joinSections section' readsInner

end Tables

mutual

/-- Every table is read from what is written of it. -/
theorem readsTable_writeTable? : ∀ (data : Data) (path : List String) (name text : String),
    isTable data = true → (∀ part ∈ path ++ [name], IsBare part) → Fits (path.length + 1) data →
    writeTable? (path ++ [name]) data = some text → ReadsTable path name data text
  | .record fields, path, name, text, _, bare, fit, written => by
    have length : (path ++ [name]).length = path.length + 1 := by simp
    have fits : FieldsFit (path ++ [name]).length fields := by
      rw [Fits] at fit
      rw [length]
      exact fit.2.2
    exact readsTable_record bare fit written fun tables speltTables =>
      readsTables_writeTables? fields (path ++ [name]) tables bare fits speltTables

theorem readsTables_writeTables? : ∀ (fields : List (String × Data)) (path : List String)
    (text : String), (∀ part ∈ path, IsBare part) → FieldsFit path.length fields →
    writeTables? path fields = some text → ReadsTables path fields text
  | [], path, text, _, _, written => by
    obtain rfl := Option.some.inj written
    refine ⟨[], rfl, fun root grown current stands success => ?_⟩
    obtain stands | any := stands
    · obtain rfl := Option.some.inj (stands.symm.trans success)
      exact ⟨current, .refl _⟩
    · exact absurd any (by simp)
  | (name, data) :: rest, path, text, bare, fits, written => by
    rw [FieldsFit] at fits
    obtain ⟨bareName, fit, others⟩ := fits
    rw [writeTables?] at written
    split at written
    case h_2 => contradiction
    case h_1 table tables speltTable speltTables =>
      obtain rfl := Option.some.inj written
      obtain ⟨entries, same, readsRest⟩ := readsTables_writeTables? rest path tables bare others speltTables
      by_cases isTable' : isTable data = true
      · have bare' : ∀ part ∈ path ++ [name], IsBare part := by
          intro part member
          rcases List.mem_append.mp member with before | last
          · exact bare part before
          · exact List.mem_singleton.mp last ▸ bareName
        obtain ⟨origin, inner, contents, readsTable⟩ :=
          readsTable_writeTable? data path name table isTable' bare' fit speltTable
        refine ⟨(name, .table origin inner) :: entries, ?_, fun root grown current _ success => ?_⟩
        · rw [entriesToData, filedTables, if_pos isTable', same, Node.toData, contents]
        · have both : root.modify? false (Draft.extend? ([(name, .table origin inner)] ++ entries)) path = some grown :=
            success
          obtain ⟨between, first, behind⟩ := Draft.exists_modify?_extend? both
          obtain ⟨current', reads⟩ := readsTable root between current first
          obtain ⟨current'', reads'⟩ := readsRest between grown current' (.inl (Draft.stands_of_extend? first)) behind
          exact ⟨current'', reads_joinSections reads reads'⟩
      · have empty : table = "" := by
          cases data <;> simp_all [isTable, writeTable?]
        subst empty
        refine ⟨entries, by rw [filedTables, if_neg isTable', same], fun root grown current stands success => ?_⟩
        have stands' : root.Stands path ∨ rest.any fun (_, data) => isTable data := by
          refine stands.imp id fun any => ?_
          simpa [isTable'] using any
        obtain ⟨current', reads⟩ := readsRest root grown current stands' success
        exact ⟨current', reads_joinSections (.refl _) reads⟩

end

/-- No line begins with a byte order mark. -/
theorem readLines?_mark (fuel : Nat) (file : File) (tail : List Char) :
    File.readLines? fuel file ('\uFEFF' :: tail) = none := by
  cases fuel with
  | zero => rfl
  | succ fuel => rfl

/-- What is read to the end of a file is its state there. -/
theorem read?_of_reads {text : String} {after : File} (reads : Reads text.toList {} after) :
    read? text = some after.root.toData := by
  obtain ⟨lines, few, steps⟩ := reads
  have whole : File.readLines? (text.toList.length + 1) {} text.toList = some after := by
    have enough : text.toList.length + 1 = (text.toList.length - lines + 1) + lines := by omega
    have step := steps (text.toList.length - lines + 1) []
    rw [List.append_nil, ← enough] at step
    rw [step]
    rfl
  have unmarked : skipMark text.toList = text.toList := by
    unfold skipMark
    split
    · next tail same =>
      rw [same, readLines?_mark] at whole
      contradiction
    · rfl
  simp only [read?, unmarked, whole, Option.map_some]

/-- A file that is written of data is read as what files keep of it. -/
theorem read?_of_write? {data : Data} {text : String} (table : isTable data = true)
    (fit : Fits 0 data) (written : write? data = some text) : read? text = some (filed data) := by
  obtain ⟨fields, rfl⟩ := isTable_iff.mp table
  obtain ⟨lines, tables, spelt, speltTables, rfl⟩ := writeTable?_record written
  rw [Fits] at fit
  obtain ⟨_, distinct, fits⟩ := fit
  obtain ⟨entries, same, readsTables⟩ := readsTables_writeTables? fields [] tables (by simp) fits speltTables
  have contents : entriesToData (valueEntries fields ++ entries) =
      (fields.filter fun field => isValue field.2) ++ filedTables fields := by
    rw [entriesToData_append, entriesToData_valueEntries, same]
  have distinct' : ((valueEntries fields ++ entries).map Prod.fst).Nodup := by
    rw [← map_fst_entriesToData, contents]
    exact nodup_filed distinct
  have whole : Draft.modify? false (Draft.extend? (valueEntries fields ++ entries)) [] ⟨.header, []⟩ =
      some ⟨.header, valueEntries fields ++ entries⟩ := Draft.extend?_eq_some_iff.mpr ⟨distinct', rfl⟩
  obtain ⟨filled, values, tablesAdded⟩ := Draft.exists_modify?_extend? whole
  have stands : Draft.Stands [] ⟨.header, []⟩ := Draft.extend?_eq_some_iff.mpr ⟨List.nodup_nil, rfl⟩
  have fits' : FieldsFit ([] : List String).length fields := fits
  have readsLines := reads_lines fields lines _ filled spelt fits' stands values
  obtain ⟨current', readsInner⟩ := readsTables filled _ [] (.inl (Draft.stands_of_extend? values)) tablesAdded
  have reads := read?_of_reads (reads_joinSections readsLines readsInner)
  rw [List.isEmpty_nil, Bool.true_or, if_pos rfl, String.empty_append, reads, Draft.toData, contents, filed]

end HedgedForecast.Toml
