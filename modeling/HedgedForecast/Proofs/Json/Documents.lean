import HedgedForecast.Proofs.Json.Values

/-! # Written values

Compact and indented text of a value differ in space only: both are read as one value, which is the written one except
for doubles that are not finite or that the reader rounds to a neighbour.
-/

namespace HedgedForecast.Json

/-- The compact and the indented text of a value are read as the result. -/
structure Reads (data result : Data) : Prop where
  compact : ReadsAs (write data).toList result
  indented : ∀ depth, ReadsAs (writeIndented depth data).toList result

/-- A value without parts has one text. -/
theorem Reads.of_compact {data result : Data} (reads : ReadsAs (write data).toList result)
    (same : ∀ depth, writeIndented depth data = write data) : Reads data result :=
  ⟨reads, fun depth => (same depth).symm ▸ reads⟩

theorem allSpace_indent (depth : Nat) : AllSpace (indent depth).toList := by
  intro c member
  simp only [indent, String.toList_append, String.toList_ofList, List.mem_append, List.mem_replicate] at member
  obtain newline | ⟨_, rfl⟩ := member
  · obtain rfl : c = '\n' := by simpa using newline
    rfl
  · rfl

/-- Parts that are written with commas between them, whatever the parts are. -/
theorem toList_eq_joined {α : Type} {writeAll : List α → String} {part : α → List Char}
    (empty : (writeAll []).toList = []) (last : ∀ item, (writeAll [item]).toList = part item)
    (more : ∀ item next rest,
      (writeAll (item :: next :: rest)).toList = part item ++ ',' :: (writeAll (next :: rest)).toList)
    (items : List α) :
    (writeAll items).toList = joined (items.map part) := by
  induction items with
  | nil => exact empty
  | cons item items ih =>
    cases items with
    | nil => exact last item
    | cons next items =>
      rw [more, ih]
      rfl

section Items

variable {items results : List Data}

theorem toList_writeItems (items : List Data) :
    (writeItems items).toList = joined (items.map fun item => (write item).toList) :=
  toList_eq_joined (by simp [writeItems]) (fun _ => by simp [writeItems]) (fun _ _ _ => by simp [writeItems]) items

theorem toList_indentedItems (depth : Nat) (items : List Data) : (indentedItems depth items).toList =
    joined (items.map fun item => (indent depth).toList ++ (writeIndented depth item).toList) :=
  toList_eq_joined (by simp [indentedItems]) (fun _ => by simp [indentedItems])
    (fun _ _ _ => by simp [indentedItems]) items

/-- A list is read item by item. -/
theorem reads_list (reads : List.Forall₂ Reads items results) : Reads (.list items) (.list results) := by
  cases reads with
  | nil => exact .of_compact readsAs_emptyList fun _ => rfl
  | @cons item result items results first others =>
    have each := List.Forall₂.cons first others
    have compact : List.Forall₂ ReadsItem ((item :: items).map fun item => (write item).toList) (result :: results) :=
      List.forall₂_map_left_iff.mpr (each.imp fun _ _ reads => reads.compact.readsItem)
    have indented (depth : Nat) : List.Forall₂ ReadsItem
        ((item :: items).map fun item => (indent depth).toList ++ (writeIndented depth item).toList)
        (result :: results) :=
      List.forall₂_map_left_iff.mpr
        (each.imp fun _ _ reads => ⟨_, _, rfl, allSpace_indent depth, reads.indented depth⟩)
    constructor
    · have text : (write (.list (item :: items))).toList =
          '[' :: (joined ((item :: items).map fun item => (write item).toList) ++ ([] ++ [']'])) := by
        simp [write, toList_writeItems]
      rw [text]
      exact readsAs_list compact (by simp) allSpace_nil
    · intro depth
      have text : (writeIndented depth (.list (item :: items))).toList =
          '[' :: (joined ((item :: items).map fun item =>
            (indent (depth + 1)).toList ++ (writeIndented (depth + 1) item).toList) ++
            ((indent depth).toList ++ [']'])) := by
        simp [writeIndented, toList_indentedItems]
      rw [text]
      exact readsAs_list (indented (depth + 1)) (by simp) (allSpace_indent depth)

end Items

section Fields

/-- The field is read from both of its texts. -/
def ReadsNamed (field result : String × Data) : Prop :=
  field.1 = result.1 ∧ Reads field.2 result.2

variable {fields results : List (String × Data)}

theorem toList_writeFields (fields : List (String × Data)) : (writeFields fields).toList =
    joined (fields.map fun field => (writeText field.1).toList ++ ':' :: (write field.2).toList) :=
  toList_eq_joined (by simp [writeFields]) (fun _ => by simp [writeFields]) (fun _ _ _ => by simp [writeFields]) fields

theorem toList_indentedFields (depth : Nat) (fields : List (String × Data)) : (indentedFields depth fields).toList =
    joined (fields.map fun field => (indent depth).toList ++
      ((writeText field.1).toList ++ ':' :: ' ' :: (writeIndented depth field.2).toList)) :=
  toList_eq_joined (by simp [indentedFields]) (fun _ => by simp [indentedFields])
    (fun _ _ _ => by simp [indentedFields]) fields

/-- A field is read behind its name. -/
theorem readsField_of_item (before : List Char) {value : List Char} {field result : String × Data}
    (blank : AllSpace before) (same : field.1 = result.1) (item : ReadsItem value result.2) :
    ReadsField (before ++ ((writeText field.1).toList ++ ':' :: value)) result :=
  ⟨before, value, by simp [toList_writeText, same], blank, item⟩

/-- A record is read field by field. -/
theorem reads_record (reads : List.Forall₂ ReadsNamed fields results) : Reads (.record fields) (.record results) := by
  cases reads with
  | nil => exact .of_compact readsAs_emptyRecord fun _ => rfl
  | @cons field result fields results first others =>
    have each := List.Forall₂.cons first others
    have compact : List.Forall₂ ReadsField
        ((field :: fields).map fun field => (writeText field.1).toList ++ ':' :: (write field.2).toList)
        (result :: results) :=
      List.forall₂_map_left_iff.mpr
        (each.imp fun _ _ reads => readsField_of_item [] allSpace_nil reads.1 reads.2.compact.readsItem)
    have indented (depth : Nat) : List.Forall₂ ReadsField
        ((field :: fields).map fun field => (indent depth).toList ++
          ((writeText field.1).toList ++ ':' :: ' ' :: (writeIndented depth field.2).toList)) (result :: results) :=
      List.forall₂_map_left_iff.mpr (each.imp fun _ _ reads => readsField_of_item _ (allSpace_indent depth) reads.1
        ⟨[' '], _, rfl, by simp [AllSpace, isSpace], reads.2.indented depth⟩)
    constructor
    · have text : (write (.record (field :: fields))).toList =
          '\x7b' :: (joined ((field :: fields).map fun field =>
            (writeText field.1).toList ++ ':' :: (write field.2).toList) ++ ([] ++ ['\x7d'])) := by
        simp [write, toList_writeFields]
      rw [text]
      exact readsAs_record compact (by simp) allSpace_nil
    · intro depth
      have text : (writeIndented depth (.record (field :: fields))).toList =
          '\x7b' :: (joined ((field :: fields).map fun field => (indent (depth + 1)).toList ++
            ((writeText field.1).toList ++ ':' :: ' ' :: (writeIndented (depth + 1) field.2).toList)) ++
            ((indent depth).toList ++ ['\x7d'])) := by
        simp [writeIndented, toList_indentedFields]
      rw [text]
      exact readsAs_record (indented (depth + 1)) (by simp) (allSpace_indent depth)

end Fields

theorem exists_readsAs_float (value : Float) : ∃ result, ReadsAs (write (.float value)).toList result := by
  rw [write, writeFloat]
  cases written : Decimal.interchange? value with
  | none => exact ⟨_, readsAs_null⟩
  | some text =>
    obtain ⟨spelling, wellFormed, same⟩ := exists_spelling written
    exact ⟨_, by rw [Option.getD_some, same]; exact readsAs_number wellFormed⟩

theorem readsAs_int (value : Int) :
    ReadsAs (write (.int value)).toList (wholeSpelling value).toNumeral.toData := by
  rw [write, toList_intText]
  exact readsAs_number (wellFormed_wholeSpelling value)

mutual

/-- Whatever is written is read as some value. -/
theorem exists_reads : ∀ data : Data, ∃ result, Reads data result
  | .null => ⟨_, .of_compact readsAs_null fun _ => rfl⟩
  | .unreadable => ⟨_, .of_compact readsAs_null fun _ => rfl⟩
  | .bool true => ⟨_, .of_compact readsAs_true fun _ => rfl⟩
  | .bool false => ⟨_, .of_compact readsAs_false fun _ => rfl⟩
  | .int value => ⟨_, .of_compact (readsAs_int value) fun _ => rfl⟩
  | .float value =>
    have ⟨_, reads⟩ := exists_readsAs_float value
    ⟨_, .of_compact reads fun _ => rfl⟩
  | .text value => ⟨_, .of_compact (readsAs_text value) fun _ => rfl⟩
  | .list items =>
    have ⟨_, reads⟩ := exists_reads_items items
    ⟨_, reads_list reads⟩
  | .record fields =>
    have ⟨_, reads⟩ := exists_reads_fields fields
    ⟨_, reads_record reads⟩

theorem exists_reads_items : ∀ items : List Data, ∃ results, List.Forall₂ Reads items results
  | [] => ⟨_, .nil⟩
  | item :: rest =>
    have ⟨_, first⟩ := exists_reads item
    have ⟨_, others⟩ := exists_reads_items rest
    ⟨_, .cons first others⟩

theorem exists_reads_fields : ∀ fields : List (String × Data), ∃ results, List.Forall₂ ReadsNamed fields results
  | [] => ⟨_, .nil⟩
  | (name, value) :: rest =>
    have ⟨result, first⟩ := exists_reads value
    have ⟨_, others⟩ := exists_reads_fields rest
    ⟨(name, result) :: _, .cons ⟨rfl, first⟩ others⟩

end

/-- A text is read as no other value. -/
theorem ReadsAs.unique {cs : List Char} {first second : Data} (reads : ReadsAs cs first) (reads' : ReadsAs cs second) :
    first = second := by
  have noRest : Ends [] := nofun
  have same := (reads.read _ [] (Nat.lt_succ_self _) noRest).symm.trans (reads'.read _ [] (Nat.lt_succ_self _) noRest)
  exact congrArg Prod.fst (Option.some.inj same)

theorem rightUnique_readsNamed : Relator.RightUnique ReadsNamed := by
  rintro field ⟨name, first⟩ ⟨name', second⟩ ⟨same, reads⟩ ⟨same', reads'⟩
  exact Prod.ext (same.symm.trans same') (reads.compact.unique reads'.compact)

/-- A document is the text of a value, compact or indented, with space around it. -/
def IsDocument (document : String) (data : Data) : Prop :=
  ∃ before text after, document.toList = before ++ text ++ after ∧ AllSpace before ∧ AllSpace after ∧
    (text = (write data).toList ∨ ∃ depth, text = (writeIndented depth data).toList)

theorem Reads.read? {document : String} {data result : Data} (reads : Reads data result)
    (isDocument : IsDocument document data) : read? document = some result := by
  obtain ⟨before, text, after, same, blank, blank', rfl | ⟨depth, rfl⟩⟩ := isDocument
  · exact read?_of_readsAs reads.compact same blank blank'
  · exact read?_of_readsAs (reads.indented depth) same blank blank'

theorem isDocument_write (data : Data) : IsDocument (write data) data :=
  ⟨[], _, [], by simp, allSpace_nil, allSpace_nil, .inl rfl⟩

/-- A document on lines of its own. -/
theorem isDocument_writeIndented (data : Data) : IsDocument (writeIndented 0 data ++ "\n") data :=
  ⟨[], _, ['\n'], by simp, allSpace_nil, by simp [AllSpace, isSpace], .inr ⟨0, rfl⟩⟩

end HedgedForecast.Json
