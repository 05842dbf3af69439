import HedgedForecast.Proofs.Toml.Doubles
import HedgedForecast.Toml.Reader
import Mathlib.Data.List.Forall2

/-! # Values in settings files

Every value that is written is read back: scalars from their own notation, lists item by item, whether they stand on one
line or on several.
-/

namespace HedgedForecast.Toml

theorem readNumber?_start {cs : List Char} {result : Data × List Char} (read : readNumber? cs = some result) :
    ∃ c tail, cs = c :: tail ∧ (c.isDigit = true ∨ c ∈ ['+', '-', 'i', 'n']) := by
  cases cs with
  | nil =>
    have nothing : readNumber? [] = none := rfl
    rw [nothing] at read
    contradiction
  | cons c tail =>
    refine ⟨c, tail, rfl, ?_⟩
    by_contra other
    rw [not_or, Bool.not_eq_true] at other
    obtain ⟨notDigit, notMark⟩ := other
    have differs (mark : Char) (member : mark ∈ ['+', '-', 'i', 'n', '0']) : c ≠ mark := by
      rintro rfl
      rcases List.mem_append.mp (show c ∈ ['+', '-', 'i', 'n'] ++ ['0'] from member) with marks | zero
      · exact notMark marks
      · obtain rfl := List.mem_singleton.mp zero
        exact absurd notDigit (by decide)
    have unsigned : readSign (c :: tail) = (false, c :: tail) := by
      simp [readSign, differs '+' (by decide), differs '-' (by decide)]
    have noDigits : readDecimal? false (c :: tail) = none := by
      have stops : readDigits 10 (c :: tail) [] = ([], c :: tail) := by
        simp [readDigits, hexValue?_of_not_isDigit notDigit]
      simp [readDecimal?, readWhole?, differs '0' (by decide), readDigits?, stops]
    have none' : readNumber? (c :: tail) = none := by
      unfold readNumber?
      split
      · next same => exact absurd (List.cons.inj same).1 (differs '0' (by decide))
      · next same => exact absurd (List.cons.inj same).1 (differs '0' (by decide))
      · next same => exact absurd (List.cons.inj same).1 (differs '0' (by decide))
      · rw [unsigned]
        simp only
        split
        · next same => exact absurd (List.cons.inj same).1 (differs 'i' (by decide))
        · next same => exact absurd (List.cons.inj same).1 (differs 'n' (by decide))
        · exact noDigits
    rw [none'] at read
    contradiction

/-- What a scalar begins with. -/
theorem readScalar?_start {cs : List Char} {result : Data × List Char} (read : readScalar? cs = some result) :
    ∃ c tail, cs = c :: tail ∧ (c.isDigit = true ∨ c ∈ ['t', 'f', '"', '\'', '+', '-', 'i', 'n']) := by
  unfold readScalar? at read
  split at read
  · exact ⟨'t', _, rfl, .inr (by decide)⟩
  · exact ⟨'f', _, rfl, .inr (by decide)⟩
  · next c tail _ _ =>
    split_ifs at read with quoted
    · refine ⟨c, tail, rfl, .inr ?_⟩
      rw [Bool.or_eq_true, beq_iff_eq, beq_iff_eq] at quoted
      obtain rfl | rfl := quoted <;> decide
    · by_cases digit : c.isDigit = true
      · exact ⟨c, tail, rfl, .inl digit⟩
      · rw [readMoment?_cons (Bool.eq_false_iff.mpr digit), Option.orElse_none] at read
        obtain ⟨first, behind, same, kind⟩ := readNumber?_start read
        refine ⟨first, behind, same, kind.imp id fun member => ?_⟩
        exact List.mem_append_right ['t', 'f', '"', '\''] member
  · contradiction

/-- A value begins with nothing that is skipped, and not with the end of a list. -/
theorem readValue?_start {depth : Nat} {cs : List Char} {result : Data × List Char}
    (read : readValue? depth cs = some result) : ∃ c tail, cs = c :: tail ∧ c ∉ [' ', '\t', '#', '\n', '\r', ']'] := by
  cases depth with
  | zero => exact absurd read (by simp [readValue?])
  | succ depth =>
    unfold readValue? at read
    split at read
    · exact ⟨'[', _, rfl, by decide⟩
    · exact ⟨'\x7b', _, rfl, by decide⟩
    · obtain ⟨c, tail, same, digit | mark⟩ := readScalar?_start read
      · refine ⟨c, tail, same, fun member => ?_⟩
        have skipped : ∀ c ∈ [' ', '\t', '#', '\n', '\r', ']'], c.isDigit = false := by simp
        exact absurd digit (by simp [skipped c member])
      · refine ⟨c, tail, same, ?_⟩
        have kept : ∀ c ∈ ['t', 'f', '"', '\'', '+', '-', 'i', 'n'], c ∉ [' ', '\t', '#', '\n', '\r', ']'] := by simp
        exact kept c mark

theorem skipBlanks_of_not_isBlank {c : Char} {tail : List Char} (other : isBlank c = false) :
    skipBlanks (c :: tail) = c :: tail := by
  rw [skipBlanks, List.dropWhile_cons_of_neg (by simpa using other)]

/-- Nothing is skipped in front of what is neither a blank nor a comment nor a line break. -/
theorem skipSpace_of_not_mem {c : Char} {tail : List Char} (other : c ∉ [' ', '\t', '#', '\n', '\r']) (fuel : Nat) :
    skipSpace fuel (c :: tail) = some (c :: tail) := by
  simp only [List.mem_cons, List.not_mem_nil, or_false, not_or] at other
  obtain ⟨notSpace, notTab, notMark, notFeed, notReturn⟩ := other
  cases fuel with
  | zero => rfl
  | succ fuel =>
    have stays : skipBlanks (c :: tail) = c :: tail :=
      skipBlanks_of_not_isBlank (by simp [isBlank, notSpace, notTab])
    unfold skipSpace
    rw [stays]
    split
    · next same => exact absurd (List.cons.inj same).1 notMark
    · rw [newline?_of_ne notFeed notReturn]

/-- A line break and the blanks in front of the next item are skipped. -/
theorem skipSpace_indented {c : Char} {tail : List Char} (other : c ∉ [' ', '\t', '#', '\n', '\r']) (fuel : Nat) :
    skipSpace (fuel + 2) ('\n' :: ' ' :: ' ' :: ' ' :: ' ' :: c :: tail) = some (c :: tail) := by
  have line : skipSpace (fuel + 2) ('\n' :: ' ' :: ' ' :: ' ' :: ' ' :: c :: tail) =
      skipSpace (fuel + 1) (' ' :: ' ' :: ' ' :: ' ' :: c :: tail) := rfl
  have blanks : skipBlanks (' ' :: ' ' :: ' ' :: ' ' :: c :: tail) = skipBlanks (c :: tail) := rfl
  have behind : skipSpace (fuel + 1) (c :: tail) = some (c :: tail) := skipSpace_of_not_mem other (fuel + 1)
  rw [line]
  unfold skipSpace at behind ⊢
  rw [blanks]
  exact behind

/-- A value is read from its text, whatever follows. -/
def ReadsAs (depth : Nat) (data : Data) (text : String) : Prop :=
  ∀ rest, Ends rest → readValue? depth (text.toList ++ rest) = some (data, rest)

section Items

variable {depth : Nat} {item : Data} {items : List Data} {text : String} {texts : List String}

theorem ends_cons {c : Char} (tail : List Char) (mark : c = '\n' ∨ c = ',' ∨ c = ']') : Ends (c :: tail) := by
  intro first head
  obtain rfl := Option.some.inj head
  exact mark

theorem ReadsAs.start (reads : ReadsAs depth item text) :
    ∃ c tail, text.toList = c :: tail ∧ c ∉ [' ', '\t', '#', '\n', '\r', ']'] := by
  have alone := reads [] (fun _ head => absurd head (by simp))
  rw [List.append_nil] at alone
  exact readValue?_start alone

/-- An item is taken from the front of a list, up to the comma or bracket behind it. -/
theorem readItems?_item (reads : ReadsAs depth item text) {cs rest : List Char} (ends : Ends rest)
    (front : skipSpace cs.length cs = some (text.toList ++ rest)) (fuel : Nat) (sofar : List Data) :
    readItems? (readValue? depth) (fuel + 1) cs sofar =
      (skipSpace rest.length rest).bind fun rest =>
        match rest with
        | ',' :: rest => readItems? (readValue? depth) fuel rest (item :: sofar)
        | ']' :: rest => some (.list (item :: sofar).reverse, rest)
        | _ => none := by
  obtain ⟨c, tail, same, other⟩ := reads.start
  have value := reads rest ends
  rw [same, List.cons_append] at front value
  rw [readItems?, front]
  simp only [Option.bind_eq_bind, Option.bind_some, value]
  split
  · next bracket => exact absurd (by simp [(List.cons.inj bracket).1]) other
  · rfl

/-- The lines of a list's items. -/
def itemLines (texts : List String) : String :=
  String.join (texts.map fun item => "    " ++ item ++ ",\n")

theorem itemLines_cons (text : String) (texts : List String) : (itemLines (text :: texts)).toList =
    ' ' :: ' ' :: ' ' :: ' ' :: (text.toList ++ ',' :: '\n' :: (itemLines texts).toList) := by
  simp [itemLines]

theorem length_le_itemLines (texts : List String) : texts.length ≤ (itemLines texts).toList.length := by
  induction texts with
  | nil => exact Nat.zero_le _
  | cons text texts ih =>
    simp only [itemLines_cons, List.length_cons, List.length_append]
    omega

/-- The lines of a list, and the bracket behind them. -/
theorem readItems?_lines {rest : List Char} (reads : List.Forall₂ (ReadsAs depth) items texts) :
    ∀ (fuel : Nat) (sofar : List Data), items.length < fuel →
      readItems? (readValue? depth) fuel
        ('\n' :: ((itemLines texts).toList ++ ']' :: rest)) sofar =
        some (.list (sofar.reverse ++ items), rest) := by
  induction reads with
  | nil =>
    intro fuel sofar enough
    obtain ⟨fuel, rfl⟩ := Nat.exists_eq_add_one.mpr enough
    have behind : skipSpace (rest.length + 1) (']' :: rest) = some (']' :: rest) :=
      skipSpace_of_not_mem (by decide) (rest.length + 1)
    have bracket : skipSpace ('\n' :: ']' :: rest).length ('\n' :: ']' :: rest) = some (']' :: rest) := behind
    change readItems? _ _ ('\n' :: ']' :: rest) _ = _
    rw [readItems?, bracket, List.append_nil]
    rfl
  | @cons item text items texts first _ ih =>
    intro fuel sofar enough
    obtain ⟨fuel, rfl⟩ := Nat.exists_eq_add_one_of_ne_zero (Nat.ne_zero_of_lt enough)
    have line : '\n' :: ((itemLines (text :: texts)).toList ++ ']' :: rest) =
        '\n' :: ' ' :: ' ' :: ' ' :: ' ' ::
          (text.toList ++ ',' :: '\n' :: ((itemLines texts).toList ++ ']' :: rest)) := by
      simp [itemLines_cons]
    rw [line]
    generalize (itemLines texts).toList ++ ']' :: rest = behind at ih ⊢
    obtain ⟨c, tail, same, other⟩ := first.start
    have front : skipSpace ('\n' :: ' ' :: ' ' :: ' ' :: ' ' :: (text.toList ++ ',' :: '\n' :: behind)).length
        ('\n' :: ' ' :: ' ' :: ' ' :: ' ' :: (text.toList ++ ',' :: '\n' :: behind)) =
        some (text.toList ++ ',' :: '\n' :: behind) := by
      rw [same, List.cons_append]
      exact skipSpace_indented (fun member => other (List.mem_append_left [']'] member)) _
    have comma : skipSpace (',' :: '\n' :: behind).length (',' :: '\n' :: behind) = some (',' :: '\n' :: behind) :=
      skipSpace_of_not_mem (by decide) _
    rw [readItems?_item first (ends_cons _ (by decide)) front, comma]
    change readItems? _ fuel ('\n' :: behind) (item :: sofar) = _
    rw [ih fuel (item :: sofar) (by simpa using enough), List.reverse_cons, List.append_assoc, List.singleton_append]

/-- A list is read item by item. -/
theorem readsAs_writeList (inner : depth ≠ 0) (reads : List.Forall₂ (ReadsAs depth) items texts) :
    ReadsAs (depth + 1) (.list items) (writeList texts) := by
  intro rest _
  have opened (tail : List Char) : readValue? (depth + 1) ('[' :: tail) =
      readItems? (readValue? depth) (tail.length + 1) tail [] := by
    simp [readValue?, inner]
  have bracket : skipSpace (']' :: rest).length (']' :: rest) = some (']' :: rest) :=
    skipSpace_of_not_mem (by decide) _
  match reads with
  | .nil =>
    change readValue? (depth + 1) ('[' :: ']' :: rest) = _
    rw [opened, readItems?, bracket]
    rfl
  | @List.Forall₂.cons _ _ _ item text _ _ first .nil =>
    have line : (writeList [text]).toList ++ rest = '[' :: (text.toList ++ ']' :: rest) := by
      simp [writeList]
    obtain ⟨c, tail, same, other⟩ := first.start
    have front : skipSpace (text.toList ++ ']' :: rest).length (text.toList ++ ']' :: rest) =
        some (text.toList ++ ']' :: rest) := by
      rw [same, List.cons_append]
      exact skipSpace_of_not_mem (fun member => other (List.mem_append_left [']'] member)) _
    rw [line, opened, readItems?_item first (ends_cons _ (by decide)) front, bracket]
    rfl
  | @List.Forall₂.cons _ _ _ item text _ _ first (@List.Forall₂.cons _ _ _ item' text' items' texts' second others) =>
    have lines : (writeList (text :: text' :: texts')).toList ++ rest =
        '[' :: '\n' :: ((itemLines (text :: text' :: texts')).toList ++ ']' :: rest) := by
      simp [writeList, itemLines]
    have same : (item :: item' :: items').length = (text :: text' :: texts').length :=
      (List.Forall₂.cons first (.cons second others)).length_eq
    have enough := length_le_itemLines (text :: text' :: texts')
    rw [lines, opened, readItems?_lines (.cons first (.cons second others)) _ _
      (by simp only [same, List.length_cons, List.length_append] at enough ⊢; omega)]
    rfl

end Items

mutual

/-- How deep lists are nested in a value. -/
def nesting : Data → Nat
  | .list items => itemsNesting items + 1
  | _ => 0

/-- How deep lists are nested in the items of a list. -/
def itemsNesting : List Data → Nat
  | [] => 0
  | item :: rest => max (nesting item) (itemsNesting rest)

end

/-- A value without parts is read as a scalar. -/
theorem readsAs_of_readScalar? {depth : Nat} {data : Data} {text : String}
    (reads : ∀ rest, Ends rest → readScalar? (text.toList ++ rest) = some (data, rest)) :
    ReadsAs (depth + 1) data text := by
  intro rest ends
  have read := reads rest ends
  obtain ⟨c, tail, same, kind⟩ := readScalar?_start read
  rw [same] at read ⊢
  have other : c ≠ '[' ∧ c ≠ '\x7b' := by
    constructor
    · rintro rfl
      revert kind
      decide
    · rintro rfl
      revert kind
      decide
  simp [readValue?, other, read]

/-- A text in quotes is read as a scalar. -/
theorem readScalar?_writeText (text : String) {rest : List Char} (ends : Ends rest) :
    readScalar? ((writeText text).toList ++ rest) = some (.text text, rest) := by
  have read := readText?_writeText text ends
  obtain ⟨c, tail, same, quote⟩ : ∃ c tail, (writeText text).toList = c :: tail ∧ (c = '"' ∨ c = '\'') := by
    unfold writeText
    cases chosen : quotesFor text.toList <;> simp [chosen]
  rw [same, List.cons_append] at read ⊢
  obtain rfl | rfl := quote <;> simp [readScalar?, read]

mutual

/-- Every value is read from what is written of it. -/
theorem readsAs_writeValue? : ∀ (data : Data) (text : String) (depth : Nat), writeValue? data = some text →
    nesting data < depth → ReadsAs depth data text
  | .bool true, text, depth + 1, written, _ => by
    obtain rfl := Option.some.inj written
    exact readsAs_of_readScalar? fun rest _ => rfl
  | .bool false, text, depth + 1, written, _ => by
    obtain rfl := Option.some.inj written
    exact readsAs_of_readScalar? fun rest _ => rfl
  | .int value, text, depth + 1, written, _ => by
    rw [writeValue?] at written
    split at written
    · next fits =>
      obtain rfl := Option.some.inj written
      exact readsAs_of_readScalar? fun rest ends => readScalar?_intText (by simpa using fits) ends
    · contradiction
  | .float value, text, depth + 1, written, _ => by
    obtain rfl := Option.some.inj written
    exact readsAs_of_readScalar? fun _ ends => readScalar?_setting value ends
  | .text value, text, depth + 1, written, _ => by
    obtain rfl := Option.some.inj written
    exact readsAs_of_readScalar? fun rest ends => readScalar?_writeText value ends
  | .list items, text, depth + 1, written, bound => by
    rw [writeValue?] at written
    cases inner : writeItems? items with
    | none =>
      rw [inner] at written
      contradiction
    | some texts =>
      rw [inner] at written
      obtain rfl := Option.some.inj written
      have deeper : itemsNesting items < depth := Nat.lt_of_succ_lt_succ bound
      exact readsAs_writeList (Nat.ne_zero_of_lt deeper) (readsAs_writeItems? items texts depth inner deeper)
  | .null, text, _, written, _ => by
    have nothing : writeValue? (.null) = none := by simp [writeValue?]
    rw [nothing] at written
    contradiction
  | .record fields, text, _, written, _ => by
    have nothing : writeValue? (.record fields) = none := by simp [writeValue?]
    rw [nothing] at written
    contradiction
  | .unreadable, text, _, written, _ => by
    have nothing : writeValue? (.unreadable) = none := by simp [writeValue?]
    rw [nothing] at written
    contradiction

theorem readsAs_writeItems? : ∀ (items : List Data) (texts : List String) (depth : Nat),
    writeItems? items = some texts → itemsNesting items < depth → List.Forall₂ (ReadsAs depth) items texts
  | [], texts, depth, written, _ => by
    obtain rfl := Option.some.inj written
    exact .nil
  | item :: items, texts, depth, written, bound => by
    rw [writeItems?] at written
    rw [itemsNesting, Nat.max_lt] at bound
    split at written
    · next text texts' first others =>
      obtain rfl := Option.some.inj written
      exact .cons (readsAs_writeValue? item text depth first bound.1)
        (readsAs_writeItems? items texts' depth others bound.2)
    · contradiction

end

end HedgedForecast.Toml
