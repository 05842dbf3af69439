import HedgedForecast.Proofs.Json.Doubles
import HedgedForecast.Proofs.Json.Texts
import Mathlib.Data.List.Forall2

/-! # Values in the interchange notation

A value is read from its text, whatever follows it: lists item by item and records field by field, so that nothing is
lost, added or moved. The fuel of the reader is no limit, since each level of a value has a character of its own.
-/

namespace HedgedForecast.Json

/-- What may follow a value: space, a comma or the end of a list or record. -/
def Ends (rest : List Char) : Prop :=
  ∀ c ∈ rest.head?, isSpace c = true ∨ c = ',' ∨ c = ']' ∨ c = '\x7d'

theorem Ends.endsNumber {rest : List Char} (ends : Ends rest) : EndsNumber rest := by
  intro c head
  obtain space | rfl | rfl | rfl := ends c head
  · simp only [isSpace, Bool.or_eq_true, beq_iff_eq] at space
    obtain ((rfl | rfl) | rfl) | rfl := space <;> decide
  all_goals decide

theorem ends_cons {c : Char} (tail : List Char) (mark : c = ',' ∨ c = ']' ∨ c = '\x7d') : Ends (c :: tail) := by
  rintro _ ⟨⟩
  exact .inr mark

/-- The characters are read as the value, whatever follows them. -/
structure ReadsAs (cs : List Char) (data : Data) : Prop where
  start : ∃ c tail, cs = c :: tail ∧ isSpace c = false ∧ c ≠ ']'
  read : ∀ fuel rest, cs.length < fuel → Ends rest → readValue? fuel (cs ++ rest) = some (data, rest)

/-- Only space. -/
def AllSpace (cs : List Char) : Prop :=
  ∀ c ∈ cs, isSpace c = true

theorem allSpace_nil : AllSpace [] :=
  nofun

theorem skipSpace_cons {c : Char} (tail : List Char) (visible : isSpace c = false) :
    skipSpace (c :: tail) = c :: tail :=
  List.dropWhile_cons_of_neg (Bool.eq_false_iff.mp visible)

theorem skipSpace_append {space : List Char} (blank : AllSpace space) (rest : List Char) :
    skipSpace (space ++ rest) = skipSpace rest :=
  List.dropWhile_append_of_pos blank

theorem readValue?_append {space : List Char} (blank : AllSpace space) (fuel : Nat) (rest : List Char) :
    readValue? fuel (space ++ rest) = readValue? fuel rest := by
  cases fuel with
  | zero => rfl
  | succ fuel => rw [readValue?, readValue?, skipSpace_append blank]

theorem skipSpace_skipSpace (cs : List Char) : skipSpace (skipSpace cs) = skipSpace cs :=
  List.dropWhile_idempotent isSpace cs

theorem readValue?_skipSpace (fuel : Nat) (cs : List Char) : readValue? fuel (skipSpace cs) = readValue? fuel cs := by
  cases fuel with
  | zero => rfl
  | succ fuel => rw [readValue?, readValue?, skipSpace_skipSpace]

theorem readItems?_skipSpace (fuel : Nat) (cs : List Char) (sofar : List Data) :
    readItems? fuel (skipSpace cs) sofar = readItems? fuel cs sofar := by
  cases fuel with
  | zero => rfl
  | succ fuel => rw [readItems?, readItems?, readValue?_skipSpace]

theorem readMembers?_skipSpace (fuel : Nat) (cs : List Char) (sofar : List (String × Data)) :
    readMembers? fuel (skipSpace cs) sofar = readMembers? fuel cs sofar := by
  cases fuel with
  | zero => rfl
  | succ fuel => rw [readMembers?, readMembers?, skipSpace_skipSpace]

/-- A text that holds a value and space around it is read as the value. -/
theorem read?_of_readsAs {s : String} {before cs after : List Char} {data : Data} (reads : ReadsAs cs data)
    (text : s.toList = before ++ cs ++ after) (blank : AllSpace before) (blank' : AllSpace after) :
    read? s = some data := by
  have ends : Ends after := fun c head => .inl (blank' c (List.mem_of_mem_head? head))
  have nothing : skipSpace after = [] := by
    have skipped := skipSpace_append blank' []
    rwa [List.append_nil] at skipped
  have enough : cs.length < 2 * s.toList.length + 2 := by
    rw [text, List.length_append, List.length_append]
    omega
  have value := reads.read _ after enough ends
  rw [← readValue?_append blank, ← List.append_assoc, ← text] at value
  simp only [read?, value, nothing, List.isEmpty_nil, if_true]

/-- One step of the reader is enough for a value without parts. -/
theorem readsAs_of_step {c : Char} {tail : List Char} {data : Data} (visible : isSpace c = false) (other : c ≠ ']')
    (step : ∀ fuel rest, Ends rest → readValue? (fuel + 1) (c :: tail ++ rest) = some (data, rest)) :
    ReadsAs (c :: tail) data where
  start := ⟨c, tail, rfl, visible, other⟩
  read fuel rest enough ends := by
    obtain ⟨fuel, rfl⟩ := Nat.exists_eq_add_one_of_ne_zero (Nat.ne_zero_of_lt enough)
    exact step fuel rest ends

theorem readsAs_null : ReadsAs "null".toList .null :=
  readsAs_of_step (by decide) (by decide) fun _ _ _ => rfl

theorem readsAs_true : ReadsAs "true".toList (.bool true) :=
  readsAs_of_step (by decide) (by decide) fun _ _ _ => rfl

theorem readsAs_false : ReadsAs "false".toList (.bool false) :=
  readsAs_of_step (by decide) (by decide) fun _ _ _ => rfl

theorem readsAs_emptyList : ReadsAs "[]".toList (.list []) :=
  readsAs_of_step (by decide) (by decide) fun _ _ _ => rfl

theorem readsAs_emptyRecord : ReadsAs "\x7b\x7d".toList (.record []) :=
  readsAs_of_step (by decide) (by decide) fun _ _ _ => rfl

theorem readsAs_text (s : String) : ReadsAs (writeText s).toList (.text s) := by
  rw [toList_writeText]
  refine readsAs_of_step (by decide) (by decide) fun fuel rest _ => ?_
  rw [List.cons_append, List.append_assoc, List.singleton_append, readValue?, skipSpace_cons _ (by decide)]
  simp only [readText?_writeText]

/-- A number begins with its sign or with a digit. -/
theorem Spelling.WellFormed.start {spelling : Spelling} (wellFormed : spelling.WellFormed) :
    ∃ c tail, spelling.toChars = c :: tail ∧ (c = '-' ∨ c.isDigit = true) := by
  obtain ⟨c, cs, same, digit⟩ := Toml.exists_cons_whole wellFormed.whole
  unfold Spelling.toChars
  cases spelling.negative with
  | true => exact ⟨'-', _, rfl, .inl rfl⟩
  | false => exact ⟨c, _, by rw [same]; rfl, .inr digit⟩

section Start

variable {c : Char} (start : c = '-' ∨ c.isDigit = true)

include start

theorem ne_of_start (mark : Char) (notSign : mark ≠ '-') (notDigit : mark.isDigit = false) : c ≠ mark := by
  rintro rfl
  obtain rfl | digit := start
  · exact notSign rfl
  · exact absurd digit (by simp [notDigit])

theorem isSpace_of_start : isSpace c = false := by
  simp [isSpace, ne_of_start start ' ' (by decide) (by decide), ne_of_start start '\t' (by decide) (by decide),
    ne_of_start start '\n' (by decide) (by decide), ne_of_start start '\r' (by decide) (by decide)]

theorem readValue?_number (tail : List Char) (fuel : Nat) :
    readValue? (fuel + 1) (c :: tail) = readNumber? (c :: tail) := by
  have other := ne_of_start start
  rw [readValue?, skipSpace_cons tail (isSpace_of_start start)]
  split
  · next same => exact absurd (List.cons.inj same).1 (other 'n' (by decide) (by decide))
  · next same => exact absurd (List.cons.inj same).1 (other 't' (by decide) (by decide))
  · next same => exact absurd (List.cons.inj same).1 (other 'f' (by decide) (by decide))
  · next same => exact absurd (List.cons.inj same).1 (other '"' (by decide) (by decide))
  · next same => exact absurd (List.cons.inj same).1 (other '[' (by decide) (by decide))
  · next same => exact absurd (List.cons.inj same).1 (other '\x7b' (by decide) (by decide))
  · rfl

end Start

theorem readsAs_number {spelling : Spelling} (wellFormed : spelling.WellFormed) :
    ReadsAs spelling.toChars spelling.toNumeral.toData := by
  obtain ⟨c, tail, same, start⟩ := wellFormed.start
  rw [same]
  refine readsAs_of_step (isSpace_of_start start) (ne_of_start start _ (by decide) (by decide)) fun fuel rest ends => ?_
  have number := readNumber?_append wellFormed ends.endsNumber
  rw [same, List.cons_append] at number
  rw [List.cons_append, readValue?_number start, number]

/-- Parts with commas between them. -/
def joined : List (List Char) → List Char
  | [] => []
  | [part] => part
  | part :: next :: rest => part ++ ',' :: joined (next :: rest)

theorem length_le_joined {part : List Char} {parts : List (List Char)} (member : part ∈ parts) :
    part.length ≤ (joined parts).length := by
  induction parts with
  | nil => contradiction
  | cons first parts ih =>
    cases parts with
    | nil => rw [joined, List.mem_singleton.mp member]
    | cons next parts =>
      rw [joined, List.length_append, List.length_cons]
      obtain rfl | later := List.mem_cons.mp member
      · omega
      · have := ih later
        omega

/-- The mark behind a part, with space in front of it. -/
structure IsBehind (rest : List Char) (mark : Char) (tail : List Char) : Prop where
  ends : Ends rest
  skip : skipSpace rest = mark :: tail

theorem isBehind_append (space : List Char) (blank : AllSpace space) {mark : Char} (tail : List Char)
    (isMark : mark = ',' ∨ mark = ']' ∨ mark = '\x7d') : IsBehind (space ++ mark :: tail) mark tail where
  ends c head := by
    cases space with
    | nil => exact ends_cons tail isMark c head
    | cons first space =>
      cases head
      exact .inl (blank _ List.mem_cons_self)
  skip := by
    rw [skipSpace_append blank]
    refine skipSpace_cons tail ?_
    obtain rfl | rfl | rfl := isMark <;> rfl

theorem isBehind_cons {mark : Char} (tail : List Char) (isMark : mark = ',' ∨ mark = ']' ∨ mark = '\x7d') :
    IsBehind (mark :: tail) mark tail :=
  isBehind_append [] allSpace_nil tail isMark

/-- An item of a list, with space in front of it. -/
def ReadsItem (part : List Char) (data : Data) : Prop :=
  ∃ before cs, part = before ++ cs ∧ AllSpace before ∧ ReadsAs cs data

theorem ReadsAs.readsItem {cs : List Char} {data : Data} (reads : ReadsAs cs data) : ReadsItem cs data :=
  ⟨[], cs, rfl, allSpace_nil, reads⟩

theorem ReadsItem.read {part : List Char} {data : Data} (reads : ReadsItem part data) {fuel : Nat} {rest : List Char}
    (enough : part.length < fuel) (ends : Ends rest) : readValue? fuel (part ++ rest) = some (data, rest) := by
  obtain ⟨before, cs, rfl, blank, reads⟩ := reads
  rw [List.length_append] at enough
  rw [List.append_assoc, readValue?_append blank, reads.read fuel rest (by omega) ends]

/-- The first item does not begin with the end of the list. -/
theorem ReadsItem.start {part : List Char} {data : Data} (reads : ReadsItem part data) (rest : List Char) :
    ∃ c tail, skipSpace (part ++ rest) = c :: tail ∧ c ≠ ']' := by
  obtain ⟨before, cs, rfl, blank, reads⟩ := reads
  obtain ⟨c, tail, rfl, visible, other⟩ := reads.start
  exact ⟨c, tail ++ rest, by rw [List.append_assoc, skipSpace_append blank, List.cons_append, skipSpace_cons _ visible],
    other⟩

theorem readItems?_joined {parts : List (List Char)} {results : List Data}
    (reads : List.Forall₂ ReadsItem parts results) (nonempty : parts ≠ []) {rest tail : List Char} (behind : IsBehind rest ']' tail) :
    ∀ (fuel : Nat) (sofar : List Data), (joined parts).length + 1 < fuel →
      readItems? fuel (joined parts ++ rest) sofar = some (.list (sofar.reverse ++ results), tail) := by
  induction reads with
  | nil => exact absurd rfl nonempty
  | @cons part result parts results first others ih =>
    intro fuel sofar enough
    obtain ⟨fuel, rfl⟩ := Nat.exists_eq_add_one_of_ne_zero (Nat.ne_zero_of_lt enough)
    have short := length_le_joined (List.mem_cons_self (a := part) (l := parts))
    cases others with
    | nil =>
      rw [joined, readItems?, first.read (by omega) behind.ends]
      simp only [behind.skip, List.reverse_cons]
    | @cons next result' parts results second others =>
      have behind := ih (List.cons_ne_nil _ _) fuel (result :: sofar)
      have comma := isBehind_cons (joined (next :: parts) ++ rest) (.inl rfl)
      rw [joined, List.length_append, List.length_cons] at enough
      rw [joined, List.append_assoc, List.cons_append, readItems?, first.read (by omega) comma.ends]
      simp only [comma.skip, behind (by omega), List.reverse_cons, List.append_assoc, List.singleton_append]

/-- A list is read item by item. -/
theorem readsAs_list {parts : List (List Char)} {results : List Data} (reads : List.Forall₂ ReadsItem parts results)
    (nonempty : parts ≠ []) {space : List Char} (blank : AllSpace space) :
    ReadsAs ('[' :: (joined parts ++ (space ++ [']']))) (.list results) := by
  refine ⟨⟨'[', _, rfl, by decide, by decide⟩, fun fuel rest enough _ => ?_⟩
  obtain ⟨fuel, rfl⟩ := Nat.exists_eq_add_one_of_ne_zero (Nat.ne_zero_of_lt enough)
  have enough : (joined parts).length + 1 < fuel := by
    simp only [List.length_cons, List.length_append] at enough
    omega
  have whole : '[' :: (joined parts ++ (space ++ [']'])) ++ rest = '[' :: (joined parts ++ (space ++ ']' :: rest)) := by
    simp
  have all := readItems?_joined reads nonempty (isBehind_append space blank rest (.inr (.inl rfl))) fuel [] enough
  obtain ⟨c, tail, same, other⟩ :
      ∃ c tail, skipSpace (joined parts ++ (space ++ ']' :: rest)) = c :: tail ∧ c ≠ ']' := by
    cases reads with
    | nil => exact absurd rfl nonempty
    | @cons part result parts results first others =>
      cases parts with
      | nil => exact first.start _
      | cons next parts =>
        rw [joined, List.append_assoc]
        exact first.start _
  rw [whole, readValue?, skipSpace_cons _ (show isSpace '[' = false from rfl)]
  simp only
  rw [← readItems?_skipSpace, same] at all
  simp only [same]
  split
  · next bracket => exact absurd (List.cons.inj bracket).1 other
  · exact all

/-- A field of a record, with space in front of it. -/
def ReadsField (part : List Char) (field : String × Data) : Prop :=
  ∃ before value, part = before ++ '"' :: (escaped field.1.toList ++ '"' :: ':' :: value) ∧ AllSpace before ∧
    ReadsItem value field.2

section Field

variable {part : List Char} {field : String × Data} (reads : ReadsField part field)

include reads

/-- A field begins with its name, behind which its value stands. -/
theorem ReadsField.exists_value (rest : List Char) : ∃ value, value.length < part.length ∧ ReadsItem value field.2 ∧
    skipSpace (part ++ rest) = '"' :: (escaped field.1.toList ++ '"' :: ':' :: (value ++ rest)) := by
  obtain ⟨before, value, rfl, blank, item⟩ := reads
  refine ⟨value, ?_, item, ?_⟩
  · simp only [List.length_append, List.length_cons]
    omega
  · rw [List.append_assoc, skipSpace_append blank, List.cons_append,
      skipSpace_cons _ (show isSpace '"' = false from rfl)]
    simp

variable {fuel : Nat} {rest tail : List Char} (enough : part.length < fuel + 1)

include enough

theorem ReadsField.read_next (behind : IsBehind rest ',' tail) (sofar : List (String × Data)) :
    readMembers? (fuel + 1) (part ++ rest) sofar = readMembers? fuel tail (field :: sofar) := by
  obtain ⟨value, short, item, same⟩ := reads.exists_value rest
  rw [readMembers?, same]
  simp only [readText?_writeText, skipSpace_cons _ (show isSpace ':' = false from rfl),
    item.read (show value.length < fuel by omega) behind.ends, behind.skip]

theorem ReadsField.read_last (behind : IsBehind rest '\x7d' tail) (sofar : List (String × Data)) :
    readMembers? (fuel + 1) (part ++ rest) sofar = some (.record (field :: sofar).reverse, tail) := by
  obtain ⟨value, short, item, same⟩ := reads.exists_value rest
  rw [readMembers?, same]
  simp only [readText?_writeText, skipSpace_cons _ (show isSpace ':' = false from rfl),
    item.read (show value.length < fuel by omega) behind.ends, behind.skip]

end Field

theorem readMembers?_joined {parts : List (List Char)} {fields : List (String × Data)}
    (reads : List.Forall₂ ReadsField parts fields) (nonempty : parts ≠ []) {rest tail : List Char}
    (behind : IsBehind rest '\x7d' tail) :
    ∀ (fuel : Nat) (sofar : List (String × Data)), (joined parts).length + 1 < fuel →
      readMembers? fuel (joined parts ++ rest) sofar = some (.record (sofar.reverse ++ fields), tail) := by
  induction reads with
  | nil => exact absurd rfl nonempty
  | @cons part field parts fields first others ih =>
    intro fuel sofar enough
    obtain ⟨fuel, rfl⟩ := Nat.exists_eq_add_one_of_ne_zero (Nat.ne_zero_of_lt enough)
    have short := length_le_joined (List.mem_cons_self (a := part) (l := parts))
    cases others with
    | nil =>
      rw [joined, first.read_last (by omega) behind, List.reverse_cons]
    | @cons next field' parts fields second others =>
      have behind := ih (List.cons_ne_nil _ _) fuel (field :: sofar)
      have comma := isBehind_cons (joined (next :: parts) ++ rest) (.inl rfl)
      rw [joined, List.length_append, List.length_cons] at enough
      rw [joined, List.append_assoc, List.cons_append, first.read_next (by omega) comma, behind (by omega),
        List.reverse_cons, List.append_assoc, List.singleton_append]

/-- A record is read field by field. -/
theorem readsAs_record {parts : List (List Char)} {fields : List (String × Data)}
    (reads : List.Forall₂ ReadsField parts fields) (nonempty : parts ≠ []) {space : List Char}
    (blank : AllSpace space) :
    ReadsAs ('\x7b' :: (joined parts ++ (space ++ ['\x7d']))) (.record fields) := by
  refine ⟨⟨'\x7b', _, rfl, by decide, by decide⟩, fun fuel rest enough _ => ?_⟩
  obtain ⟨fuel, rfl⟩ := Nat.exists_eq_add_one_of_ne_zero (Nat.ne_zero_of_lt enough)
  have enough : (joined parts).length + 1 < fuel := by
    simp only [List.length_cons, List.length_append] at enough
    omega
  have whole : '\x7b' :: (joined parts ++ (space ++ ['\x7d'])) ++ rest =
      '\x7b' :: (joined parts ++ (space ++ '\x7d' :: rest)) := by
    simp
  have all := readMembers?_joined reads nonempty (isBehind_append space blank rest (.inr (.inr rfl))) fuel [] enough
  obtain ⟨tail, same⟩ : ∃ tail, skipSpace (joined parts ++ (space ++ '\x7d' :: rest)) = '"' :: tail := by
    cases reads with
    | nil => exact absurd rfl nonempty
    | @cons part field parts fields first others =>
      cases parts with
      | nil =>
        obtain ⟨_, _, _, same⟩ := first.exists_value (space ++ '\x7d' :: rest)
        exact ⟨_, same⟩
      | cons next parts =>
        obtain ⟨_, _, _, same⟩ := first.exists_value (',' :: joined (next :: parts) ++ (space ++ '\x7d' :: rest))
        exact ⟨_, by rw [joined, List.append_assoc, same]⟩
  rw [whole, readValue?, skipSpace_cons _ (show isSpace '\x7b' = false from rfl)]
  rw [← readMembers?_skipSpace, same] at all
  simp only [same]
  exact all

end HedgedForecast.Json
