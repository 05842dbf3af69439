import HedgedForecast.Toml.Scalar
import HedgedForecast.Toml.Writer
import Mathlib.Data.List.TakeWhile

/-! # Texts in settings files

A text is read back from the quotes in which it is written, whichever these are: what needs an escape has one, no run
of quotes inside looks like the end, and a line break behind the opening quotes is added where one would be dropped.
-/

namespace HedgedForecast.Toml

/-- What may follow a value: a line break, or the comma or bracket of a list. -/
def Ends (rest : List Char) : Prop :=
  ∀ c ∈ rest.head?, c = '\n' ∨ c = ',' ∨ c = ']'

theorem Ends.head?_ne {rest : List Char} (ends : Ends rest) (mark : Char)
    (other : mark ≠ '\n' ∧ mark ≠ ',' ∧ mark ≠ ']') : rest.head? ≠ some mark := by
  intro head
  obtain rfl | rfl | rfl := ends mark head
  · exact other.1 rfl
  · exact other.2.1 rfl
  · exact other.2.2 rfl

/-- What stands for itself is neither a control nor a line break. -/
theorem isPlain_of_not_needsEscape {c : Char} (bare : needsEscape c = false) (inline : c ≠ '\n') :
    isPlain c = true := by
  simp only [needsEscape, Bool.or_eq_false_iff, Bool.and_eq_false_iff, decide_eq_false_iff_not, bne_eq_false_iff_eq,
    beq_eq_false_iff_ne] at bare
  obtain ⟨(wide | rfl) | rfl, printed⟩ := bare
  · simp only [isPlain, Bool.or_eq_true, Bool.and_eq_true, decide_eq_true_eq, bne_iff_ne]
    exact .inr ⟨by omega, printed⟩
  · rfl
  · exact absurd rfl inline

theorem newline?_of_ne {c : Char} {rest : List Char} (notFeed : c ≠ '\n') (notReturn : c ≠ '\r') :
    newline? (c :: rest) = none := by
  simp [newline?, notFeed, notReturn]

/-- The four digits of a control are read as that control. -/
theorem readCode?_hexUpper {c : Char} (rest : List Char) (control : needsEscape c = true) :
    readCode? 4 ((Text.hexUpper 4 c.toNat).toList ++ rest) = some (c, rest) := by
  have small : c.toNat < 128 := by
    simp only [needsEscape, Bool.or_eq_true, Bool.and_eq_true, decide_eq_true_eq, beq_iff_eq] at control
    omega
  have digits : ∀ code < 128, (Text.hexUpper 4 code).toList.length = 4 ∧
      (Text.hexUpper 4 code).toList.mapM Text.hexValue? =
        some [code / 4096, code / 256 % 16, code / 16 % 16, code % 16] := by
    decide +kernel
  obtain ⟨width, values⟩ := digits c.toNat small
  have code : (((0 * 16 + c.toNat / 4096) * 16 + c.toNat / 256 % 16) * 16 + c.toNat / 16 % 16) * 16 + c.toNat % 16 =
      c.toNat := by omega
  simp only [readCode?, List.take_left' width, List.drop_left' width, values, Option.bind_eq_bind, Option.bind_some,
    List.foldl_cons, List.foldl_nil, code, List.length_cons, List.length_nil]
  have valid : c.toNat.isValidChar := c.valid
  simp [valid, Char.ofNat_toNat]

/-- An escape is read as the character that it stands for; a character without escape stands for itself. -/
theorem escapeChar_cases (c : Char) :
    (∃ escape, (escapeChar c).toList = '\\' :: escape ∧ ∀ rest, readEscape? (escape ++ rest) = some (c, rest)) ∨
      (escapeChar c).toList = [c] ∧ c ≠ '"' ∧ c ≠ '\\' ∧ c ≠ '\n' ∧ c ≠ '\r' ∧ isPlain c = true := by
  unfold escapeChar
  split_ifs with h1 h2 h3 h4 h5 h6 h7 h8
  any_goals
    obtain rfl := eq_of_beq ‹_›
    exact .inl ⟨_, rfl, fun _ => rfl⟩
  · refine .inl ⟨'u' :: (Text.hexUpper 4 c.toNat).toList, by simp, fun rest => ?_⟩
    exact readCode?_hexUpper rest h8
  · refine .inr ⟨by simp, ?_⟩
    have inline : c ≠ '\n' := by simpa using h3
    refine ⟨by simpa using h6, by simpa using h7, inline, by simpa using h5, ?_⟩
    exact isPlain_of_not_needsEscape (by simpa using h8) inline

/-- Escaped characters are read up to the closing quote. -/
theorem readBasic?_escapeLine (cs rest : List Char) :
    ∀ (fuel : Nat) (sofar : List Char), cs.length < fuel →
      readBasic? fuel ((escapeLine cs).toList ++ '"' :: rest) sofar =
        some (String.ofList (sofar.reverse ++ cs), rest) := by
  induction cs with
  | nil =>
    intro fuel sofar enough
    obtain ⟨fuel, rfl⟩ := Nat.exists_eq_add_one.mpr enough
    simp [escapeLine, readBasic?]
  | cons c cs ih =>
    intro fuel sofar enough
    obtain ⟨fuel, rfl⟩ := Nat.exists_eq_add_one_of_ne_zero (Nat.ne_zero_of_lt enough)
    have next : readBasic? fuel ((escapeLine cs).toList ++ '"' :: rest) (c :: sofar) =
        some (String.ofList (sofar.reverse ++ c :: cs), rest) := by
      rw [ih fuel _ (by simpa using enough), List.reverse_cons, List.append_assoc, List.singleton_append]
    have line : (escapeLine (c :: cs)).toList = (escapeChar c).toList ++ (escapeLine cs).toList := by
      simp [escapeLine]
    rw [line]
    rcases escapeChar_cases c with ⟨escape, written, read⟩ | ⟨written, notQuote, notBackslash, _, _, plain⟩
    · rw [written, List.cons_append, List.cons_append, readBasic?, List.append_assoc, read]
      exact next
    · rw [written, List.append_assoc, List.singleton_append, readBasic?, if_neg (by simpa using notQuote),
        if_neg (by simpa using notBackslash), if_pos plain]
      exact next

theorem readLiteral?_append {cs : List Char} (rest : List Char) (plain : ∀ c ∈ cs, c ≠ '\'' ∧ isPlain c = true) :
    readLiteral? (cs ++ '\'' :: rest) = some (String.ofList cs, rest) := by
  have inside : ∀ c ∈ cs, (c != '\'' && isPlain c) = true := by
    intro c member
    rw [Bool.and_eq_true, bne_iff_ne]
    exact plain c member
  rw [readLiteral?, List.dropWhile_append_of_pos inside, List.takeWhile_append_of_pos inside]
  simp

/-- Nowhere do more than two of a character stand in a row. -/
def FewInRow (mark : Char) (cs : List Char) : Prop :=
  ∀ back, back <:+ cs → (back.takeWhile (· == mark)).length ≤ 2

theorem FewInRow.tail {mark c : Char} {cs : List Char} (few : FewInRow mark (c :: cs)) : FewInRow mark cs :=
  fun back suffix => few back (suffix.trans (List.suffix_cons c cs))

/-- The length of the longest run and of the run so far, behind one more character. -/
def countRun (mark : Char) (lengths : Nat × Nat) (c : Char) : Nat × Nat :=
  let current := if c == mark then lengths.2 + 1 else 0
  (max lengths.1 current, current)

theorem le_countRun (mark : Char) (cs : List Char) : ∀ lengths, lengths.1 ≤ (cs.foldl (countRun mark) lengths).1 := by
  induction cs with
  | nil => exact fun lengths => le_rfl
  | cons c cs ih => exact fun lengths => Nat.le_trans (Nat.le_max_left _ _) (ih (countRun mark lengths c))

/-- A run at the start prolongs the run before. -/
theorem leading_le_countRun (mark : Char) (cs : List Char) : ∀ lengths,
    (cs.takeWhile (· == mark)).length = 0 ∨
      lengths.2 + (cs.takeWhile (· == mark)).length ≤ (cs.foldl (countRun mark) lengths).1 := by
  induction cs with
  | nil => exact fun lengths => .inl rfl
  | cons c cs ih =>
    intro lengths
    by_cases same : c == mark
    · have longer : countRun mark lengths c = (max lengths.1 (lengths.2 + 1), lengths.2 + 1) := by
        simp [countRun, same]
      have here := ih (countRun mark lengths c)
      have grown := le_countRun mark cs (countRun mark lengths c)
      rw [List.foldl_cons, List.takeWhile_cons_of_pos (by simpa using same), List.length_cons]
      rw [longer] at here grown ⊢
      have reached : lengths.2 + 1 ≤ max lengths.1 (lengths.2 + 1) := Nat.le_max_right _ _
      simp only at here grown
      omega
    · rw [List.takeWhile_cons_of_neg (by simpa using same)]
      exact .inl rfl

theorem fewInRow_of_countRun (mark : Char) (cs : List Char) : ∀ lengths,
    (cs.foldl (countRun mark) lengths).1 ≤ 2 → FewInRow mark cs := by
  induction cs with
  | nil =>
    intro lengths _ back suffix
    simp [List.suffix_nil.mp suffix]
  | cons c cs ih =>
    intro lengths short back suffix
    rcases List.suffix_cons_iff.mp suffix with rfl | suffix
    · have here := leading_le_countRun mark (c :: cs) lengths
      omega
    · exact ih _ short back suffix

theorem fewInRow_of_longestRun {mark : Char} {cs : List Char} (short : longestRun mark cs ≤ 2) : FewInRow mark cs :=
  fewInRow_of_countRun mark cs (0, 0) short

variable {quote : Char}

/-- A run of quotes ends a text with all but the last three of them. -/
theorem closeQuotes?_replicate {kept : Nat} (few : kept ≤ 2) {rest : List Char} (clear : rest.head? ≠ some quote)
    (sofar : List Char) : closeQuotes? quote (List.replicate kept quote ++ quote :: quote :: quote :: rest) sofar =
      some (String.ofList (sofar.reverse ++ List.replicate kept quote), rest) := by
  have all :
      List.replicate kept quote ++ quote :: quote :: quote :: rest = List.replicate (kept + 3) quote ++ rest := by
    rw [← List.replicate_append_replicate, List.append_assoc]
    rfl
  have run : ((List.replicate (kept + 3) quote ++ rest).takeWhile (· == quote)).length = kept + 3 := by
    rw [List.takeWhile_append_of_pos (by simp +contextual)]
    cases rest with
    | nil => simp
    | cons c rest =>
      have other : c ≠ quote := by simpa using clear
      rw [List.takeWhile_cons_of_neg (by simpa using other)]
      simp
  rw [all, closeQuotes?, run, if_neg (by omega)]
  have same : min (kept + 3 - 3) 2 = kept := by omega
  simp only [same, List.drop_left' List.length_replicate]

theorem closeQuotes?_of_few {run : Nat} (few : run < 3) {c : Char} (other : c ≠ quote) (more sofar : List Char) :
    closeQuotes? quote (List.replicate run quote ++ c :: more) sofar = none := by
  have length : ((List.replicate run quote ++ c :: more).takeWhile (· == quote)).length = run := by
    rw [List.takeWhile_append_of_pos (by simp +contextual), List.takeWhile_cons_of_neg (by simpa using other)]
    simp
  rw [closeQuotes?, length, if_pos few]

/-- A text consists of quotes alone or goes on behind those at its start. -/
theorem exists_leading (cs : List Char) (few : FewInRow quote cs) :
    ∃ run ≤ 2, cs = List.replicate run quote ∨ ∃ c more, c ≠ quote ∧ cs = List.replicate run quote ++ c :: more := by
  refine ⟨(cs.takeWhile (· == quote)).length, few cs (List.suffix_refl cs), ?_⟩
  have front : cs.takeWhile (· == quote) = List.replicate (cs.takeWhile (· == quote)).length quote := by
    refine List.eq_replicate_of_mem fun c member => ?_
    simpa using List.mem_takeWhile_imp (p := (· == quote)) member
  have split := List.takeWhile_append_dropWhile (p := (· == quote)) (l := cs)
  cases behind : cs.dropWhile (· == quote) with
  | nil =>
    rw [behind, List.append_nil] at split
    rw [← front]
    exact .inl split.symm
  | cons c more =>
    have other : c ≠ quote := by
      have stop := List.head?_dropWhile_not (· == quote) cs
      rw [behind] at stop
      simpa using stop
    rw [behind] at split
    rw [← front]
    exact .inr ⟨c, more, other, split.symm⟩

theorem readLongLiteral?_append {rest : List Char} (clear : rest.head? ≠ some '\'') (cs : List Char) :
    ∀ (fuel : Nat) (sofar : List Char), cs.length < fuel → (∀ c ∈ cs, needsEscape c = false) → FewInRow '\'' cs →
      readLongLiteral? fuel (cs ++ '\'' :: '\'' :: '\'' :: rest) sofar =
        some (String.ofList (sofar.reverse ++ cs), rest) := by
  induction cs with
  | nil =>
    intro fuel sofar enough _ _
    obtain ⟨fuel, rfl⟩ := Nat.exists_eq_add_one.mpr enough
    have closed := closeQuotes?_replicate (Nat.zero_le 2) clear sofar
    rw [List.replicate_zero, List.nil_append] at closed
    simp [readLongLiteral?, closed]
  | cons c cs ih =>
    intro fuel sofar enough bare few
    obtain ⟨fuel, rfl⟩ := Nat.exists_eq_add_one_of_ne_zero (Nat.ne_zero_of_lt enough)
    have next : readLongLiteral? fuel (cs ++ '\'' :: '\'' :: '\'' :: rest) (c :: sofar) =
        some (String.ofList (sofar.reverse ++ c :: cs), rest) := by
      rw [ih fuel _ (by simpa using enough) (fun c member => bare c (List.mem_cons_of_mem _ member)) few.tail,
        List.reverse_cons, List.append_assoc, List.singleton_append]
    rw [List.cons_append, readLongLiteral?]
    by_cases quoted : c = '\''
    · rw [if_pos (by simpa using quoted), ← List.cons_append]
      obtain ⟨run, bound, alone | ⟨other, more, differs, behind⟩⟩ := exists_leading _ few
      · rw [alone, closeQuotes?_replicate bound clear]
      · have open' := closeQuotes?_of_few (Nat.lt_succ_of_le bound) differs
          (more ++ '\'' :: '\'' :: '\'' :: rest) sofar
        rw [← List.cons_append, ← List.append_assoc, ← behind] at open'
        rw [open']
        exact next
    · rw [if_neg (by simpa using quoted)]
      by_cases feed : c = '\n'
      · subst feed
        exact next
      · have plain := isPlain_of_not_needsEscape (bare c List.mem_cons_self) feed
        have notReturn : c ≠ '\r' := by
          rintro rfl
          exact absurd plain (by decide)
        rw [newline?_of_ne feed notReturn]
        simp only [plain, if_true]
        exact next

section EscapeLong

variable {c : Char} {cs : List Char} {before : Nat}

theorem escapeLong_feed : (escapeLong before ('\n' :: cs)).toList = '\n' :: (escapeLong 0 cs).toList := by
  simp [escapeLong]

theorem escapeLong_quote (room : before ≠ 2) :
    (escapeLong before ('"' :: cs)).toList = '"' :: (escapeLong (before + 1) cs).toList := by
  simp [escapeLong, room]

theorem escapeLong_third : (escapeLong 2 ('"' :: cs)).toList = '\\' :: '"' :: (escapeLong 0 cs).toList := by
  simp [escapeLong]

theorem escapeLong_other (notFeed : c ≠ '\n') (notQuote : c ≠ '"') :
    (escapeLong before (c :: cs)).toList = (escapeChar c).toList ++ (escapeLong 0 cs).toList := by
  simp [escapeLong, notFeed, notQuote]

end EscapeLong

/-- Quotes at the start of an escaped text are few, and if nothing else stands there, then in the text itself. -/
theorem escapeLong_leading (cs : List Char) : ∀ before ≤ 2,
    ∃ run, run + before ≤ 2 ∧
      (cs = List.replicate run '"' ∧ (escapeLong before cs).toList = List.replicate run '"' ∨
        ∃ c more, c ≠ '"' ∧ (escapeLong before cs).toList = List.replicate run '"' ++ c :: more) := by
  induction cs with
  | nil => exact fun before few => ⟨0, by omega, .inl ⟨rfl, by simp [escapeLong]⟩⟩
  | cons c cs ih =>
    intro before few
    by_cases feed : c = '\n'
    · subst feed
      exact ⟨0, by omega, .inr ⟨'\n', _, by decide, escapeLong_feed⟩⟩
    by_cases quoted : c = '"'
    · subst quoted
      by_cases third : before = 2
      · subst third
        exact ⟨0, by omega, .inr ⟨'\\', _, by decide, escapeLong_third⟩⟩
      · rw [escapeLong_quote third]
        obtain ⟨run, bound, ⟨same, written⟩ | ⟨other, more, differs, written⟩⟩ := ih (before + 1) (by omega)
        · refine ⟨run + 1, by omega, .inl ⟨by rw [same, List.replicate_succ], ?_⟩⟩
          rw [written, List.replicate_succ]
        · refine ⟨run + 1, by omega, .inr ⟨other, more, differs, ?_⟩⟩
          rw [written, List.replicate_succ, List.cons_append]
    · rw [escapeLong_other feed quoted]
      rcases escapeChar_cases c with ⟨escape, written, _⟩ | ⟨written, _⟩
      · exact ⟨0, by omega, .inr ⟨'\\', escape ++ (escapeLong 0 cs).toList, by decide, by simp [written]⟩⟩
      · exact ⟨0, by omega, .inr ⟨c, (escapeLong 0 cs).toList, quoted, by simp [written]⟩⟩

/-- A quote closes the text, or is part of it. -/
theorem readLongBasic?_quote (fuel : Nat) (tail sofar : List Char) : readLongBasic? (fuel + 1) ('"' :: tail) sofar =
    (closeQuotes? '"' ('"' :: tail) sofar).or (readLongBasic? fuel tail ('"' :: sofar)) := by
  rw [readLongBasic?, if_pos (beq_self_eq_true _)]
  cases closeQuotes? '"' ('"' :: tail) sofar <;> rfl

/-- An escaped character is read as that character, whatever follows. -/
theorem readLongBasic?_escapeChar {c : Char} (fuel : Nat) (tail sofar : List Char) :
    readLongBasic? (fuel + 1) ((escapeChar c).toList ++ tail) sofar = readLongBasic? fuel tail (c :: sofar) := by
  rcases escapeChar_cases c with
    ⟨escape, written, read⟩ | ⟨written, notQuote, notBackslash, notFeed, notReturn, plain⟩
  · rw [written, List.cons_append, readLongBasic?]
    simp [read]
  · rw [written, List.singleton_append, readLongBasic?, if_neg (by simpa using notQuote),
      if_neg (by simpa using notBackslash), newline?_of_ne notFeed notReturn]
    simp only [plain, if_true]

theorem readLongBasic?_escapeLong {rest : List Char} (clear : rest.head? ≠ some '"') (cs : List Char) :
    ∀ before ≤ 2, ∀ (fuel : Nat) (sofar : List Char), cs.length < fuel →
      readLongBasic? fuel ((escapeLong before cs).toList ++ '"' :: '"' :: '"' :: rest) sofar =
        some (String.ofList (sofar.reverse ++ cs), rest) := by
  induction cs with
  | nil =>
    intro before few fuel sofar enough
    obtain ⟨fuel, rfl⟩ := Nat.exists_eq_add_one.mpr enough
    have closed := closeQuotes?_replicate (Nat.zero_le 2) clear sofar
    rw [List.replicate_zero, List.nil_append] at closed
    simp [escapeLong, readLongBasic?, closed]
  | cons c cs ih =>
    intro before few fuel sofar enough
    obtain ⟨fuel, rfl⟩ := Nat.exists_eq_add_one_of_ne_zero (Nat.ne_zero_of_lt enough)
    have next : ∀ before ≤ 2,
        readLongBasic? fuel ((escapeLong before cs).toList ++ '"' :: '"' :: '"' :: rest) (c :: sofar) =
          some (String.ofList (sofar.reverse ++ c :: cs), rest) := by
      intro before few
      rw [ih before few fuel _ (by simpa using enough), List.reverse_cons, List.append_assoc, List.singleton_append]
    by_cases feed : c = '\n'
    · subst feed
      rw [escapeLong_feed]
      exact next 0 (by omega)
    by_cases quoted : c = '"'
    · subst quoted
      by_cases third : before = 2
      · subst third
        rw [escapeLong_third]
        exact next 0 (by omega)
      obtain ⟨run, bound, ⟨same, written⟩ | ⟨other, more, differs, written⟩⟩ :=
        escapeLong_leading ('"' :: cs) before few
      · rw [written, same]
        cases run with
        | zero => simp at same
        | succ run =>
          rw [List.replicate_succ, List.cons_append, readLongBasic?_quote, ← List.cons_append, ← List.replicate_succ,
            closeQuotes?_replicate (by omega) clear, Option.some_or]
      · have short : run < 3 := Nat.lt_of_le_of_lt (Nat.le_of_add_right_le bound) (by omega)
        have open' := closeQuotes?_of_few short differs (more ++ '"' :: '"' :: '"' :: rest) sofar
        rw [← List.cons_append, ← List.append_assoc, ← written, escapeLong_quote third, List.cons_append] at open'
        rw [escapeLong_quote third, List.cons_append, readLongBasic?_quote, open', Option.none_or]
        exact next (before + 1) (by omega)
    · rw [escapeLong_other feed quoted, List.append_assoc, readLongBasic?_escapeChar]
      exact next 0 (by omega)

/-- A text that needs no escapes has no controls but line breaks. -/
theorem bare_of_any {cs : List Char} (bare : cs.any needsEscape = false) : ∀ c ∈ cs, needsEscape c = false := by
  intro c member
  exact Bool.eq_false_iff.mpr (List.any_eq_false.mp bare c member)

/-- A line break behind opening quotes is dropped, and it is there if the text has any. -/
theorem drop_lead {cs body : List Char} (behind : List Char)
    (start : ∀ c ∈ body.head?, c = '\n' → '\n' ∈ cs) (clean : ∀ c ∈ body.head?, c ≠ '\r')
    (mark : behind.head? ≠ some '\n' ∧ behind.head? ≠ some '\r') :
    (newline? ((if cs.contains '\n' then "\n" else "").toList ++ (body ++ behind))).getD
      ((if cs.contains '\n' then "\n" else "").toList ++ (body ++ behind)) = body ++ behind := by
  by_cases lines : cs.contains '\n'
  · rw [if_pos lines]
    rfl
  · rw [if_neg lines]
    have none' : newline? (body ++ behind) = none := by
      cases body with
      | nil =>
        cases behind with
        | nil => rfl
        | cons c behind => exact newline?_of_ne (by simpa using mark.1) (by simpa using mark.2)
      | cons c body =>
        refine newline?_of_ne (fun feed => lines ?_) (clean c rfl)
        exact List.contains_iff_mem.mpr (start c rfl feed)
    simp [none']

theorem length_le_escapeLine (cs : List Char) : cs.length ≤ (escapeLine cs).toList.length := by
  induction cs with
  | nil => exact Nat.zero_le _
  | cons c cs ih =>
    have line : (escapeLine (c :: cs)).toList = (escapeChar c).toList ++ (escapeLine cs).toList := by
      simp [escapeLine]
    rw [line, List.length_append, List.length_cons]
    rcases escapeChar_cases c with ⟨escape, written, _⟩ | ⟨written, _⟩
    · simp only [written, List.length_cons]
      omega
    · simp only [written, List.length_cons, List.length_nil]
      omega

theorem length_le_escapeLong (cs : List Char) : ∀ before, cs.length ≤ (escapeLong before cs).toList.length := by
  induction cs with
  | nil => exact fun _ => Nat.zero_le _
  | cons c cs ih =>
    intro before
    rw [escapeLong]
    have here := ih 0
    have longer := ih (before + 1)
    split_ifs
    · simp only [String.toList_append, List.length_append, List.length_cons]
      have : "\n".toList.length = 1 := rfl
      omega
    · simp only [String.toList_append, List.length_append, List.length_cons]
      have : "\\\"".toList.length = 2 := rfl
      omega
    · simp only [String.toList_append, List.length_append, List.length_cons]
      have : "\"".toList.length = 1 := rfl
      omega
    · rw [String.toList_append, List.length_append, List.length_cons]
      rcases escapeChar_cases c with ⟨escape, written, _⟩ | ⟨written, _⟩
      · simp only [written, List.length_cons]
        omega
      · simp only [written, List.length_cons, List.length_nil]
        omega

/-- An escaped text begins with a line break only if the text does, and never with the other one. -/
theorem head?_escapeLong {cs : List Char} {c : Char} (head : (escapeLong 0 cs).toList.head? = some c) :
    (c = '\n' → '\n' ∈ cs) ∧ c ≠ '\r' := by
  cases cs with
  | nil => simp [escapeLong] at head
  | cons first cs =>
    by_cases feed : first = '\n'
    · subst feed
      rw [escapeLong_feed, List.head?_cons, Option.some.injEq] at head
      subst head
      exact ⟨fun _ => List.mem_cons_self, by decide⟩
    by_cases quoted : first = '"'
    · subst quoted
      rw [escapeLong_quote (by decide), List.head?_cons, Option.some.injEq] at head
      subst head
      exact ⟨fun same => absurd same (by decide), by decide⟩
    rw [escapeLong_other feed quoted] at head
    rcases escapeChar_cases first with ⟨escape, written, _⟩ | ⟨written, _, _, notFeed, notReturn, _⟩
    · rw [written, List.cons_append, List.head?_cons, Option.some.injEq] at head
      subst head
      exact ⟨fun same => absurd same (by decide), by decide⟩
    · rw [written, List.cons_append, List.head?_cons, Option.some.injEq] at head
      subst head
      exact ⟨fun same => absurd same notFeed, notReturn⟩

/-- What the choice of quotes without escapes promises about a text. -/
theorem quotesFor_literal {cs : List Char} (chosen : quotesFor cs = .literal) :
    cs.any needsEscape = false ∧ '\'' ∉ cs ∧ '\n' ∉ cs := by
  revert chosen
  unfold quotesFor
  simp only
  split_ifs with h1 h2 h3 h4 h5
  all_goals simp_all

theorem quotesFor_longLiteral {cs : List Char} (chosen : quotesFor cs = .longLiteral) :
    cs.any needsEscape = false ∧ longestRun '\'' cs ≤ 2 := by
  revert chosen
  unfold quotesFor
  simp only
  split_ifs with h1 h2 h3 h4 h5
  all_goals simp_all

/-- A text in single quotes is one in a single line, unless two more quotes follow the first. -/
theorem readText?_of_short {quote : Char} {tail : List Char} (short : ∀ behind, tail ≠ quote :: quote :: behind) :
    readText? (quote :: tail) = readLineText? (quote :: tail) := by
  unfold readText?
  split
  · next same =>
    obtain ⟨rfl, rfl⟩ := List.cons.inj same
    exact absurd rfl (short _)
  · next same =>
    obtain ⟨rfl, rfl⟩ := List.cons.inj same
    exact absurd rfl (short _)
  · rfl

/-- An escaped line and its closing quote do not begin with two quotes. -/
theorem escapeLine_short (cs : List Char) {rest : List Char} (clear : rest.head? ≠ some '"') (behind : List Char) :
    (escapeLine cs).toList ++ '"' :: rest ≠ '"' :: '"' :: behind := by
  intro same
  cases cs with
  | nil =>
    have tail : rest = '"' :: behind := (List.cons.inj same).2
    exact clear (by rw [tail, List.head?_cons])
  | cons c cs =>
    have line : (escapeLine (c :: cs)).toList = (escapeChar c).toList ++ (escapeLine cs).toList := by
      simp [escapeLine]
    rw [line] at same
    rcases escapeChar_cases c with ⟨escape, written, _⟩ | ⟨written, notQuote, _⟩
    · rw [written, List.cons_append, List.cons_append] at same
      exact absurd (List.cons.inj same).1 (by decide)
    · rw [written, List.cons_append, List.cons_append] at same
      exact notQuote (List.cons.inj same).1

section Quotes

variable {s : String} {rest : List Char}

theorem readText?_of_basic (noQuote : rest.head? ≠ some '"') (chosen : quotesFor s.toList = .basic) :
    readText? ((writeText s).toList ++ rest) = some (s, rest) := by
  have whole : ("\"" ++ escapeLine s.toList ++ "\"").toList ++ rest =
      '"' :: ((escapeLine s.toList).toList ++ '"' :: rest) := by simp
  have enough := length_le_escapeLine s.toList
  simp only [writeText, chosen]
  rw [whole, readText?_of_short (escapeLine_short _ noQuote), readLineText?,
    readBasic?_escapeLine _ _ _ _ (by rw [List.length_append]; omega)]
  simp

theorem readText?_of_literal (noApostrophe : rest.head? ≠ some '\'') (chosen : quotesFor s.toList = .literal) :
    readText? ((writeText s).toList ++ rest) = some (s, rest) := by
  obtain ⟨bare, free, inline⟩ := quotesFor_literal chosen
  have whole : ("'" ++ s ++ "'").toList ++ rest = '\'' :: (s.toList ++ '\'' :: rest) := by simp
  have plain : ∀ c ∈ s.toList, c ≠ '\'' ∧ isPlain c = true := by
    intro c member
    refine ⟨fun same => free (same ▸ member), ?_⟩
    exact isPlain_of_not_needsEscape (bare_of_any bare c member) fun same => inline (same ▸ member)
  have short : ∀ behind, s.toList ++ '\'' :: rest ≠ '\'' :: '\'' :: behind := by
    intro behind same
    cases content : s.toList with
    | nil =>
      rw [content] at same
      exact noApostrophe (by rw [(List.cons.inj same).2, List.head?_cons])
    | cons c cs =>
      rw [content] at same free
      exact free ((List.cons.inj same).1 ▸ List.mem_cons_self)
  simp only [writeText, chosen]
  rw [whole, readText?_of_short short, readLineText?, readLiteral?_append rest plain]
  simp

theorem readText?_of_longBasic (noQuote : rest.head? ≠ some '"') (chosen : quotesFor s.toList = .longBasic) :
    readText? ((writeText s).toList ++ rest) = some (s, rest) := by
  have enough := length_le_escapeLong s.toList 0
  have start := fun c head => @head?_escapeLong s.toList c head
  have dropped := drop_lead ('"' :: '"' :: '"' :: rest) (fun c head => (start c head).1)
    (fun c head => (start c head).2) (by simp)
  simp only [writeText, chosen, String.toList_append, List.append_assoc]
  generalize (if s.toList.contains '\n' then "\n" else "").toList = lead at dropped ⊢
  change readText? ('"' :: '"' :: '"' :: (lead ++ ((escapeLong 0 s.toList).toList ++ '"' :: '"' :: '"' :: rest))) = _
  rw [readText?, dropped, readLongBasic?_escapeLong noQuote _ 0 (by omega) _ _
    (by simp only [List.length_append]; omega)]
  simp

theorem readText?_of_longLiteral (noApostrophe : rest.head? ≠ some '\'')
    (chosen : quotesFor s.toList = .longLiteral) : readText? ((writeText s).toList ++ rest) = some (s, rest) := by
  obtain ⟨bare, short⟩ := quotesFor_longLiteral chosen
  have clean : ∀ c ∈ s.toList.head?, c ≠ '\r' := by
    rintro c head rfl
    exact absurd (bare_of_any bare _ (List.mem_of_mem_head? head)) (by decide)
  have dropped := drop_lead ('\'' :: '\'' :: '\'' :: rest)
    (fun c head same => same ▸ List.mem_of_mem_head? head) clean (by simp)
  simp only [writeText, chosen, String.toList_append, List.append_assoc]
  generalize (if s.toList.contains '\n' then "\n" else "").toList = lead at dropped ⊢
  change readText? ('\'' :: '\'' :: '\'' :: (lead ++ (s.toList ++ '\'' :: '\'' :: '\'' :: rest))) = _
  rw [readText?, dropped, readLongLiteral?_append noApostrophe _ _ _ (by simp only [List.length_append]; omega)
    (bare_of_any bare) (fewInRow_of_longestRun short)]
  simp

/-- A text is read back from its quotes. -/
theorem readText?_writeText (s : String) {rest : List Char} (ends : Ends rest) :
    readText? ((writeText s).toList ++ rest) = some (s, rest) := by
  have noQuote := ends.head?_ne '"' (by decide)
  have noApostrophe := ends.head?_ne '\'' (by decide)
  cases chosen : quotesFor s.toList with
  | basic => exact readText?_of_basic noQuote chosen
  | literal => exact readText?_of_literal noApostrophe chosen
  | longBasic => exact readText?_of_longBasic noQuote chosen
  | longLiteral => exact readText?_of_longLiteral noApostrophe chosen

end Quotes

end HedgedForecast.Toml
