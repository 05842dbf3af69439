import HedgedForecast.Proofs.Toml.Texts

/-! # Numbers in settings files

Decimal digits are read as the number that they stand for, with and without a sign and with and without a point, as long
as no zero stands in front. Digits with anything but a dash or a colon behind them are not taken for a date or time.
-/

namespace HedgedForecast.Toml

/-- The value of a decimal digit. -/
def digitValue (c : Char) : Nat :=
  c.toNat - 48

/-- Only decimal digits. -/
def AllDigits (cs : List Char) : Prop :=
  ∀ c ∈ cs, c.isDigit = true

/-- The digits of a whole number: at least one, and no zero in front of others. -/
def IsWhole (cs : List Char) : Prop :=
  cs = ['0'] ∨ cs ≠ [] ∧ AllDigits cs ∧ cs.head? ≠ some '0'

theorem IsWhole.allDigits {cs : List Char} (whole : IsWhole cs) : AllDigits cs := by
  obtain rfl | ⟨_, digits, _⟩ := whole
  · exact fun c member => List.mem_singleton.mp member ▸ rfl
  · exact digits

theorem IsWhole.ne_nil {cs : List Char} (whole : IsWhole cs) : cs ≠ [] := by
  obtain rfl | ⟨nonempty, _⟩ := whole
  · exact List.cons_ne_nil _ _
  · exact nonempty

theorem allDigits_natDigits (n : Nat) : AllDigits (Decimal.natDigits n) :=
  fun _ member => Nat.isDigit_of_mem_toDigits (by decide) (by decide) member

/-- No digits have a zero in front but those of zero. -/
theorem head?_natDigits {n : Nat} (positive : 0 < n) : (Decimal.natDigits n).head? ≠ some '0' := by
  induction n using Nat.strongRecOn with
  | ind n ih =>
    unfold Decimal.natDigits at ih ⊢
    by_cases small : n < 10
    · have nonzero : ∀ digit < 10, 0 < digit → digit.digitChar ≠ '0' := by decide
      rw [Nat.toDigits_of_lt_base small, List.head?_cons, ne_eq, Option.some.injEq]
      exact nonzero n small positive
    · have front := ih (n / 10) (by omega) (by omega)
      rw [Nat.toDigits_of_base_le (by decide) (Nat.le_of_not_lt small)]
      cases digits : Nat.toDigits 10 (n / 10) with
      | nil => exact absurd digits Nat.toDigits_ne_nil
      | cons first rest =>
        rw [digits] at front
        exact front

theorem isWhole_natDigits (n : Nat) : IsWhole (Decimal.natDigits n) := by
  cases n with
  | zero => exact .inl (Nat.toDigits_zero 10)
  | succ n => exact .inr ⟨Nat.toDigits_ne_nil, allDigits_natDigits _, head?_natDigits n.succ_pos⟩

theorem hexValue?_of_isDigit {c : Char} (digit : c.isDigit = true) :
    Text.hexValue? c = some (digitValue c) ∧ digitValue c < 10 := by
  have bounds : '0' ≤ c ∧ c ≤ '9' := by
    rw [Char.isDigit, Bool.and_eq_true, decide_eq_true_eq, decide_eq_true_eq] at digit
    exact digit
  refine ⟨by simp [Text.hexValue?, bounds, digitValue], ?_⟩
  have upper : c.toNat ≤ 57 := bounds.2
  rw [digitValue]
  omega

/-- What stops a row of digits: anything but a digit or an underscore. -/
def Stops (rest : List Char) : Prop :=
  ∀ c ∈ rest.head?, c.isDigit = false ∧ c ≠ '_'

theorem Ends.stops {rest : List Char} (ends : Ends rest) : Stops rest := by
  intro c head
  obtain rfl | rfl | rfl := ends c head <;> decide

theorem hexValue?_of_not_isDigit {c : Char} (other : c.isDigit = false) :
    (Text.hexValue? c).any (· < 10) = false := by
  unfold Text.hexValue?
  have outside : ¬('0' ≤ c && c ≤ '9') = true := Bool.eq_false_iff.mp other
  rw [if_neg outside]
  split_ifs with lower upper
  · have low : 97 ≤ c.toNat := by
      simp only [Bool.and_eq_true, decide_eq_true_eq] at lower
      exact lower.1
    simp only [Option.any_some, decide_eq_false_iff_not]
    omega
  · have low : 65 ≤ c.toNat := by
      simp only [Bool.and_eq_true, decide_eq_true_eq] at upper
      exact upper.1
    simp only [Option.any_some, decide_eq_false_iff_not]
    omega
  · rfl

theorem readDigits_append {rest : List Char} (stops : Stops rest) (cs : List Char) : ∀ sofar, AllDigits cs →
    readDigits 10 (cs ++ rest) sofar = (sofar.reverse ++ cs.map digitValue, rest) := by
  induction cs with
  | nil =>
    intro sofar _
    cases rest with
    | nil => simp [readDigits]
    | cons c rest =>
      obtain ⟨other, notUnderscore⟩ := stops c rfl
      simp [readDigits, hexValue?_of_not_isDigit other, notUnderscore]
  | cons c cs ih =>
    intro sofar digits
    obtain ⟨value, bound⟩ := hexValue?_of_isDigit (digits c List.mem_cons_self)
    have next := ih (digitValue c :: sofar) fun c member => digits c (List.mem_cons_of_mem _ member)
    rw [List.cons_append, readDigits]
    simp only [value, Option.any_some, bound, decide_true, if_true, Option.getD_some, next]
    simp

theorem readDigits?_append {cs rest : List Char} (digits : AllDigits cs) (nonempty : cs ≠ []) (stops : Stops rest) :
    readDigits? 10 (cs ++ rest) = some (cs.map digitValue, rest) := by
  have read := readDigits_append stops cs [] digits
  rw [List.reverse_nil, List.nil_append] at read
  rw [readDigits?, read]
  cases cs with
  | nil => exact absurd rfl nonempty
  | cons c cs =>
    cases rest with
    | nil => rfl
    | cons next rest =>
      have other : next ≠ '_' := (stops next rfl).2
      simp only [List.map_cons]
      split
      · next same => simp at same
      · next same => simp_all
      · next same => simp_all

theorem readWhole?_append {cs rest : List Char} (whole : IsWhole cs) (stops : Stops rest) :
    readWhole? (cs ++ rest) = some (cs.map digitValue, rest) := by
  obtain rfl | ⟨nonempty, digits, front⟩ := whole
  · rfl
  · cases cs with
    | nil => exact absurd rfl nonempty
    | cons c cs =>
      have other : c ≠ '0' := by simpa using front
      rw [readWhole?]
      · exact readDigits?_append digits nonempty stops
      · intro rest same
        exact other (List.cons.inj same).1

/-- Digits stand for the number that they stand for. -/
theorem valueOf_map_digitValue (cs : List Char) : valueOf 10 (cs.map digitValue) = Nat.ofDigitChars 10 cs 0 := by
  rw [valueOf, List.foldl_map, Nat.ofDigitChars_eq_foldl]
  congr 1
  funext sofar c
  rw [digitValue, Nat.mul_comm]
  rfl

theorem readField?_eq_some {width low high value : Nat} {cs rest : List Char}
    (read : readField? width low high cs = some (value, rest)) :
    (cs.take width).length = width ∧ AllDigits (cs.take width) ∧ rest = cs.drop width := by
  simp only [readField?] at read
  split at read
  · next fits =>
    simp only [Bool.and_eq_true, beq_iff_eq, List.all_eq_true] at fits
    exact ⟨fits.1.1.1, fits.1.1.2, (Prod.mk.inj (Option.some.inj read)).2.symm⟩
  · exact absurd read (by simp)

/-- A field of digits ends where other digits follow, or at the end of all digits. -/
theorem readField?_append {width low high value : Nat} {digits behind rest : List Char}
    (stop : ∀ c ∈ behind.head?, c.isDigit = false)
    (read : readField? width low high (digits ++ behind) = some (value, rest)) :
    width ≤ digits.length ∧ rest = digits.drop width ++ behind := by
  obtain ⟨full, taken, rfl⟩ := readField?_eq_some read
  have inside : width ≤ digits.length := by
    by_contra longer
    rw [List.length_take, List.length_append] at full
    cases behind with
    | nil =>
      simp only [List.length_nil] at full
      omega
    | cons c behind =>
      have member : c ∈ (digits ++ c :: behind).take width := by
        rw [List.take_append, List.mem_append]
        refine .inr ?_
        obtain ⟨more, same⟩ := Nat.exists_eq_add_of_lt (Nat.lt_of_not_le longer)
        rw [same, Nat.add_assoc, Nat.add_sub_cancel_left]
        exact List.mem_cons_self
      exact absurd (taken c member) (by simp [stop c rfl])
  exact ⟨inside, by rw [List.drop_append_of_le_length inside]⟩

theorem expect?_eq_none {mark : Char} {cs : List Char} (other : cs.head? ≠ some mark) : expect? mark cs = none := by
  cases cs with
  | nil => rfl
  | cons c cs =>
    have differs : c ≠ mark := by simpa using other
    simp [expect?, differs]

/-- Digits are no date or time, unless a dash or a colon follows them. -/
theorem readMoment?_append {digits behind : List Char} (allDigits : AllDigits digits)
    (stop : ∀ c ∈ behind.head?, c.isDigit = false)
    (other : digits ≠ [] → behind.head? ≠ some '-' ∧ behind.head? ≠ some ':') :
    readMoment? (digits ++ behind) = none := by
  have field {width low high value : Nat} {rest : List Char} (mark : Char) (positive : 0 < width)
      (punctuation : mark.isDigit = false) (unlike : digits ≠ [] → behind.head? ≠ some mark)
      (read : readField? width low high (digits ++ behind) = some (value, rest)) : expect? mark rest = none := by
    obtain ⟨inside, rfl⟩ := readField?_append stop read
    refine expect?_eq_none ?_
    cases left : digits.drop width with
    | nil =>
      refine unlike ?_
      rintro rfl
      simp only [List.length_nil] at inside
      omega
    | cons c cs =>
      have digit := allDigits c (List.mem_of_mem_drop (by rw [left]; exact List.mem_cons_self))
      rw [List.cons_append, List.head?_cons, ne_eq, Option.some.injEq]
      rintro rfl
      exact absurd digit (by simp [punctuation])
  have noDate : passDate? (digits ++ behind) = none := by
    unfold passDate?
    cases read : readField? 4 0 9999 (digits ++ behind) with
    | none => rfl
    | some year =>
      have stopped := field '-' (by decide) (by decide) (fun nonempty => (other nonempty).1) read
      simp only [Option.bind_eq_bind, Option.bind_some, stopped, Option.bind_none]
  have noTime : passTime? (digits ++ behind) = none := by
    unfold passTime?
    cases read : readField? 2 0 23 (digits ++ behind) with
    | none => rfl
    | some hour =>
      have stopped := field ':' (by decide) (by decide) (fun nonempty => (other nonempty).2) read
      simp only [Option.bind_eq_bind, Option.bind_some, stopped, Option.bind_none]
  rw [readMoment?, noDate, noTime]
  rfl

theorem readMoment?_cons {c : Char} {tail : List Char} (other : c.isDigit = false) :
    readMoment? (c :: tail) = none := by
  have noDigits : AllDigits [] := fun _ member => absurd member List.not_mem_nil
  have stop : ∀ first ∈ (c :: tail).head?, first.isDigit = false := by
    intro first head
    obtain rfl := Option.some.inj head
    exact other
  have moment := readMoment?_append noDigits stop fun nonempty => absurd rfl nonempty
  exact moment

/-- The sign of a number, nothing for a plus. -/
def sign (negative : Bool) : List Char :=
  if negative then ['-'] else []

/-- What follows the whole part of a number: what may follow a value, or a point. -/
def EndsWhole (rest : List Char) : Prop :=
  ∀ c ∈ rest.head?, c = '.' ∨ c = '\n' ∨ c = ',' ∨ c = ']'

theorem Ends.endsWhole {rest : List Char} (ends : Ends rest) : EndsWhole rest :=
  fun c head => .inr (ends c head)

theorem EndsWhole.stops {rest : List Char} (ends : EndsWhole rest) : Stops rest := by
  intro c head
  obtain rfl | rfl | rfl | rfl := ends c head <;> decide

theorem EndsWhole.head?_ne {rest : List Char} (ends : EndsWhole rest) (mark : Char)
    (other : mark ≠ '.' ∧ mark ≠ '\n' ∧ mark ≠ ',' ∧ mark ≠ ']') : rest.head? ≠ some mark := by
  intro head
  obtain rfl | rfl | rfl | rfl := ends mark head <;> simp at other

section Whole

variable {negative : Bool} {whole rest : List Char}

/-- A number begins with its sign or with a digit. -/
theorem exists_cons_whole (isWhole : IsWhole whole) : ∃ c cs, whole = c :: cs ∧ c.isDigit = true := by
  cases whole with
  | nil => exact absurd rfl isWhole.ne_nil
  | cons c cs => exact ⟨c, cs, rfl, isWhole.allDigits c List.mem_cons_self⟩

theorem readNumber?_append (isWhole : IsWhole whole) (ends : EndsWhole rest) :
    readNumber? (sign negative ++ (whole ++ rest)) = readDecimal? negative (whole ++ rest) := by
  have noBase (mark : Char) (letter : mark.isDigit = false)
      (other : mark ≠ '.' ∧ mark ≠ '\n' ∧ mark ≠ ',' ∧ mark ≠ ']') (behind : List Char) :
      sign negative ++ (whole ++ rest) ≠ '0' :: mark :: behind := by
    intro same
    cases negative with
    | true => exact absurd (List.cons.inj same).1 (by decide)
    | false =>
      rw [sign, if_neg (by decide), List.nil_append] at same
      obtain rfl | ⟨nonempty, digits, front⟩ := isWhole
      · have behind' : rest = mark :: behind := (List.cons.inj same).2
        exact ends.head?_ne mark other (by rw [behind', List.head?_cons])
      · cases whole with
        | nil => exact absurd rfl nonempty
        | cons c cs => exact front (by rw [(List.cons.inj same).1, List.head?_cons])
  have signed : readSign (sign negative ++ (whole ++ rest)) = (negative, whole ++ rest) := by
    cases negative with
    | true => rfl
    | false =>
      obtain ⟨c, cs, rfl, digit⟩ := exists_cons_whole isWhole
      rw [sign, if_neg (by decide), List.nil_append, List.cons_append]
      unfold readSign
      split
      · next same => exact absurd (List.cons.inj same).1 (by rintro rfl; exact absurd digit (by decide))
      · next same => exact absurd (List.cons.inj same).1 (by rintro rfl; exact absurd digit (by decide))
      · rfl
  unfold readNumber?
  split
  · next same => exact absurd same (noBase 'x' (by decide) (by decide) _)
  · next same => exact absurd same (noBase 'o' (by decide) (by decide) _)
  · next same => exact absurd same (noBase 'b' (by decide) (by decide) _)
  · rw [signed]
    obtain ⟨c, cs, rfl, digit⟩ := exists_cons_whole isWhole
    simp only [List.cons_append]
    split
    · next same => exact absurd (List.cons.inj same).1 (by rintro rfl; exact absurd digit (by decide))
    · next same => exact absurd (List.cons.inj same).1 (by rintro rfl; exact absurd digit (by decide))
    · rfl

theorem readScalar?_append (isWhole : IsWhole whole) (ends : EndsWhole rest) :
    readScalar? (sign negative ++ (whole ++ rest)) = readDecimal? negative (whole ++ rest) := by
  have noMoment : readMoment? (sign negative ++ (whole ++ rest)) = none := by
    cases negative with
    | true => exact readMoment?_cons (by decide)
    | false =>
      have moment := readMoment?_append isWhole.allDigits (fun c head => (ends.stops c head).1)
        fun _ => ⟨ends.head?_ne '-' (by decide), ends.head?_ne ':' (by decide)⟩
      exact moment
  have head : ∃ c cs, sign negative ++ (whole ++ rest) = c :: cs ∧ (c = '-' ∨ c.isDigit = true) := by
    obtain ⟨c, cs, rfl, digit⟩ := exists_cons_whole isWhole
    cases negative with
    | true => exact ⟨'-', _, rfl, .inl rfl⟩
    | false => exact ⟨c, _, rfl, .inr digit⟩
  have number : readNumber? (sign negative ++ (whole ++ rest)) = readDecimal? negative (whole ++ rest) :=
    readNumber?_append isWhole ends
  obtain ⟨c, cs, same, kind⟩ := head
  have other (mark : Char) (notSign : mark ≠ '-') (notDigit : mark.isDigit = false) : c ≠ mark := by
    rintro rfl
    obtain rfl | digit := kind
    · exact notSign rfl
    · exact absurd digit (by simp [notDigit])
  rw [same] at noMoment number ⊢
  unfold readScalar?
  split
  · next same => exact absurd (List.cons.inj same).1 (other 't' (by decide) (by decide))
  · next same => exact absurd (List.cons.inj same).1 (other 'f' (by decide) (by decide))
  · next head tail _ _ same =>
    obtain ⟨rfl, rfl⟩ := List.cons.inj same
    rw [if_neg (by simp [other '"' (by decide) (by decide), other '\'' (by decide) (by decide)]), noMoment, ← number]
    rfl
  · next same => exact absurd same (List.cons_ne_nil _ _)

/-- A number without a point is a whole number. -/
theorem readDecimal?_whole (isWhole : IsWhole whole) (ends : Ends rest) :
    readDecimal? negative (whole ++ rest) =
      (wholeNumber?
        (if negative then -(Nat.ofDigitChars 10 whole 0 : Int) else (Nat.ofDigitChars 10 whole 0 : Int))).map
          (·, rest) := by
  rw [readDecimal?, readWhole?_append isWhole ends.stops]
  simp only [Option.bind_eq_bind, Option.bind_some, valueOf_map_digitValue]
  cases rest with
  | nil => cases wholeNumber? _ <;> rfl
  | cons c rest =>
    have plain : (c == '.' || c == 'e' || c == 'E') = false := by
      obtain rfl | rfl | rfl := ends c rfl <;> rfl
    simp only [plain]
    cases wholeNumber? _ <;> rfl

/-- A number with a point is a double. -/
theorem readDecimal?_fraction {fraction : List Char} (isWhole : IsWhole whole) (digits : AllDigits fraction)
    (nonempty : fraction ≠ []) (ends : Ends rest) :
    readDecimal? negative (whole ++ '.' :: (fraction ++ rest)) =
      (double? negative ((whole ++ fraction).map digitValue) fraction.length 0).map (·, rest) := by
  have stops : Stops ('.' :: (fraction ++ rest)) := by
    intro c head
    obtain rfl := Option.some.inj head
    decide
  have power : readPower? rest = some (0, rest) := by
    cases rest with
    | nil => rfl
    | cons c rest =>
      have plain : (c == 'e' || c == 'E') = false := by
        obtain rfl | rfl | rfl := ends c rfl <;> rfl
      simp [readPower?, plain]
  rw [readDecimal?, readWhole?_append isWhole stops]
  simp only [Option.bind_eq_bind, Option.bind_some, readFraction?, readDigits?_append digits nonempty ends.stops, power,
    List.length_map, ← List.map_append]
  cases double? _ _ _ _ <;> rfl

end Whole

/-- A whole number within the bounds of files is read back. -/
theorem readScalar?_intText {value : Int} (fits : -Int.pow 2 63 ≤ value ∧ value < Int.pow 2 63) {rest : List Char}
    (ends : Ends rest) : readScalar? ((Decimal.intText value).toList ++ rest) = some (.int value, rest) := by
  have text : (Decimal.intText value).toList = sign (decide (value < 0)) ++ Decimal.natDigits value.natAbs := by
    unfold Decimal.intText
    by_cases below : value < 0
    · rw [if_pos below]
      simp [sign, below]
    · rw [if_neg below]
      simp [sign, below]
  have value' : (if decide (value < 0) then -(value.natAbs : Int) else (value.natAbs : Int)) = value := by
    by_cases below : value < 0
    · simp only [below, decide_true, if_true]
      omega
    · simp only [below, decide_false, Bool.false_eq_true, if_false]
      omega
  rw [text, List.append_assoc, readScalar?_append (isWhole_natDigits _) ends.endsWhole,
    readDecimal?_whole (isWhole_natDigits _) ends, Decimal.natDigits, Nat.ofDigitChars_ten_toDigits, value',
    wholeNumber?, if_pos (by simpa using fits)]
  rfl

end HedgedForecast.Toml
