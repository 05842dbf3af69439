import HedgedForecast.Country
import HedgedForecast.Proofs.Blanks
import HedgedForecast.Proofs.Json.Documents

/-! # Country codes as they are written

A country code is read from two letters of ASCII with blanks around them and from nothing else, whether the text is
looked at by characters or by bytes and whether it comes on its own or as data.
-/

namespace HedgedForecast.Country

open Text (AllBlank trimBlanks)

/-- What holds of all characters of ASCII is checked one by one. -/
theorem ascii_forall {P : Char → Prop} (each : ∀ n < 128, P (Char.ofNat n)) {c : Char} (ascii : c.toNat < 128) :
    P c := by
  have holds := each c.toNat ascii
  rwa [Char.ofNat_toNat] at holds

section Letters

variable {c : Char}

theorem isAlpha_bounds (letter : c.isAlpha = true) : 65 ≤ c.toNat ∧ c.toNat ≤ 122 := by
  simp only [Char.isAlpha, Char.isUpper, Char.isLower, Bool.or_eq_true, Bool.and_eq_true, decide_eq_true_eq,
    UInt32.le_iff_toNat_le, ge_iff_le] at letter
  change (65 ≤ c.toNat ∧ c.toNat ≤ 90) ∨ (97 ≤ c.toNat ∧ c.toNat ≤ 122) at letter
  omega

theorem isBlank_of_isAlpha (letter : c.isAlpha = true) : Text.isBlank c = false := by
  have bounds := isAlpha_bounds letter
  exact Text.isBlank_eq_false (by omega) (by omega)

/-- Only letters have capitals that are capital letters. -/
theorem isAlpha_of_isUpper_toUpper (upper : c.toUpper.isUpper = true) : c.isAlpha = true := by
  rw [Char.isAlpha, Bool.or_eq_true]
  unfold Char.toUpper at upper
  split at upper
  · next lower => exact .inr (by simpa [Char.isLower] using lower)
  · exact .inl upper

theorem toUpper_of_isUpper (upper : c.isUpper = true) : c.toUpper = c := by
  rw [Char.isUpper, decide_eq_true_eq] at upper
  unfold Char.toUpper
  refine dif_neg fun lower => ?_
  have low : 97 ≤ c.val.toNat := lower.1
  have high : c.val.toNat ≤ 90 := upper.2
  omega

end Letters

theorem ofChars?_eq_some_iff {cs : List Char} {country : Country} : ofChars? cs = some country ↔
    ∃ a b, trimBlanks cs = [a, b] ∧ a.isAlpha = true ∧ b.isAlpha = true ∧ country.toChars = [a.toUpper, b.toUpper] := by
  unfold ofChars?
  split
  · next a b trimmed =>
    constructor
    · intro read
      split at read
      · next letters =>
        cases read
        exact ⟨a, b, trimmed, letters.1, letters.2, rfl⟩
      · contradiction
    · rintro ⟨a', b', same, letter, letter', chars⟩
      obtain ⟨rfl, rfl⟩ : a = a' ∧ b = b' := by simpa using trimmed.symm.trans same
      rw [dif_pos ⟨letter, letter'⟩]
      exact congrArg some (toChars_injective chars.symm)
  · next other =>
    refine ⟨nofun, ?_⟩
    rintro ⟨a, b, same, _⟩
    exact absurd same (other a b)

/-- Two letters of ASCII with blanks around them, which are those of the code but for their case. -/
def IsSpelling (s : String) (country : Country) : Prop :=
  ∃ before a b after, s.toList = before ++ [a, b] ++ after ∧ AllBlank before ∧ AllBlank after ∧ a.isAlpha = true ∧
    b.isAlpha = true ∧ country.toChars = [a.toUpper, b.toUpper]

/-- Nothing is read but two letters with blanks around them. -/
theorem parse?_eq_some_iff {s : String} {country : Country} : parse? s = some country ↔ IsSpelling s country := by
  rw [parse?, ofChars?_eq_some_iff]
  constructor
  · rintro ⟨a, b, trimmed, letters⟩
    obtain ⟨before, after, same, blank, blank'⟩ := Text.exists_around s.toList
    rw [trimmed] at same
    exact ⟨before, a, b, after, same, blank, blank', letters⟩
  · rintro ⟨before, a, b, after, same, blank, blank', letter, letter', chars⟩
    have trimmed := Text.trimBlanks_around blank blank' (List.cons_ne_nil a [b]) (isBlank_of_isAlpha letter)
      (isBlank_of_isAlpha letter')
    exact ⟨a, b, by rw [same, trimmed], letter, letter', chars⟩

/-- The letters of a code may be of either case. -/
theorem isSpelling_of_toUpper {country : Country} {a b : Char} (first : a.toUpper = country.first)
    (second : b.toUpper = country.second) {before after : List Char} (blank : AllBlank before)
    (blank' : AllBlank after) :
    IsSpelling (String.ofList (before ++ [a, b] ++ after)) country := by
  have letter : a.isAlpha = true := isAlpha_of_isUpper_toUpper (first ▸ country.first_upper)
  have letter' : b.isAlpha = true := isAlpha_of_isUpper_toUpper (second ▸ country.second_upper)
  exact ⟨before, a, b, after, String.toList_ofList, blank, blank', letter, letter', by rw [first, second, toChars]⟩

theorem isSpelling_code (country : Country) : IsSpelling country.code country := by
  have none : AllBlank [] := nofun
  have spelling := isSpelling_of_toUpper (toUpper_of_isUpper country.first_upper)
    (toUpper_of_isUpper country.second_upper) none none
  exact spelling

/-- The bytes of a text. -/
def bytes (s : String) : List UInt8 :=
  s.toUTF8.data.toList

/-- Whether a byte is a letter of ASCII. -/
def isLetterByte (byte : UInt8) : Bool :=
  65 ≤ byte && byte ≤ 90 || 97 ≤ byte && byte ≤ 122

/-- The capital of a letter. -/
def capitalByte (byte : UInt8) : UInt8 :=
  if 97 ≤ byte && byte ≤ 122 then byte - 32 else byte

theorem bytes_ofList (cs : List Char) : bytes (String.ofList cs) = cs.flatMap String.utf8EncodeChar := by
  rw [bytes, String.toUTF8, String.toByteArray_ofList, List.utf8Encode, List.toList_data_toByteArray]

theorem bytes_injective : Function.Injective bytes := by
  intro s t same
  have data : s.toUTF8.data = t.toUTF8.data := Array.toList_inj.mp same
  exact String.toByteArray_inj.mp (ByteArray.ext data)

theorem utf8EncodeChar_of_ascii {c : Char} (ascii : c.toNat < 128) : String.utf8EncodeChar c = [c.toUInt8] := by
  have small : c.val.toNat ≤ 127 := Nat.le_of_lt_succ ascii
  rw [String.utf8EncodeChar, if_pos small]
  rfl

/-- All other characters begin with a byte beyond those of ASCII. -/
theorem exists_wide {c : Char} (wide : 128 ≤ c.toNat) :
    ∃ byte tail, String.utf8EncodeChar c = byte :: tail ∧ 192 ≤ byte.toNat := by
  have large : ¬c.val.toNat ≤ 127 := Nat.not_le_of_lt wide
  unfold String.utf8EncodeChar
  simp only [if_neg large]
  split_ifs
  all_goals
    refine ⟨_, _, rfl, ?_⟩
    rw [UInt8.toNat_ofNat']
    omega

theorem isLetterByte_toUInt8 {c : Char} (ascii : c.toNat < 128) : isLetterByte c.toUInt8 = c.isAlpha :=
  ascii_forall (P := fun c => isLetterByte c.toUInt8 = c.isAlpha) (by decide) ascii

theorem utf8EncodeChar_toUpper {c : Char} (ascii : c.toNat < 128) :
    String.utf8EncodeChar c.toUpper = [capitalByte c.toUInt8] :=
  ascii_forall (P := fun c => String.utf8EncodeChar c.toUpper = [capitalByte c.toUInt8]) (by decide) ascii

/-- A letter is one byte. -/
theorem exists_byte {c : Char} (letter : c.isAlpha = true) : ∃ byte, String.utf8EncodeChar c = [byte] ∧
    isLetterByte byte = true ∧ String.utf8EncodeChar c.toUpper = [capitalByte byte] := by
  have ascii : c.toNat < 128 := by
    have bounds := isAlpha_bounds letter
    omega
  exact ⟨c.toUInt8, utf8EncodeChar_of_ascii ascii, (isLetterByte_toUInt8 ascii).trans letter,
    utf8EncodeChar_toUpper ascii⟩

/-- The byte of a letter is all of its character. -/
theorem exists_letter {cs : List Char} {byte : UInt8} {tail : List UInt8}
    (encoded : cs.flatMap String.utf8EncodeChar = byte :: tail) (letter : isLetterByte byte = true) :
    ∃ c rest, cs = c :: rest ∧ c.isAlpha = true ∧ rest.flatMap String.utf8EncodeChar = tail ∧
      String.utf8EncodeChar c.toUpper = [capitalByte byte] := by
  cases cs with
  | nil => simp at encoded
  | cons c rest =>
    rw [List.flatMap_cons] at encoded
    by_cases ascii : c.toNat < 128
    · rw [utf8EncodeChar_of_ascii ascii] at encoded
      obtain ⟨rfl, rfl⟩ := List.cons.inj encoded
      exact ⟨c, rest, rfl, (isLetterByte_toUInt8 ascii).symm.trans letter, rfl, utf8EncodeChar_toUpper ascii⟩
    · obtain ⟨first, behind, same, high⟩ := exists_wide (Nat.le_of_not_lt ascii)
      rw [same] at encoded
      obtain ⟨rfl, _⟩ := List.cons.inj encoded
      simp only [isLetterByte, Bool.or_eq_true, Bool.and_eq_true, decide_eq_true_eq, UInt8.le_iff_toNat_le] at letter
      have most : first.toNat ≤ 122 := letter.elim (fun upper => upper.2.trans (by decide)) fun lower => lower.2
      omega

/-- The bytes of the trimmed text decide as its characters do. -/
theorem parse?_eq_some_iff_bytes {s : String} {country : Country} : parse? s = some country ↔
    ∃ a b, bytes (Text.trim s) = [a, b] ∧ isLetterByte a = true ∧ isLetterByte b = true ∧
      bytes country.code = [capitalByte a, capitalByte b] := by
  rw [parse?, ofChars?_eq_some_iff, Text.trim, bytes_ofList]
  constructor
  · rintro ⟨a, b, trimmed, letter, letter', chars⟩
    obtain ⟨byte, encoded, isLetter, capital⟩ := exists_byte letter
    obtain ⟨byte', encoded', isLetter', capital'⟩ := exists_byte letter'
    refine ⟨byte, byte', ?_, isLetter, isLetter', ?_⟩
    · rw [trimmed]
      simp [encoded, encoded']
    · rw [code, bytes_ofList, chars]
      simp [capital, capital']
  · rintro ⟨byte, byte', encoded, isLetter, isLetter', coded⟩
    obtain ⟨a, rest, same, letter, encoded', capital⟩ := exists_letter encoded isLetter
    obtain ⟨b, others, rfl, letter', nothing, capital'⟩ := exists_letter encoded' isLetter'
    obtain rfl : others = [] := List.eq_nil_iff_forall_not_mem.mpr (by simpa using nothing)
    have letters : bytes (String.ofList [a.toUpper, b.toUpper]) = bytes country.code := by
      rw [coded, bytes_ofList]
      simp [capital, capital']
    exact ⟨a, b, same, letter, letter', (String.ofList_injective (bytes_injective letters)).symm⟩

theorem ofData?_eq_some_iff {data : Data} {country : Country} :
    ofData? data = some country ↔ ∃ s, data = .text s ∧ parse? s = some country := by
  cases data <;> simp [ofData?, Data.asText?]

/-- A document with a text is read as the text on its own. -/
theorem ofData?_document {s document : String} (isDocument : Json.IsDocument document (.text s)) :
    (Json.read? document).bind ofData? = parse? s := by
  have reads : Json.Reads (.text s) (.text s) := .of_compact (Json.readsAs_text s) fun _ => rfl
  rw [reads.read? isDocument]
  rfl

/-- How codes are read and written. -/
structure Grammar : Prop where
  /-- A code is read from two letters of ASCII with blanks around them. -/
  characters : ∀ s country, parse? s = some country ↔ IsSpelling s country
  /-- These are the texts with two bytes left between the blanks, both of them letters. -/
  bytes : ∀ s country, parse? s = some country ↔ ∃ a b, bytes (Text.trim s) = [a, b] ∧ isLetterByte a = true ∧
    isLetterByte b = true ∧ bytes country.code = [capitalByte a, capitalByte b]
  /-- A document has a code if it is a text that has it. -/
  data : ∀ document country, (Json.read? document).bind ofData? = some country ↔
    ∃ s, Json.read? document = some (.text s) ∧ IsSpelling s country
  /-- Every text has a document, which has a code if the text has it. -/
  document : ∀ s document, Json.IsDocument document (.text s) → (Json.read? document).bind ofData? = parse? s
  /-- A code is read back from its display, its text and its document. -/
  restored : ∀ country, parse? (toString country) = some country ∧ parse? country.code = some country ∧
    (Json.read? (Json.write country.toData)).bind ofData? = some country
  /-- It is read back as well with its letters in either case and blanks around them, on its own and in a document. -/
  spelled : ∀ country a b before after document, a.toUpper = country.first → b.toUpper = country.second →
    AllBlank before → AllBlank after →
    Json.IsDocument document (.text (String.ofList (before ++ [a, b] ++ after))) →
    parse? (String.ofList (before ++ [a, b] ++ after)) = some country ∧
      (Json.read? document).bind ofData? = some country

/-- Codes are two letters, however they are read and written. -/
theorem grammar_of_codes : Grammar where
  characters _ _ := parse?_eq_some_iff
  bytes _ _ := parse?_eq_some_iff_bytes
  data document country := by
    rw [Option.bind_eq_some_iff]
    constructor
    · rintro ⟨data, read, decoded⟩
      obtain ⟨s, rfl, parsed⟩ := ofData?_eq_some_iff.mp decoded
      exact ⟨s, read, parse?_eq_some_iff.mp parsed⟩
    · rintro ⟨s, read, spelling⟩
      exact ⟨_, read, parse?_eq_some_iff.mpr spelling⟩
  document _ _ := ofData?_document
  restored country := by
    have parsed := parse?_eq_some_iff.mpr country.isSpelling_code
    exact ⟨parsed, parsed, (ofData?_document (Json.isDocument_write _)).trans parsed⟩
  spelled country a b before after document first second blank blank' isDocument := by
    have parsed := parse?_eq_some_iff.mpr (isSpelling_of_toUpper first second blank blank')
    exact ⟨parsed, (ofData?_document isDocument).trans parsed⟩

/-- Blanks of any kind are cut off, and one character of two bytes is no code. -/
example : (parse? "\u2003cZ\u0085\t").map toString = some "CZ" ∧ parse? "é" = none ∧ parse? "C Z" = none := by
  decide +kernel

end HedgedForecast.Country
