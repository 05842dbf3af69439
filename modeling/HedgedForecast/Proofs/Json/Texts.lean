import HedgedForecast.Json.Reader
import HedgedForecast.Json.Writer
import Mathlib.Tactic.SplitIfs

/-! # Texts in the interchange notation

A text is read back from its quotes, whatever characters it has: what would end it or is a control has an escape, and
each escape is read as the character that it stands for.
-/

namespace HedgedForecast.Json

/-- The characters of a text between its quotes. -/
def escaped (cs : List Char) : List Char :=
  cs.flatMap fun c => (escapeChar c).toList

theorem escaped_cons (c : Char) (cs : List Char) : escaped (c :: cs) = (escapeChar c).toList ++ escaped cs :=
  List.flatMap_cons

theorem toList_writeText (s : String) : (writeText s).toList = '"' :: (escaped s.toList ++ ['"']) := by
  simp [writeText, escaped, List.flatMap_map]

theorem readUnit?_append {cs : List Char} {unit : Nat} (read : readUnit? cs = some (unit, [])) (rest : List Char) :
    readUnit? (cs ++ rest) = some (unit, rest) := by
  unfold readUnit? at read
  split at read
  · next a b c d tail =>
    simp only [Option.bind_eq_bind, Option.bind_eq_some_iff, Option.pure_def, Option.some.injEq, Prod.mk.injEq] at read
    obtain ⟨first, value, second, value', third, value'', fourth, value''', same, rfl⟩ := read
    simp [readUnit?, value, value', value'', value''', same]
  · contradiction

/-- The four digits of a control are read as its number. -/
theorem readUnit?_hexLower {code : Nat} (control : code < 32) (rest : List Char) :
    readUnit? ((Text.hexLower 4 code).toList ++ rest) = some (code, rest) := by
  have digits : ∀ code < 32, readUnit? (Text.hexLower 4 code).toList = some (code, []) := by decide +kernel
  exact readUnit?_append (digits code control) rest

/-- An escaped character is read as the character that it stands for. -/
theorem readText?_escapeChar (fuel : Nat) (c : Char) (tail sofar : List Char) :
    readText? (fuel + 1) ((escapeChar c).toList ++ tail) (some sofar) = readText? fuel tail (some (c :: sofar)) := by
  unfold escapeChar
  split_ifs with quote backslash _ _ _ _ _ control
  any_goals
    obtain rfl := eq_of_beq ‹_›
    rfl
  · have written : ("\\u" ++ Text.hexLower 4 c.toNat).toList ++ tail =
        '\\' :: 'u' :: ((Text.hexLower 4 c.toNat).toList ++ tail) := by simp
    rw [written, readText?, if_neg (by decide), if_pos (by decide)]
    simp only [readUnit?_hexLower control, Option.bind_eq_bind, Option.bind_some]
    rw [if_neg (by simp; omega), if_neg (by simp; omega), Option.map_some, Char.ofNat_toNat]
  · rw [show c.toString.toList ++ tail = c :: tail by simp, readText?.eq_def]
    simp only [if_neg quote, if_neg backslash, if_neg control, Option.map_some]

/-- Escaped characters are read up to the closing quote. -/
theorem readText?_escaped (cs rest : List Char) : ∀ (fuel : Nat) (sofar : List Char), cs.length < fuel →
    readText? fuel (escaped cs ++ '"' :: rest) (some sofar) =
      some (some (String.ofList (sofar.reverse ++ cs)), rest) := by
  induction cs with
  | nil =>
    intro fuel sofar enough
    obtain ⟨fuel, rfl⟩ := Nat.exists_eq_add_one.mpr enough
    simp [escaped, readText?]
  | cons c cs ih =>
    intro fuel sofar enough
    obtain ⟨fuel, rfl⟩ := Nat.exists_eq_add_one_of_ne_zero (Nat.ne_zero_of_lt enough)
    rw [escaped_cons, List.append_assoc, readText?_escapeChar, ih fuel _ (by simpa using enough), List.reverse_cons,
      List.append_assoc, List.singleton_append]

theorem length_le_escaped (cs : List Char) : cs.length ≤ (escaped cs).length := by
  induction cs with
  | nil => exact Nat.zero_le _
  | cons c cs ih =>
    have some : 1 ≤ (escapeChar c).toList.length := by
      unfold escapeChar
      split_ifs <;> simp
    rw [escaped_cons, List.length_append, List.length_cons]
    omega

/-- A text is read back from its quotes. -/
theorem readText?_writeText (s : String) (rest : List Char) :
    readText? ((escaped s.toList ++ '"' :: rest).length + 1) (escaped s.toList ++ '"' :: rest) (some []) =
      some (some s, rest) := by
  have enough : s.toList.length < (escaped s.toList ++ '"' :: rest).length + 1 := by
    have := length_le_escaped s.toList
    rw [List.length_append]
    omega
  rw [readText?_escaped _ _ _ _ enough, List.reverse_nil, List.nil_append, String.ofList_toList]

end HedgedForecast.Json
