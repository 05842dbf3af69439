import HedgedForecast.Text.Blank
import Mathlib.Data.List.DropRight

/-! # Blanks around a text

A text is its blanks at both ends with the trimmed text between them; blanks around a text that neither begins nor ends
with one are cut off again, no more and no less.
-/

namespace HedgedForecast.Text

/-- Only blanks. -/
def AllBlank (cs : List Char) : Prop :=
  ∀ c ∈ cs, isBlank c = true

/-- No printable character of ASCII but the space is blank. -/
theorem isBlank_eq_false {c : Char} (low : 32 < c.toNat) (high : c.toNat < 127) : isBlank c = false := by
  simp only [isBlank, Bool.or_eq_false_iff, Bool.and_eq_false_iff, decide_eq_false_iff_not, beq_eq_false_iff_ne]
  omega

theorem trimBlanks_eq_rdropWhile (cs : List Char) : trimBlanks cs = (cs.dropWhile isBlank).rdropWhile isBlank :=
  rfl

/-- What is cut off are blanks. -/
theorem exists_around (cs : List Char) :
    ∃ before after, cs = before ++ trimBlanks cs ++ after ∧ AllBlank before ∧ AllBlank after := by
  refine ⟨cs.takeWhile isBlank, (cs.dropWhile isBlank).rtakeWhile isBlank, ?_, ?_, ?_⟩
  · rw [List.append_assoc, trimBlanks_eq_rdropWhile, List.rdropWhile_append_rtakeWhile, List.takeWhile_append_dropWhile]
  · exact fun c member => List.mem_takeWhile_imp member
  · exact fun c member => List.mem_rtakeWhile_imp member

/-- Blanks around a text that has none at its ends are cut off. -/
theorem trimBlanks_around {before cs after : List Char} (blank : AllBlank before) (blank' : AllBlank after)
    (nonempty : cs ≠ []) (front : isBlank (cs.head nonempty) = false) (back : isBlank (cs.getLast nonempty) = false) :
    trimBlanks (before ++ cs ++ after) = cs := by
  have left : (before ++ cs ++ after).dropWhile isBlank = cs ++ after := by
    rw [List.append_assoc, List.dropWhile_append_of_pos blank]
    cases cs with
    | nil => exact absurd rfl nonempty
    | cons c cs => exact List.dropWhile_cons_of_neg (Bool.eq_false_iff.mp front)
  have right : (cs ++ after).rdropWhile isBlank = cs.rdropWhile isBlank := by
    rw [List.rdropWhile, List.reverse_append, List.dropWhile_append_of_pos fun c member =>
      blank' c (List.mem_reverse.mp member), List.rdropWhile]
  rw [trimBlanks_eq_rdropWhile, left, right, List.rdropWhile_eq_self_iff]
  exact fun _ => Bool.eq_false_iff.mp back

end HedgedForecast.Text
