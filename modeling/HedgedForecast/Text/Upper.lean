import HedgedForecast.Text.Upper.Table

/-! # Full upper-casing

Upper-casing after the full Unicode mapping: one letter may become several (sharp s becomes two
letters, a ligature its parts). The mapping looks at one character at a time, so the capital form
of a joined text is the join of the capital forms.
-/

namespace HedgedForecast.Text

/-- Whether the code point belongs to the run. -/
def CaseRun.covers (run : CaseRun) (n : Nat) : Bool :=
  run.first ≤ n && n ≤ run.last && (n - run.first) % run.step == 0

/-- The capital form of one character. -/
def capital (c : Char) : List Char :=
  let n := c.toNat
  if n < 128 then [c.toUpper]
  else match longCapitals.find? (·.1 == n) with
    | some (_, form) => form.map Char.ofNat
    | none =>
      match caseRuns.find? (·.covers n) with
      | some run => [Char.ofNat (n + run.offset).toNat]
      | none => [c]

/-- The capital form of a text. -/
def upper (s : String) : String :=
  String.ofList (s.toList.flatMap capital)

@[simp] theorem toList_upper (s : String) : (upper s).toList = s.toList.flatMap capital := by
  simp [upper]

end HedgedForecast.Text
