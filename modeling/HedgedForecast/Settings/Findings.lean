/-! # Findings about settings

What a check of the settings reports: errors, which forbid using them, and warnings, which do not.
-/

namespace HedgedForecast

/-- A remark about one setting. -/
structure Finding where
  field : String
  detail : String
  deriving DecidableEq, Repr

/-- The wording of a finding. -/
def Finding.message (finding : Finding) : String :=
  s!"{finding.field}: {finding.detail}"

/-- The result of a check, each list in the order of discovery. -/
structure Findings where
  errors : List Finding := []
  warnings : List Finding := []
  deriving DecidableEq, Repr

namespace Findings

/-- A single error. -/
def error (field detail : String) : Findings :=
  { errors := [⟨field, detail⟩] }

/-- A single warning. -/
def warning (field detail : String) : Findings :=
  { warnings := [⟨field, detail⟩] }

/-- What two checks report together. -/
def append (first second : Findings) : Findings :=
  ⟨first.errors ++ second.errors, first.warnings ++ second.warnings⟩

instance : Append Findings := ⟨append⟩

@[simp] theorem errors_append (a b : Findings) : (a ++ b).errors = a.errors ++ b.errors := rfl

@[simp] theorem warnings_append (a b : Findings) : (a ++ b).warnings = a.warnings ++ b.warnings :=
  rfl

/-- What a list of checks reports together. -/
def join (findings : List Findings) : Findings :=
  findings.foldr append {}

/-- Whether there are no errors. -/
def isValid (findings : Findings) : Bool :=
  findings.errors.isEmpty

/-- All errors in one line. -/
def summary (findings : Findings) : String :=
  "; ".intercalate (findings.errors.map Finding.message)

end Findings

end HedgedForecast
