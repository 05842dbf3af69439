/-! # Cancellation scopes

A scope can be cancelled once and for all. A scope made within another one is cancelled with it;
cancelling never reaches outwards or sideways. A scope's token lists the numbers of the scope and of
all scopes around it, so whether it is cancelled is read off the numbers that were cancelled.
-/

namespace HedgedForecast

/-- A scope, given by its number and those of the scopes around it, innermost first. -/
structure Token where
  lineage : List Nat
  deriving DecidableEq, Repr

/-- All scopes so far. -/
structure Scopes where
  /-- How many numbers are taken. -/
  issued : Nat := 0
  /-- The numbers of the scopes on which cancelling was asked for. -/
  cancelled : List Nat := []
  deriving DecidableEq, Repr

namespace Scopes

/-- Whether a scope is cancelled, by itself or with a scope around it. -/
def isCancelled (scopes : Scopes) (token : Token) : Bool :=
  token.lineage.any fun number => scopes.cancelled.contains number

/-- A scope with no scope around it. -/
def fresh (scopes : Scopes) : Token × Scopes :=
  (⟨[scopes.issued]⟩, { scopes with issued := scopes.issued + 1 })

/-- A scope within another one. -/
def childOf (scopes : Scopes) (parent : Token) : Token × Scopes :=
  (⟨scopes.issued :: parent.lineage⟩, { scopes with issued := scopes.issued + 1 })

/-- Cancels a scope. -/
def cancel (scopes : Scopes) (token : Token) : Scopes :=
  { scopes with cancelled := token.lineage.take 1 ++ scopes.cancelled }

theorem isCancelled_iff (scopes : Scopes) (token : Token) :
    scopes.isCancelled token = true ↔ ∃ number ∈ token.lineage, number ∈ scopes.cancelled := by
  simp [isCancelled]

end Scopes

end HedgedForecast
