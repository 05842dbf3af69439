import HedgedForecast.Clock.Scope

/-! # Deadlines

A deadline is an instant together with a scope. What is done under a deadline ends when the scope is
cancelled or the instant is reached, whichever comes first. Deadlines derived from another one are
never later than it, and are cancelled with it. Times are in milliseconds.
-/

namespace HedgedForecast

/-- The present instant and all scopes so far. -/
structure Clock where
  now : Nat := 0
  scopes : Scopes := {}
  deriving DecidableEq, Repr

/-- An instant and a scope. -/
structure Deadline where
  instant : Nat
  token : Token
  deriving DecidableEq, Repr

namespace Clock

/-- Whether a scope is cancelled. -/
def isCancelled (clock : Clock) (token : Token) : Bool :=
  clock.scopes.isCancelled token

/-- Cancels a scope. -/
def cancel (clock : Clock) (token : Token) : Clock :=
  { clock with scopes := clock.scopes.cancel token }

/-- A scope with no scope around it. -/
def freshToken (clock : Clock) : Token × Clock :=
  let (token, scopes) := clock.scopes.fresh
  (token, { clock with scopes })

/-- A scope within another one. -/
def childToken (clock : Clock) (parent : Token) : Token × Clock :=
  let (token, scopes) := clock.scopes.childOf parent
  (token, { clock with scopes })

/-- The clock at a later instant; it never goes back. -/
def moveTo (clock : Clock) (instant : Nat) : Clock :=
  { clock with now := max clock.now instant }

/-- What is cancelled stays so. -/
theorem isCancelled_cancel_of_isCancelled {clock : Clock} {token other : Token}
    (cancelled : clock.isCancelled other = true) : (clock.cancel token).isCancelled other = true := by
  obtain ⟨scope, own, member⟩ := (Scopes.isCancelled_iff ..).mp cancelled
  exact (Scopes.isCancelled_iff ..).mpr ⟨scope, own, List.mem_append_right _ member⟩

/-- Cancelling reaches a scope exactly if it is the scope itself or one around it. -/
theorem isCancelled_cancel_iff {clock : Clock} {token other : Token} :
    (clock.cancel token).isCancelled other = true ↔
      clock.isCancelled other = true ∨ ∃ number ∈ token.lineage.head?, number ∈ other.lineage := by
  simp only [isCancelled, cancel, Scopes.cancel, Scopes.isCancelled_iff, List.mem_append]
  cases token.lineage <;> grind

end Clock

namespace Deadline

/-- The time that stands for no bound, a year. -/
def unboundedTime : Nat := 31536000000

/-- A deadline some time from now with a scope of its own. -/
def after (clock : Clock) (timeout : Nat) : Deadline × Clock :=
  let (token, clock) := clock.freshToken
  (⟨clock.now + timeout, token⟩, clock)

/-- A deadline for work that outlives whoever started it. -/
def detached (clock : Clock) (limit : Option Nat) : Deadline × Clock :=
  after clock (limit.getD unboundedTime)

/-- The same instant in another scope. -/
def withToken (deadline : Deadline) (token : Token) : Deadline :=
  { deadline with token }

/-- The same instant in a scope within this one. -/
def child (clock : Clock) (deadline : Deadline) : Deadline × Clock :=
  let (token, clock) := clock.childToken deadline.token
  (⟨deadline.instant, token⟩, clock)

/-- The earlier of the same instant and some time from now, in a scope within this one. -/
def tighten (clock : Clock) (deadline : Deadline) (limit : Nat) : Deadline × Clock :=
  let (token, clock) := clock.childToken deadline.token
  (⟨min deadline.instant (clock.now + limit), token⟩, clock)

/-- The time left. -/
def remaining (clock : Clock) (deadline : Deadline) : Nat :=
  deadline.instant - clock.now

/-- Whether the scope is cancelled. -/
def isCancelled (clock : Clock) (deadline : Deadline) : Bool :=
  clock.isCancelled deadline.token

/-- Whether the instant is reached. -/
def isExpired (clock : Clock) (deadline : Deadline) : Bool :=
  deadline.instant ≤ clock.now

end Deadline

end HedgedForecast
