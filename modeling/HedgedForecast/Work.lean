import HedgedForecast.Clock.Guard
import HedgedForecast.Failure

/-! # Work

How a piece of work ends by itself, how it is told to have ended, and plans for work that is done
again and again.
-/

namespace HedgedForecast

/-- What is known of work that panicked. -/
structure Panic where
  /-- The number of its task, as it is written. -/
  task : String
  /-- Its message, if that was a text. -/
  message : Option String
  deriving DecidableEq, Repr

/-- The wording of a panic. -/
def Panic.text (panic : Panic) : String :=
  match panic.message with
  | some message => s!"task {panic.task} panicked with message {Text.quote message}"
  | none => s!"task {panic.task} panicked"

/-- How work ends by itself. -/
inductive WorkEnd (V : Type) where
  | value (value : V)
  | failure (failure : Failure)
  | panicked (panic : Panic)
  deriving DecidableEq, Repr

/-- How work is told to have ended. -/
inductive WorkOutcome where
  | ok
  | err
  | panic
  /-- It was stopped from outside. -/
  | abandoned
  deriving DecidableEq, Repr

/-- How work that ended by itself is told to have ended. -/
def WorkEnd.outcome {V : Type} : WorkEnd V → WorkOutcome
  | value _ => .ok
  | failure _ => .err
  | panicked _ => .panic

/-- The end that a result is. -/
def WorkEnd.ofResult {V : Type} : Except Failure V → WorkEnd V
  | .ok result => .value result
  | .error reason => .failure reason

/-- What is left of a plan after its first step was taken; the last step is never used up. -/
def remainingSteps {α : Type} : List α → List α
  | [] => []
  | [last] => [last]
  | _ :: rest => rest

end HedgedForecast
