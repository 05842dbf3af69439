import HedgedForecast.Clock.Deadline

/-! # Work under a deadline

Guarded work ends in one of three ways. If several are possible at once, being cancelled comes
before running out of time, and that before the work's own end.
-/

namespace HedgedForecast

/-- How guarded work ends. -/
inductive GuardEnd (α : Type) where
  | cancelled
  | expired
  | done (result : α)
  deriving DecidableEq, Repr

/-- How work under a deadline ends at the present instant, if it ends; `work` is its own result, if
it has one. -/
def Deadline.verdict {α : Type} (clock : Clock) (deadline : Deadline) (work : Option α) :
    Option (GuardEnd α) :=
  if deadline.isCancelled clock then some .cancelled
  else if deadline.isExpired clock then some .expired
  else work.map .done

/-- Looks whether work under a deadline ends at the present instant. The work is asked for its result
last, and only if neither its scope nor its time has ended it; asking may change it. -/
def Deadline.poll {α ω : Type} (clock : Clock) (deadline : Deadline) (ask : ω → Option α × ω)
    (work : ω) : Option (GuardEnd α) × ω :=
  if deadline.isCancelled clock then (some .cancelled, work)
  else if deadline.isExpired clock then (some .expired, work)
  else
    let (result, work) := ask work
    (result.map .done, work)

/-- Looking tells the same as if the work had been asked beforehand. -/
theorem Deadline.poll_fst {α ω : Type} (clock : Clock) (deadline : Deadline)
    (ask : ω → Option α × ω) (work : ω) :
    (deadline.poll clock ask work).1 = deadline.verdict clock (ask work).1 := by
  unfold poll verdict
  split
  · rfl
  · split <;> rfl

end HedgedForecast
