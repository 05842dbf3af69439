import HedgedForecast.Day
import HedgedForecast.Work

/-! # Hedged fetches

A fetch asks the providers of a chain in order. The first one runs alone for a while; if it has not
answered by then, the second is asked as well. Each failure frees a place for the next provider. The
first success wins, a failure that nobody can help ends the fetch, and if all fail the failure of
the last provider in the chain is the result.

What a provider does is not part of a fetch: a leg ends when the fetch is told so.
-/

namespace HedgedForecast

/-- One provider being asked. -/
structure Leg where
  /-- The provider's place in the chain. -/
  index : Nat
  deadline : Deadline
  /-- The provider's call, once it has begun. -/
  call : Option Nat := none
  deriving DecidableEq, Repr

/-- A forecast being fetched. -/
structure Fetch where
  deadline : Deadline
  /-- The scope of all legs, within the caller's. -/
  scope : Token
  /-- How many providers there are. -/
  size : Nat
  /-- When the second provider is asked. -/
  timerAt : Nat
  /-- The place of the next provider to ask. -/
  next : Nat
  /-- Whether the timer still counts. -/
  primaryRunning : Bool
  /-- The legs that run, in the order of their start. -/
  legs : List Leg
  /-- Legs that ended and are not looked at yet, oldest first. -/
  arrivals : List (Nat × WorkEnd (List ForecastDay)) := []
  failures : List (Nat × Failure) := []
  result : Option (Except Failure (List ForecastDay)) := none
  deriving Repr

namespace Fetch

/-- What a chain without providers gives. -/
def noProviders : Failure :=
  .unavailable (.providerFailed "chain" "no providers configured")

/-- The failure of a leg that panicked. -/
def panicFailure (panic : Panic) : Failure :=
  .providerFailed "hedge" s!"provider task failed: {panic.text}"

/-- Of failures with ranks, the one with the highest rank; of two, the later. -/
def lastFailure : List (Nat × Failure) → Option (Nat × Failure)
  | [] => none
  | first :: rest => some (rest.foldl (fun best failure =>
      if best.1 ≤ failure.1 then failure else best) first)

/-- The failure of a fetch whose providers have all failed. -/
def totalFailure (failures : List (Nat × Failure)) : Failure :=
  match lastFailure failures with
  | some (_, failure) => failure
  | none => .unavailable (.providerFailed "chain" "no provider produced a result")

/-- Asks the next provider. -/
def startLeg (fetch : Fetch) (clock : Clock) : Fetch × Clock :=
  let (token, clock) := clock.childToken fetch.scope
  let leg : Leg := { index := fetch.next, deadline := ⟨fetch.deadline.instant, token⟩ }
  ({ fetch with legs := fetch.legs ++ [leg], next := fetch.next + 1 }, clock)

/-- Begins a fetch: the first provider is asked. -/
def begin (clock : Clock) (size threshold : Nat) (deadline : Deadline) : Fetch × Clock :=
  let (scope, clock) := clock.childToken deadline.token
  let fetch : Fetch :=
    { deadline, scope, size, timerAt := clock.now + threshold, next := 0, primaryRunning := true
      legs := [] }
  if size == 0 then ({ fetch with result := some (.error noProviders) }, clock)
  else fetch.startLeg clock

/-- Ends a fetch: all legs still running are stopped. -/
def close (fetch : Fetch) (clock : Clock) (result : Except Failure (List ForecastDay)) :
    Fetch × Clock :=
  ({ fetch with legs := [], arrivals := [], result := some result }, clock.cancel fetch.scope)

/-- Notes a failure of the given rank; the next provider is asked if there is one, and without any
leg left the fetch has failed. -/
def fail (fetch : Fetch) (clock : Clock) (rank : Nat) (failure : Failure) : Fetch × Clock :=
  let fetch := { fetch with failures := fetch.failures ++ [(rank, failure)] }
  if fetch.next < fetch.size then fetch.startLeg clock
  else if fetch.legs.isEmpty && fetch.arrivals.isEmpty then
    fetch.close clock (.error (totalFailure fetch.failures))
  else (fetch, clock)

/-- Looks at a leg that ended. It is not known whose leg panicked: such a failure ranks last. -/
def arrive (fetch : Fetch) (clock : Clock) (index : Nat) :
    WorkEnd (List ForecastDay) → Fetch × Clock
  | .panicked panic => fetch.fail clock fetch.size (panicFailure panic)
  | .value days => fetch.close clock (.ok days)
  | .failure failure =>
    let fetch := if index == 0 then { fetch with primaryRunning := false } else fetch
    if failure.isTerminal then fetch.close clock (.error failure)
    else fetch.fail clock index failure

/-- Whether the second provider is to be asked because the first takes too long. -/
def timerDue (fetch : Fetch) (now : Nat) : Bool :=
  fetch.primaryRunning && fetch.next < fetch.size && fetch.timerAt ≤ now

/-- The next turn of a fetch, if it can make one: it looks at its scope, then at its deadline, then
at a leg that ended, then at its timer. -/
def turn? (fetch : Fetch) (clock : Clock) : Option (Fetch × Clock) :=
  if fetch.result.isSome then none
  else if fetch.deadline.isCancelled clock then some (fetch.close clock (.error .cancelled))
  else if fetch.deadline.isExpired clock then
    some (fetch.close clock (.error (.timeout .request)))
  else
    match fetch.arrivals with
    | (index, ending) :: rest => some ({ fetch with arrivals := rest }.arrive clock index ending)
    | [] =>
      if fetch.timerDue clock.now then
        some ({ fetch with primaryRunning := false }.startLeg clock)
      else none

/-- The call of a leg has begun. -/
def legBegan (fetch : Fetch) (index call : Nat) : Fetch :=
  { fetch with
    legs := fetch.legs.map fun leg =>
      if leg.index == index then { leg with call := some call } else leg }

/-- A leg ended. -/
def legEnded (fetch : Fetch) (index : Nat) (ending : WorkEnd (List ForecastDay)) : Fetch :=
  { fetch with
    legs := fetch.legs.filter (·.index != index)
    arrivals := fetch.arrivals ++ [(index, ending)] }

end Fetch

end HedgedForecast
