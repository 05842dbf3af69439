import HedgedForecast.Day
import HedgedForecast.Request
import HedgedForecast.Work

/-! # Providers

A provider is known by what its coming calls do: each call takes the next step of its plan, which
says how long the call takes and how it ends; the last step repeats. Normally a call gives way to
its deadline, but a provider may also ignore it.
-/

namespace HedgedForecast

/-- What one call of a provider does. -/
structure ProviderStep where
  /-- How long the call takes. -/
  delay : Nat
  /-- How it ends then for a request, if it ends. -/
  ending : Request → Option (WorkEnd (List ForecastDay))

/-- A provider under its name. -/
structure Provider where
  name : String
  steps : List ProviderStep
  ignoresDeadline : Bool := false

/-- The first day of made-up forecasts. -/
def sampleStart : Date :=
  ⟨2026, 4, 1, by decide, by decide, by decide⟩

/-- A made-up forecast: as many days as asked for, with one maximum. -/
def sampleDays (count : Nat) (maximum : Float) : List ForecastDay :=
  (sampleStart.consecutive count).map fun date =>
    { date, minimum := maximum - 8.0, maximum, average := maximum - 4.0
      condition := "Partly cloudy" }

/-- How made-up work panics. -/
def WorkEnd.panic {V : Type} : WorkEnd V :=
  .panicked ⟨"N", some "boom"⟩

/-- A call of a provider, as it is logged. -/
structure ProviderCall where
  provider : String
  request : Request
  deadline : Deadline
  startedAt : Nat
  /-- When it ends by itself, if it does. -/
  dueAt : Nat
  ending : Option (WorkEnd (List ForecastDay))
  ignoresDeadline : Bool
  endedAt : Option Nat := none
  outcome : Option WorkOutcome := none
  deriving Repr

namespace ProviderCall

/-- The time that was left at the start. -/
def remainingAtStart (call : ProviderCall) : Nat :=
  call.deadline.instant - call.startedAt

/-- How the call ends now, if it ends: by itself, or because of its deadline. -/
def ending? (clock : Clock) (call : ProviderCall) :
    Option (WorkEnd (List ForecastDay) × WorkOutcome) :=
  let own := if call.dueAt ≤ clock.now then call.ending else none
  if call.ignoresDeadline then own.map fun ending => (ending, ending.outcome)
  else
    (call.deadline.verdict clock own).map fun
      | .cancelled => (.failure .cancelled, .abandoned)
      | .expired => (.failure (.timeout .provider), .abandoned)
      | .done ending => (ending, ending.outcome)

end ProviderCall

/-- The call that a provider makes under a deadline, and the provider after it. One without any
steps fails at once, whatever its deadline. -/
def Provider.call (provider : Provider) (clock : Clock) (request : Request)
    (deadline : Deadline) : ProviderCall × Provider :=
  let now := clock.now
  match provider.steps with
  | [] =>
    let ending := .failure (.providerFailed provider.name "no scripted step")
    ({ provider := provider.name, request, deadline, startedAt := now, dueAt := now
       ending := some ending, ignoresDeadline := true }, provider)
  | step :: _ =>
    ({ provider := provider.name, request, deadline, startedAt := now, dueAt := now + step.delay
       ending := step.ending request, ignoresDeadline := provider.ignoresDeadline },
      { provider with steps := remainingSteps provider.steps })

end HedgedForecast
