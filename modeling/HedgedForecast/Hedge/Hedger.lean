import HedgedForecast.Hedge.Fetch
import HedgedForecast.Provider.Basic

/-! # The hedger

A hedger runs fetches over one chain of providers and logs their calls. Legs that are stopped before
their provider was called leave no trace.
-/

namespace HedgedForecast

/-- A fetch and what it is for. -/
structure FetchRun where
  request : Request
  fetch : Fetch
  deriving Repr

/-- Providers, their calls and the fetches over them. -/
structure Hedger where
  /-- How long the first provider runs alone. -/
  threshold : Nat
  providers : List Provider
  calls : Array ProviderCall := #[]
  fetches : Array FetchRun := #[]

namespace Hedger

/-- Begins a fetch, which looks at its scope, its deadline and its timer before any leg begins;
tells its number. -/
def begin (hedger : Hedger) (clock : Clock) (request : Request) (deadline : Deadline) :
    Nat × Hedger × Clock :=
  let begun := Fetch.begin clock hedger.providers.length hedger.threshold deadline
  let (fetch, clock) := (begun.1.turn? begun.2).getD begun
  (hedger.fetches.size, { hedger with fetches := hedger.fetches.push ⟨request, fetch⟩ }, clock)

/-- Changes a fetch. -/
def setFetch (hedger : Hedger) (number : Nat) (fetch : Fetch) : Hedger :=
  { hedger with fetches := hedger.fetches.modify number fun run => { run with fetch } }

/-- Logs the end of a call that still runs. -/
def endCall (hedger : Hedger) (now : Nat) (call : Nat) (outcome : WorkOutcome) : Hedger :=
  { hedger with calls := hedger.calls.modify call fun call =>
      if call.endedAt.isNone then { call with endedAt := some now, outcome := some outcome }
      else call }

/-- Logs that the calls of these legs were stopped. -/
def abandon (hedger : Hedger) (now : Nat) (legs : List Leg) : Hedger :=
  (legs.filterMap Leg.call).foldl (fun hedger call => hedger.endCall now call .abandoned) hedger

/-- Calls the provider of a leg that has not begun. -/
def beginLeg? (hedger : Hedger) (clock : Clock) (number : Nat) (run : FetchRun) (leg : Leg) :
    Option Hedger :=
  if leg.call.isSome then none
  else
    match hedger.providers[leg.index]? with
    | some provider =>
      let (call, provider) := provider.call clock run.request leg.deadline
      let hedger := { hedger with
        providers := hedger.providers.set leg.index provider
        calls := hedger.calls.push call }
      some (hedger.setFetch number (run.fetch.legBegan leg.index (hedger.calls.size - 1)))
    | none => none

/-- Ends a leg whose call ends now. -/
def endLeg? (hedger : Hedger) (clock : Clock) (number : Nat) (run : FetchRun) (leg : Leg) :
    Option Hedger := do
  let callNumber ← leg.call
  let call ← hedger.calls[callNumber]?
  let (ending, outcome) ← call.ending? clock
  return (hedger.endCall clock.now callNumber outcome).setFetch number
    (run.fetch.legEnded leg.index ending)

/-- The turn of the first leg of a fetch that can make one. -/
def turnLeg? (hedger : Hedger) (clock : Clock) (number : Nat) (run : FetchRun) : Option Hedger :=
  run.fetch.legs.findSome? fun leg =>
    (hedger.beginLeg? clock number run leg).orElse fun _ => hedger.endLeg? clock number run leg

/-- The turn of a fetch itself. Legs that it stops are abandoned. -/
def turnFetch? (hedger : Hedger) (clock : Clock) (number : Nat) (run : FetchRun) :
    Option (Hedger × Clock) :=
  (run.fetch.turn? clock).map fun (fetch, clock) =>
    let hedger := if fetch.result.isSome then hedger.abandon clock.now run.fetch.legs else hedger
    (hedger.setFetch number fetch, clock)

/-- The first turn that some fetch or one of its legs can make. -/
def turn? (hedger : Hedger) (clock : Clock) : Option (Hedger × Clock) :=
  (List.range hedger.fetches.size).findSome? fun number =>
    match hedger.fetches[number]? with
    | some run =>
      ((hedger.turnLeg? clock number run).map (·, clock)).orElse fun _ =>
        hedger.turnFetch? clock number run
    | none => none

/-- Stops a fetch from outside. -/
def drop (hedger : Hedger) (clock : Clock) (number : Nat) : Hedger × Clock :=
  match hedger.fetches[number]? with
  | some run =>
    if run.fetch.result.isSome then (hedger, clock)
    else
      let (fetch, clock) := run.fetch.close clock (.error .cancelled)
      ((hedger.abandon clock.now run.fetch.legs).setFetch number fetch, clock)
  | none => (hedger, clock)

/-- The result of a fetch, if it has ended. -/
def resultOf (hedger : Hedger) (number : Nat) : Option (Except Failure (List ForecastDay)) :=
  hedger.fetches[number]?.bind fun run => run.fetch.result

/-- When a turn may become possible. -/
def timers (hedger : Hedger) : List Nat :=
  hedger.fetches.toList.flatMap fun run =>
    if run.fetch.result.isSome then []
    else
      run.fetch.deadline.instant :: run.fetch.timerAt ::
        run.fetch.legs.filterMap fun leg =>
          leg.call.bind fun call => hedger.calls[call]?.map ProviderCall.dueAt

end Hedger

end HedgedForecast
