import HedgedForecast.Cache.Calls
import HedgedForecast.Clock.Simulation

/-! # Caches with scripted computations

A workload is a cache in which each caller brings a script for the computation, should its call
start one: how long it takes and how it ends.
-/

namespace HedgedForecast

/-- A scripted computation. -/
structure FactoryScript (V : Type) where
  delay : Nat
  ending : WorkEnd V
  deriving Repr

/-- A cache and the script of each of its flights. -/
structure Workload (V : Type) where
  cache : Cache V
  scripts : Array (FactoryScript V) := #[]
  deriving Repr

namespace Workload

variable {V : Type}

/-- How the computation of a flight ended, if it has. -/
def workOf (workload : Workload V) (number : Nat) : Option (WorkEnd V) := do
  let flight ← workload.cache.flights[number]?
  let script ← workload.scripts[number]?
  let started ← flight.startedAt
  if started + script.delay ≤ workload.cache.clock.now then some script.ending else none

/-- Begins a call; tells its number. -/
def begin (workload : Workload V) (key : String) (policy : Policy) (deadline : Deadline)
    (script : FactoryScript V) : Nat × Workload V :=
  let (call, cache) := workload.cache.begin key policy deadline
  let scripts :=
    if workload.scripts.size < cache.flights.size then workload.scripts.push script
    else workload.scripts
  (call, ⟨(cache.turnCall? call).getD cache, scripts⟩)

/-- The next turn of a flight or call. -/
def turn? (workload : Workload V) : Option (Workload V) :=
  let cache := workload.cache
  let flights := (List.range cache.flights.size).findSome? fun number =>
    cache.turnFlight? number (workload.workOf number)
  let turned := flights <|> (List.range cache.calls.size).findSome? cache.turnCall?
  turned.map fun cache => { workload with cache }

/-- When computations end by themselves. -/
def workTimers (workload : Workload V) : List Nat :=
  (List.range workload.cache.flights.size).filterMap fun number => do
    let flight ← workload.cache.flights[number]?
    let script ← workload.scripts[number]?
    match flight.phase with
    | .working _ => flight.startedAt.map (· + script.delay)
    | _ => none

/-- A workload as a system in time. -/
def simulation (V : Type) : Simulation (Workload V) where
  now workload := workload.cache.clock.now
  turn := turn?
  nextTimer workload :=
    earliestAfter workload.cache.clock.now (workload.cache.timers ++ workload.workTimers)
  moveTo instant workload :=
    { workload with cache :=
        { workload.cache with clock := workload.cache.clock.moveTo instant } }

end Workload

end HedgedForecast
