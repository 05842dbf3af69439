import HedgedForecast.Cache.Slots

/-! # Flights

A flight is launched, begins its computation under a deadline of its own, and lands when the
computation ends or is stopped. What it computed becomes the entry of its slot. A flight that is not
detached is cancelled when the last caller leaves it.
-/

namespace HedgedForecast.Cache

variable {V : Type}

/-- Starts a flight for a slot and puts it there. -/
def launch (cache : Cache V) (key : String) (slot : Nat) (policy : Policy) (trigger : Trigger)
    (waiters : Nat) : Nat × Cache V :=
  let number := cache.flights.size
  let (token, clock) := cache.clock.freshToken
  let flight : Flight V :=
    { key, slot, policy, trigger, token, waiters, detached := trigger != .cold
      launchedAt := clock.now }
  let cache := { cache with clock, flights := cache.flights.push flight }
  let cache := cache.modifySlot slot fun slot => { slot with flight := some number }
  (number, cache.count fun stats => { stats with factoryCalls := stats.factoryCalls + 1 })

/-- A caller begins to wait for a flight. -/
def join (cache : Cache V) (flight : Nat) : Cache V :=
  cache.modifyFlight flight fun flight => { flight with waiters := flight.waiters + 1 }

/-- From now on a flight goes on without callers. -/
def detach (cache : Cache V) (flight : Nat) : Cache V :=
  cache.modifyFlight flight fun flight => { flight with detached := true }

/-- A caller no longer waits for a flight. -/
def leave (cache : Cache V) (number : Nat) : Cache V :=
  match cache.flights[number]? with
  | some flight =>
    let cache := cache.modifyFlight number fun flight =>
      { flight with waiters := flight.waiters - 1 }
    if flight.waiters ≤ 1 && !flight.detached then
      { cache with clock := cache.clock.cancel flight.token }
    else cache
  | none => cache

/-- Begins the computation of a queued flight. -/
def startFlight (cache : Cache V) (number : Nat) : Cache V :=
  cache.modifyFlight number fun flight =>
    let limit := flight.policy.hardLimit.getD Deadline.unboundedTime
    { flight with
      phase := .working ⟨cache.clock.now + limit, flight.token⟩
      startedAt := some cache.clock.now }

/-- Stores a computed value. -/
def store (cache : Cache V) (number : Nat) (flight : Flight V) (value : V) : Cache V :=
  let entry : Entry V :=
    { value, storedAt := cache.clock.now, policy := flight.policy, flight := number }
  cache.modifySlot flight.slot fun slot => { slot with entry := some entry }

/-- Takes a flight out of its slot, if it is still there. -/
def uninstall (cache : Cache V) (number : Nat) (flight : Flight V) : Cache V :=
  cache.modifySlot flight.slot fun slot =>
    if slot.flight == some number then { slot with flight := none } else slot

/-- Marks a flight as ended. -/
def close (cache : Cache V) (number : Nat) (phase : FlightPhase V) (outcome : WorkOutcome) :
    Cache V :=
  let now := cache.clock.now
  cache.modifyFlight number fun flight =>
    { flight with phase, outcome := some outcome, endedAt := some now }

/-- Ends a flight with a failure, which all callers will see. -/
def land (cache : Cache V) (number : Nat) (flight : Flight V) (failure : Failure)
    (outcome : WorkOutcome) : Cache V :=
  let cache := cache.count fun stats => { stats with refreshFailures := stats.refreshFailures + 1 }
  (cache.uninstall number flight).close number (.landed (.error failure)) outcome

/-- Ends a flight with a value. A policy that stores values but names no eager point loses the
flight, which then stays in its slot. -/
def landValue (cache : Cache V) (number : Nat) (flight : Flight V) (value : V) : Cache V :=
  if flight.policy.storesEntries && flight.policy.eagerPoint == .undefined then
    cache.close number .lost .ok
  else
    let cache := if flight.policy.storesEntries then cache.store number flight value else cache
    (cache.uninstall number flight).close number (.landed (.ok value)) .ok

/-- Ends a flight. One whose computation panics is lost and stays in its slot. -/
def endFlight (cache : Cache V) (number : Nat) (flight : Flight V) :
    GuardEnd (WorkEnd V) → Cache V
  | .cancelled => cache.land number flight .cancelled .abandoned
  | .expired => cache.land number flight (.timeout .factory) .abandoned
  | .done (.value value) => cache.landValue number flight value
  | .done (.failure failure) => cache.land number flight failure .err
  | .done (.panicked _) => cache.close number .lost .panic

/-- The next turn of a flight, if it can make one: it begins, or it ends. The computation's own end
is given if it has come. -/
def turnFlight? (cache : Cache V) (number : Nat) (work : Option (WorkEnd V)) : Option (Cache V) :=
  match cache.flights[number]? with
  | some flight =>
    match flight.phase with
    | .queued => some (cache.startFlight number)
    | .working deadline =>
      (deadline.verdict cache.clock work).map (cache.endFlight number flight)
    | _ => none
  | none => none

end HedgedForecast.Cache
