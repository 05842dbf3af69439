import HedgedForecast.Cache.Calls
import HedgedForecast.Hedge.Hedger
import HedgedForecast.Publisher.Basic
import HedgedForecast.Publisher.Event
import HedgedForecast.Clock.Simulation

/-! # The forecast service

A lookup gives notice on the side channel and asks the cache for the forecast of its request. The
computation of a flight is a hedged fetch under the flight's own deadline; when the flight is
stopped, so is its fetch.
-/

namespace HedgedForecast

/-- The parts of a service. -/
structure Service where
  cache : Cache (List ForecastDay)
  hedger : Hedger
  publisher : Publisher Event
  policy : Policy
  /-- How long a caller waits who does not say. -/
  requestTimeout : Nat
  /-- The moment at which the clock showed zero. -/
  startedAt : Moment := .epoch
  /-- The request of each flight. -/
  requests : Array Request := #[]
  /-- The fetch of each flight that has one. -/
  fetchOf : List (Nat × Nat) := []

namespace Service

/-- The present instant and all scopes. -/
def clock (service : Service) : Clock :=
  service.cache.clock

/-- The service with another clock. -/
def withClock (service : Service) (clock : Clock) : Service :=
  { service with cache := { service.cache with clock } }

/-- The present moment. -/
def moment (service : Service) : Moment :=
  service.startedAt.later (service.clock.now * 1000000)

/-- A deadline for a caller. -/
def deadline (service : Service) (timeout : Option Nat) : Deadline × Service :=
  let (deadline, clock) := Deadline.after service.clock (timeout.getD service.requestTimeout)
  (deadline, service.withClock clock)

/-- Cancels a deadline. -/
def cancel (service : Service) (deadline : Deadline) : Service :=
  service.withClock (service.clock.cancel deadline.token)

/-- Lets a call end if it can. -/
def pollCall (service : Service) (call : Nat) : Service :=
  { service with cache := (service.cache.turnCall? call).getD service.cache }

/-- Begins a lookup; tells the number of its call. -/
def begin (service : Service) (request : Request) (deadline : Deadline) : Nat × Service :=
  let (call, cache) := service.cache.begin request.cacheKey service.policy deadline
  let requests :=
    if service.requests.size < cache.flights.size then service.requests.push request
    else service.requests
  let publisher := service.publisher.notify ⟨request, service.moment⟩
  let service := { service with cache, requests, publisher }
  (call, service.pollCall call)

/-- How the fetch of a flight ended, if it has. -/
def workOf (service : Service) (flight : Nat) : Option (WorkEnd (List ForecastDay)) :=
  match (service.fetchOf.lookup flight).bind service.hedger.resultOf with
  | some (.ok days) => some (.value days)
  | some (.error failure) => some (.failure failure)
  | none => none

/-- Stops the fetch of a flight. -/
def dropFetch (service : Service) (flight : Nat) : Service :=
  match service.fetchOf.lookup flight with
  | some fetch =>
    let (hedger, clock) := service.hedger.drop service.clock fetch
    { service with hedger }.withClock clock
  | none => service

/-- Begins the fetch of a flight that works and has none. -/
def beginFetch? (service : Service) (number : Nat) : Option Service := do
  let flight ← service.cache.flights[number]?
  let request ← service.requests[number]?
  match flight.phase, service.fetchOf.lookup number with
  | .working deadline, none =>
    let (fetch, hedger, clock) := service.hedger.begin service.clock request deadline
    return { service with hedger, fetchOf := (number, fetch) :: service.fetchOf }.withClock clock
  | _, _ => none

/-- The next turn of a flight: it begins or ends, or its fetch begins. -/
def turnFlight? (service : Service) (number : Nat) : Option Service :=
  match service.cache.turnFlight? number (service.workOf number) with
  | some cache => some ({ service with cache }.dropFetch number)
  | none => service.beginFetch? number

/-- The next turn of the fetches and their legs. -/
def turnHedger? (service : Service) : Option Service :=
  (service.hedger.turn? service.clock).map fun (hedger, clock) =>
    { service with hedger }.withClock clock

/-- The first turn of a flight. -/
def turnFlights? (service : Service) : Option Service :=
  (List.range service.cache.flights.size).findSome? service.turnFlight?

/-- The first turn of a call. -/
def turnCalls? (service : Service) : Option Service :=
  ((List.range service.cache.calls.size).findSome? service.cache.turnCall?).map fun cache =>
    { service with cache }

/-- The next turn of the side channel. -/
def turnPublisher? (service : Service) : Option Service :=
  (service.publisher.turn? service.clock.now).map fun publisher => { service with publisher }

/-- The next turn of any part. -/
def turn? (service : Service) : Option Service :=
  service.turnHedger? <|> service.turnFlights? <|> service.turnCalls? <|> service.turnPublisher?

/-- When a turn may become possible. -/
def timers (service : Service) : List Nat :=
  service.cache.timers ++ service.hedger.timers ++ service.publisher.timers

/-- A service as a system in time. -/
def simulation : Simulation Service where
  now service := service.clock.now
  turn := turn?
  nextTimer service := earliestAfter service.clock.now service.timers
  moveTo instant service := service.withClock (service.clock.moveTo instant)

/-- More turns than any instant of a lookup needs, and more instants than any lookup has. -/
def ample : Nat := 1000000

/-- A lookup that is waited for: its result, and the service when it has returned. -/
def lookup (service : Service) (request : Request) :
    Except Failure (List ForecastDay) × Service :=
  let (deadline, service) := service.deadline none
  let (call, service) := service.begin request deadline
  let service := simulation.runWhile ample (·.cache.isWaiting call) ample service
  match (service.cache.calls[call]?).map Call.phase with
  | some (.returned result _) => (result, service)
  | _ => (.error .cancelled, service)

end Service

end HedgedForecast
