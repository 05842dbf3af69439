import HedgedForecast.Scenario.Session
import HedgedForecast.Service

/-! # Scenarios of a service

Steps that users of a forecast service may take, and what is seen after each.
-/

namespace HedgedForecast.Serving

/-- A lookup as it is asked for. -/
structure Ask where
  city : String
  country : String
  days : Nat
  /-- How long the caller waits, if not as long as the service says. -/
  timeout : Option Nat
  /-- Whether the caller has given up before asking. -/
  cancelled : Bool

/-- What may happen to a service. -/
inductive Step where
  | get (ask : Ask)
  | start (id : String) (ask : Ask)
  | join (id : String)
  | cancel (id : String)
  | drop (id : String)
  | sleep (time : Nat)
  | purge
  | providers
  /-- All callers give up, and the side channel finishes what is queued. -/
  | shutdown

/-- What a step itself tells. -/
inductive Answer where
  | nothing
  | call (report : CallReport (List ForecastDay))
  /-- The lookup is no request. -/
  | rejected (failure : Failure)
  | purged (count : Nat)
  | providers (names : List String)
  | final

/-- What is seen after a step. -/
structure Seen where
  now : Nat
  cache : CacheStats
  publisher : PublisherStats
  pending : List String
  answer : Answer

/-- A service as a system with a cache in it. -/
def host : CacheHost Service (List ForecastDay) where
  simulation := Service.simulation
  cache := Service.cache
  withCache service cache := { service with cache }

/-- Begins a lookup, unless it is no request. -/
def begin (session : Session Service) (ask : Ask) : Except Failure (Nat × Session Service) :=
  match Request.parse ask.city ask.country ask.days with
  | .error failure => .error failure
  | .ok request =>
    let timeout := ask.timeout.getD session.state.requestTimeout
    let (deadline, session) := session.deadline host timeout ask.cancelled
    let (call, state) := session.state.begin request deadline
    .ok (call, { session with state })

/-- Whether the side channel still has something to do. -/
def publishing (service : Service) : Bool :=
  !service.publisher.isDrained

/-- Takes a step, without what follows from it. -/
def act (session : Session Service) : Step → Session Service × Answer
  | .get ask =>
    match begin session ask with
    | .error failure => (session, .rejected failure)
    | .ok (call, session) =>
      let session := session.waitFor host call
      (session, .call (session.report host call))
  | .start id ask =>
    match begin session ask with
    | .error failure => (session, .rejected failure)
    | .ok (call, session) => (session.name id call, .nothing)
  | .join id =>
    let (session, report) := session.join host id
    (session, .call report)
  | .cancel id => (session.cancel host id, .nothing)
  | .drop id => (session.drop host id, .nothing)
  | .sleep time => (session.sleep host time, .nothing)
  | .purge =>
    let (count, cache) := session.state.cache.purge
    ({ session with state := { session.state with cache } }, .purged count)
  | .providers => (session, .providers (session.state.hedger.providers.map Provider.name))
  | .shutdown =>
    let session := (session.dropAll host).settle host
    let ample := Session.ample
    ({ session with
        state := Service.simulation.runWhile ample publishing ample session.state }, .final)

/-- Takes a step and lets everything happen that follows at the same instant. -/
def step (session : Session Service) (step : Step) : Session Service × Seen :=
  let (session, answer) := act session step
  let session := session.settle host
  let service := session.state
  (session,
    { now := service.clock.now, cache := service.cache.stats, publisher := service.publisher.stats
      pending := session.pending host, answer })

/-- Takes steps one after another, up to the shutdown. -/
def steps : Session Service → List Step → Session Service × List Seen
  | session, [] => (session, [])
  | session, .shutdown :: _ =>
    let (session, seen) := step session .shutdown
    (session, [seen])
  | session, first :: rest =>
    let (session, seen) := step session first
    let (session, later) := steps session rest
    (session, seen :: later)

/-- A scenario on a service: what is seen after each step, and the service at the end. -/
def run (service : Service) (script : List Step) : List Seen × Service :=
  let (session, seen) := steps { state := service } script
  (seen, session.state)

end HedgedForecast.Serving
