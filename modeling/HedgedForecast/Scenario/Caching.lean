import HedgedForecast.Cache.Workload
import HedgedForecast.Scenario.Session

/-! # Scenarios of a cache

Steps that callers of a cache may take, and what is seen after each.
-/

namespace HedgedForecast.Caching

/-- A caller's question. -/
structure Ask (V : Type) where
  key : String
  script : FactoryScript V
  timeout : Nat
  /-- Whether the caller has given up before asking. -/
  cancelled : Bool
  policy : Policy

/-- What may happen to a cache. -/
inductive Step (V : Type) where
  | get (ask : Ask V)
  | start (id : String) (ask : Ask V)
  | join (id : String)
  | cancel (id : String)
  | drop (id : String)
  | sleep (time : Nat)
  | remove (key : String)
  | purge

/-- What a step itself tells. -/
inductive Answer (V : Type) where
  | nothing
  | call (report : CallReport V)
  | removed (found : Bool)
  | purged (count : Nat)

/-- What is seen after a step. -/
structure Seen (V : Type) where
  now : Nat
  size : Nat
  stats : CacheStats
  pending : List String
  answer : Answer V

/-- A workload as a system with a cache in it. -/
def host (V : Type) : CacheHost (Workload V) V where
  simulation := Workload.simulation V
  cache := Workload.cache
  withCache workload cache := { workload with cache }

variable {V : Type}

/-- Begins a call. -/
def begin (session : Session (Workload V)) (ask : Ask V) : Nat × Session (Workload V) :=
  let (deadline, session) := session.deadline (host V) ask.timeout ask.cancelled
  let (call, state) := session.state.begin ask.key ask.policy deadline ask.script
  (call, { session with state })

/-- Takes a step, without what follows from it. -/
def act (session : Session (Workload V)) : Step V → Session (Workload V) × Answer V
  | .get ask =>
    let (call, session) := begin session ask
    let session := session.waitFor (host V) call
    (session, .call (session.report (host V) call))
  | .start id ask =>
    let (call, session) := begin session ask
    (session.name id call, .nothing)
  | .join id =>
    let (session, report) := session.join (host V) id
    (session, .call report)
  | .cancel id => (session.cancel (host V) id, .nothing)
  | .drop id => (session.drop (host V) id, .nothing)
  | .sleep time => (session.sleep (host V) time, .nothing)
  | .remove key =>
    let (found, cache) := session.state.cache.remove key
    ({ session with state := { session.state with cache } }, .removed found)
  | .purge =>
    let (count, cache) := session.state.cache.purge
    ({ session with state := { session.state with cache } }, .purged count)

/-- Takes a step and lets everything happen that follows at the same instant. -/
def step (session : Session (Workload V)) (step : Step V) : Session (Workload V) × Seen V :=
  let (session, answer) := act session step
  let session := session.settle (host V)
  let cache := session.state.cache
  (session,
    { now := cache.clock.now, size := cache.size, stats := cache.stats
      pending := session.pending (host V), answer })

/-- Takes steps one after another. -/
def steps : Session (Workload V) → List (Step V) → Session (Workload V) × List (Seen V)
  | session, [] => (session, [])
  | session, first :: rest =>
    let (session, seen) := step session first
    let (session, later) := steps session rest
    (session, seen :: later)

/-- A scenario on a new cache: what is seen after each step, and the cache at the end. -/
def run (maxEntries : Nat) (script : List (Step V)) : List (Seen V) × Cache V :=
  let (session, seen) := steps { state := { cache := Cache.empty maxEntries } } script
  (seen, session.state.cache)

end HedgedForecast.Caching
