import HedgedForecast.Cache.Calls
import HedgedForecast.Clock.Simulation

/-! # Sessions

A session is a system with a cache in it, together with callers under names: calls that were begun
on the side and may later be waited for, cancelled or given up. After each step everything that can
happen at the present instant has happened.
-/

namespace HedgedForecast

/-- A system with a cache in it. -/
structure CacheHost (σ V : Type) where
  simulation : Simulation σ
  cache : σ → Cache V
  withCache : σ → Cache V → σ

/-- What became of a call. -/
inductive CallReport (V : Type) where
  | returned (result : Except Failure V) (instant : Nat)
  | dropped
  | waiting

/-- A system and the named calls on it. -/
structure Session (σ : Type) where
  state : σ
  started : List (String × Nat) := []
  joined : List String := []

namespace Session

variable {σ V : Type} (host : CacheHost σ V)

/-- More turns than any instant of a session needs, and more instants than any session has. -/
def ample : Nat := 1000000

/-- Lets everything happen that can happen now. -/
def settle (session : Session σ) : Session σ :=
  { session with state := host.simulation.settle ample session.state }

/-- Lets time pass. -/
def sleep (session : Session σ) (time : Nat) : Session σ :=
  let instant := host.simulation.now session.state + time
  { session with state := host.simulation.runUntil ample instant ample session.state }

/-- Lets time pass until a call has ended. -/
def waitFor (session : Session σ) (call : Nat) : Session σ :=
  let waiting := fun state => (host.cache state).isWaiting call
  { session with state := host.simulation.runWhile ample waiting ample session.state }

/-- What became of a call. -/
def report (session : Session σ) (call : Nat) : CallReport V :=
  match (host.cache session.state).calls[call]? with
  | some call =>
    match call.phase with
    | .returned result instant => .returned result instant
    | .dropped => .dropped
    | _ => .waiting
  | none => .dropped

/-- A deadline for a caller, possibly cancelled at once. -/
def deadline (session : Session σ) (timeout : Nat) (cancelled : Bool) : Deadline × Session σ :=
  let cache := host.cache session.state
  let (deadline, clock) := Deadline.after cache.clock timeout
  let clock := if cancelled then clock.cancel deadline.token else clock
  (deadline, { session with state := host.withCache session.state { cache with clock } })

/-- Gives a name to a call. -/
def name (session : Session σ) (id : String) (call : Nat) : Session σ :=
  { session with
    started := (id, call) :: session.started
    joined := session.joined.filter (· != id) }

/-- Waits for a named call. -/
def join (session : Session σ) (id : String) : Session σ × CallReport V :=
  match session.started.lookup id with
  | some call =>
    let session := session.waitFor host call
    ({ session with joined := id :: session.joined }, session.report host call)
  | none => (session, .dropped)

/-- Cancels the deadline of a named call. -/
def cancel (session : Session σ) (id : String) : Session σ :=
  let cache := host.cache session.state
  match session.started.lookup id with
  | some call =>
    match cache.calls[call]? with
    | some call =>
      let clock := cache.clock.cancel call.deadline.token
      { session with state := host.withCache session.state { cache with clock } }
    | none => session
  | none => session

/-- Gives up a named call. -/
def drop (session : Session σ) (id : String) : Session σ :=
  match session.started.lookup id with
  | some call =>
    let cache := (host.cache session.state).dropCall call
    { session with state := host.withCache session.state cache }
  | none => session

/-- The names of calls that were begun and still wait, in order. -/
def pending (session : Session σ) : List String :=
  let cache := host.cache session.state
  let waiting := session.started.filter fun (id, call) =>
    cache.isWaiting call && !session.joined.contains id
  (waiting.map (·.1)).mergeSort fun a b => !decide (b < a)

/-- Gives up all named calls. -/
def dropAll (session : Session σ) : Session σ :=
  session.started.foldl (fun session (id, _) => session.drop host id) session

end Session

end HedgedForecast
