import HedgedForecast.Clock.Simulation
import HedgedForecast.Hedge.Hedger

/-! # Scenarios of a hedger

Fetches one after another, each under a new deadline that may be cancelled on the way.
-/

namespace HedgedForecast.Hedging

/-- A series of fetches. -/
structure Plan where
  request : Request
  providers : List Provider
  threshold : Nat
  timeout : Nat
  /-- When the caller gives up, counted from the start of a fetch; zero means beforehand. -/
  cancelAfter : Option Nat
  fetches : Nat
  /-- How long to wait after each fetch. -/
  pause : Nat

/-- What is seen of a fetch. -/
structure Seen where
  result : Except Failure (List ForecastDay)
  elapsed : Nat
  callerCancelled : Bool

/-- A hedger in time. -/
structure State where
  clock : Clock := {}
  hedger : Hedger
  /-- Scopes that will be cancelled, each with its instant. -/
  dueCancellations : List (Nat × Token) := []

/-- The next turn: a due cancellation, or a turn of the hedger. -/
def State.turn? (state : State) : Option State :=
  match state.dueCancellations with
  | (instant, token) :: rest =>
    if instant ≤ state.clock.now then
      some { state with clock := state.clock.cancel token, dueCancellations := rest }
    else (state.hedger.turn? state.clock).map fun (hedger, clock) => { state with hedger, clock }
  | [] => (state.hedger.turn? state.clock).map fun (hedger, clock) => { state with hedger, clock }

/-- A hedger as a system in time. -/
def simulation : Simulation State where
  now state := state.clock.now
  turn := State.turn?
  nextTimer state :=
    earliestAfter state.clock.now (state.hedger.timers ++ state.dueCancellations.map (·.1))
  moveTo instant state := { state with clock := state.clock.moveTo instant }

/-- More turns than any instant of a series needs, and more instants than any series has. -/
def ample : Nat := 1000000

/-- The caller's deadline, with its cancellation under way. -/
def State.deadline (state : State) (plan : Plan) : Deadline × State :=
  let (deadline, clock) := Deadline.after state.clock plan.timeout
  match plan.cancelAfter with
  | some 0 => (deadline, { state with clock := clock.cancel deadline.token })
  | some delay =>
    (deadline, { state with clock, dueCancellations := [(clock.now + delay, deadline.token)] })
  | none => (deadline, { state with clock })

/-- One fetch and the pause after it. -/
def fetchOnce (plan : Plan) (state : State) : State × Seen :=
  let start := state.clock.now
  let (deadline, state) := state.deadline plan
  let (number, hedger, clock) := state.hedger.begin state.clock plan.request deadline
  let running := fun (state : State) => (state.hedger.resultOf number).isNone
  let state := simulation.runWhile ample running ample { state with hedger, clock }
  let seen : Seen :=
    { result := (state.hedger.resultOf number).getD (.error .cancelled)
      elapsed := state.clock.now - start
      callerCancelled := deadline.isCancelled state.clock }
  let state := { state with dueCancellations := [] }
  (simulation.runUntil ample (state.clock.now + plan.pause) ample state, seen)

/-- Fetches one after another. -/
def fetchMany (plan : Plan) : Nat → State → State × List Seen
  | 0, state => (state, [])
  | count + 1, state =>
    let (state, seen) := fetchOnce plan state
    let (state, later) := fetchMany plan count state
    (state, seen :: later)

/-- A series of fetches: what is seen of each, and all calls. -/
def run (plan : Plan) : List Seen × List ProviderCall :=
  let hedger : Hedger := { threshold := plan.threshold, providers := plan.providers }
  let (state, seen) := fetchMany plan plan.fetches { hedger }
  (seen, state.hedger.calls.toList)

end HedgedForecast.Hedging
