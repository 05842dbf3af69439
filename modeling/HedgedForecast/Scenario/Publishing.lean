import HedgedForecast.Clock.Simulation
import HedgedForecast.Publisher.Basic

/-! # Scenarios of a side channel

Notices given at different times, and what the publisher has counted after each step.
-/

namespace HedgedForecast.Publishing

variable {α : Type}

/-- What may happen to a publisher. -/
inductive Step (α : Type) where
  /-- The same notice, given some times before the worker makes a turn. -/
  | notify (notice : α) (burst : Nat)
  | sleep (time : Nat)
  /-- No more notices; the worker finishes what is queued. -/
  | shutdown

/-- What is seen after a step. -/
structure Seen where
  now : Nat
  stats : PublisherStats
  /-- Whether this was the last step. -/
  final : Bool

/-- A publisher in time. -/
structure State (α : Type) where
  now : Nat := 0
  publisher : Publisher α

/-- A publisher as a system in time. -/
def simulation (α : Type) : Simulation (State α) where
  now := State.now
  turn state := (state.publisher.turn? state.now).map fun publisher => { state with publisher }
  nextTimer state := earliestAfter state.now state.publisher.timers
  moveTo instant state := { state with now := max state.now instant }

/-- As many turns as the worker may make before the next notice, and as many instants at which it may make them:
what is queued is handed over, and each handover ends. -/
def enough (state : State α) : Nat :=
  2 * state.publisher.queue.length + 2

/-- Gives the same notice some times. -/
def notifyMany (publisher : Publisher α) (notice : α) : Nat → Publisher α
  | 0 => publisher
  | count + 1 => notifyMany (publisher.notify notice) notice count

/-- Takes a step. -/
def act (state : State α) : Step α → State α
  | .notify notice burst =>
    let state := { state with publisher := notifyMany state.publisher notice burst }
    (simulation α).settle (enough state) state
  | .sleep time => (simulation α).runUntil (enough state) (state.now + time) (enough state) state
  | .shutdown =>
    (simulation α).runWhile (enough state) (fun state => !state.publisher.isDrained) (enough state) state

/-- Takes steps one after another, up to the shutdown. -/
def steps : State α → List (Step α) → State α × List Seen
  | state, [] => (state, [])
  | state, .shutdown :: _ =>
    let state := act state .shutdown
    (state, [⟨state.now, state.publisher.stats, true⟩])
  | state, first :: rest =>
    let state := act state first
    let (last, later) := steps state rest
    (last, ⟨state.now, state.publisher.stats, false⟩ :: later)

/-- A scenario on a new publisher: what is seen after each step, and all handovers. -/
def run (capacity timeout : Nat) (sink : List (α → Delivery)) (script : List (Step α)) :
    List Seen × List (Handover α) :=
  let (state, seen) := steps { publisher := Publisher.make capacity timeout sink } script
  (seen, state.publisher.handovers.toList)

end HedgedForecast.Publishing
