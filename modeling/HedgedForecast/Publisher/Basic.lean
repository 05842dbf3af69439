import HedgedForecast.Work

/-! # The side channel

Notices are queued and delivered one at a time by a worker. A full queue drops the notice, a
delivery that fails or takes too long is given up; whoever gives notice never waits. A delivery that
panics ends the worker: what is queued is lost, and later notices are dropped.

How long a delivery takes and how it ends is not part of the publisher: it is told by the sink.
-/

namespace HedgedForecast

/-- Why a sink did not take a notice. -/
inductive PublishFailure where
  | rejected (reason : String)
  | network (detail : String)
  deriving DecidableEq, Repr

/-- The wording of such a failure. -/
def PublishFailure.message : PublishFailure → String
  | rejected reason => s!"Sink rejected event: {reason}"
  | network detail => s!"Network error: {detail}"

/-- How a delivery ends by itself. -/
inductive DeliveryEnd where
  | accepted
  | refused (failure : PublishFailure)
  | panic
  deriving DecidableEq, Repr

/-- How a delivery that ended by itself is told to have ended. -/
def DeliveryEnd.outcome : DeliveryEnd → WorkOutcome
  | accepted => .ok
  | refused _ => .err
  | panic => .panic

/-- How a delivery goes in a sink. -/
structure Delivery where
  /-- How long it takes; without an answer it never ends by itself. -/
  delay : Option Nat := some 0
  ending : DeliveryEnd := .accepted
  deriving DecidableEq, Repr

/-- A notice that was handed to the sink. -/
structure Handover (α : Type) where
  notice : α
  startedAt : Nat
  delivery : Delivery
  endedAt : Option Nat := none
  outcome : Option WorkOutcome := none
  deriving Repr

/-- What the worker does. -/
inductive Worker where
  | idle
  /-- It waits for the end of the handover with this number. -/
  | delivering (handover : Nat)
  | dead
  deriving DecidableEq, Repr

/-- What a publisher counts. -/
structure PublisherStats where
  published : Nat := 0
  failed : Nat := 0
  dropped : Nat := 0
  deriving DecidableEq, Repr

/-- A queue, its worker and everything that was handed over. -/
structure Publisher (α : Type) where
  /-- How many notices the queue holds, at least one. -/
  capacity : Nat
  /-- How long a delivery may take. -/
  timeout : Nat
  /-- How the coming deliveries go; the last one repeats, and without any they are accepted. -/
  sink : List (α → Delivery)
  queue : List α := []
  worker : Worker := .idle
  handovers : Array (Handover α) := #[]
  stats : PublisherStats := {}

namespace Publisher

variable {α : Type}

/-- A publisher with an empty queue. -/
def make (capacity timeout : Nat) (sink : List (α → Delivery)) : Publisher α :=
  { capacity := max capacity 1, timeout, sink }

/-- Changes the counts. -/
def count (publisher : Publisher α) (change : PublisherStats → PublisherStats) : Publisher α :=
  { publisher with stats := change publisher.stats }

/-- Queues a notice, or drops it if the queue is full or the worker dead. -/
def notify (publisher : Publisher α) (notice : α) : Publisher α :=
  if publisher.worker == .dead || publisher.capacity ≤ publisher.queue.length then
    publisher.count fun stats => { stats with dropped := stats.dropped + 1 }
  else { publisher with queue := publisher.queue ++ [notice] }

/-- How the delivery of a notice goes. -/
def nextDelivery (sink : List (α → Delivery)) (notice : α) : Delivery :=
  match sink with
  | [] => {}
  | first :: _ => first notice

/-- Hands the first notice of the queue to the sink. -/
def take (publisher : Publisher α) (now : Nat) (notice : α) (rest : List α) : Publisher α :=
  let delivery := nextDelivery publisher.sink notice
  { publisher with
    sink := remainingSteps publisher.sink
    queue := rest
    worker := .delivering publisher.handovers.size
    handovers := publisher.handovers.push { notice, startedAt := now, delivery } }

/-- When a handover ends by itself, if it does. -/
def dueAt? (handover : Handover α) : Option Nat :=
  handover.delivery.delay.map (handover.startedAt + ·)

/-- How a handover ends now, if it ends: by itself, or because it takes too long. -/
def endOf? (timeout now : Nat) (handover : Handover α) : Option WorkOutcome :=
  if (dueAt? handover).any (· ≤ now) then some handover.delivery.ending.outcome
  else if handover.startedAt + timeout ≤ now then some .abandoned
  else none

/-- Notes the end of a handover. -/
def finish (publisher : Publisher α) (now : Nat) (number : Nat) (outcome : WorkOutcome) :
    Publisher α :=
  let publisher := { publisher with
    handovers := publisher.handovers.modify number fun handover =>
      { handover with endedAt := some now, outcome := some outcome } }
  match outcome with
  | .ok =>
    { publisher with worker := .idle }.count fun stats =>
      { stats with published := stats.published + 1 }
  | .panic => { publisher with worker := .dead, queue := [] }
  | _ =>
    { publisher with worker := .idle }.count fun stats => { stats with failed := stats.failed + 1 }

/-- The worker's next turn, if it can make one. -/
def turn? (publisher : Publisher α) (now : Nat) : Option (Publisher α) :=
  match publisher.worker with
  | .idle =>
    match publisher.queue with
    | notice :: rest => some (publisher.take now notice rest)
    | [] => none
  | .delivering number =>
    match publisher.handovers[number]? with
    | some handover =>
      (endOf? publisher.timeout now handover).map (publisher.finish now number)
    | none => none
  | .dead => none

/-- When the worker's next turn may become possible. -/
def timers (publisher : Publisher α) : List Nat :=
  match publisher.worker with
  | .delivering number =>
    match publisher.handovers[number]? with
    | some handover =>
      (handover.startedAt + publisher.timeout) :: (dueAt? handover).toList
    | none => []
  | _ => []

/-- Whether everything that was accepted has been handed over and has ended, or was lost. -/
def isDrained (publisher : Publisher α) : Bool :=
  match publisher.worker with
  | .idle => publisher.queue.isEmpty
  | .delivering _ => false
  | .dead => true

end Publisher

end HedgedForecast
