/-! # Running timed systems

A timed system makes turns at the present instant until nothing can happen; then time moves on to
the next timer. A system is run until something holds or until an instant is reached, and is
settled, that is without turns left, whenever time moves.
-/

namespace HedgedForecast

/-- A system in time. -/
structure Simulation (σ : Type) where
  now : σ → Nat
  /-- One turn at the present instant, if one can be made. -/
  turn : σ → Option σ
  /-- The next instant after the present one at which a turn may become possible. -/
  nextTimer : σ → Option Nat
  /-- The system at a later instant. -/
  moveTo : Nat → σ → σ

namespace Simulation

variable {σ : Type} (simulation : Simulation σ)

/-- Whether no turn can be made. -/
def isSettled (state : σ) : Bool :=
  (simulation.turn state).isNone

/-- Makes turns until none can be made or the fuel is used up. -/
def settle : Nat → σ → σ
  | 0, state => state
  | fuel + 1, state =>
    match simulation.turn state with
    | some next => settle fuel next
    | none => state

/-- Moves time until something no longer holds, settling at each timer on the way. -/
def runWhile (turns : Nat) (waiting : σ → Bool) : Nat → σ → σ
  | 0, state => state
  | fuel + 1, state =>
    let state := simulation.settle turns state
    if waiting state then
      match simulation.nextTimer state with
      | some instant => runWhile turns waiting fuel (simulation.moveTo instant state)
      | none => state
    else state

/-- Moves time to an instant, settling at each timer on the way and at the end. -/
def runUntil (turns : Nat) (instant : Nat) : Nat → σ → σ
  | 0, state => state
  | fuel + 1, state =>
    let state := simulation.settle turns state
    match simulation.nextTimer state with
    | some timer =>
      if timer ≤ instant then runUntil turns instant fuel (simulation.moveTo timer state)
      else simulation.settle turns (simulation.moveTo instant state)
    | none => simulation.settle turns (simulation.moveTo instant state)

end Simulation

/-- The earliest of some instants that lies after the present one. -/
def earliestAfter (now : Nat) (instants : List Nat) : Option Nat :=
  (instants.filter (now < ·)).min?

end HedgedForecast
