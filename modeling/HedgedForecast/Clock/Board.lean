import HedgedForecast.Clock.Guard
import HedgedForecast.Clock.Simulation

/-! # Deadlines by name

A board holds deadlines under names, derives new ones from old ones, and runs guarded work. It also
holds cancellations that are due later, which take effect as time passes.
-/

namespace HedgedForecast

/-- Named deadlines in time. -/
structure Board where
  clock : Clock := {}
  deadlines : List (String × Deadline) := []
  /-- Scopes that will be cancelled, each with its instant. -/
  dueCancellations : List (Nat × Token) := []
  deriving Repr

namespace Board

/-- The deadline with a name. -/
def find? (board : Board) (name : String) : Option Deadline :=
  board.deadlines.lookup name

/-- Puts a deadline under a name, in the place of any other. -/
def put (board : Board) (name : String) (deadline : Deadline) (clock : Clock) : Board :=
  { board with
    clock
    deadlines := board.deadlines.filter (·.1 != name) ++ [(name, deadline)] }

/-- What may be done with a board. -/
inductive Action where
  | after (name : String) (timeout : Nat)
  | detached (name : String) (limit : Option Nat)
  | child (name source : String)
  | tighten (name source : String) (limit : Nat)
  | withToken (name source scope : String)
  | cancel (name : String)
  deriving Repr

/-- Carries out an action; one on an unknown name does nothing. -/
def apply (board : Board) : Action → Board
  | .after name timeout =>
    let (deadline, clock) := Deadline.after board.clock timeout
    board.put name deadline clock
  | .detached name limit =>
    let (deadline, clock) := Deadline.detached board.clock limit
    board.put name deadline clock
  | .child name source =>
    match board.find? source with
    | some source =>
      let (deadline, clock) := source.child board.clock
      board.put name deadline clock
    | none => board
  | .tighten name source limit =>
    match board.find? source with
    | some source =>
      let (deadline, clock) := source.tighten board.clock limit
      board.put name deadline clock
    | none => board
  | .withToken name source scope =>
    match board.find? source, board.find? scope with
    | some source, some scope => board.put name (source.withToken scope.token) board.clock
    | _, _ => board
  | .cancel name =>
    match board.find? name with
    | some deadline => { board with clock := board.clock.cancel deadline.token }
    | none => board

/-- Has a scope cancelled after some time. -/
def cancelLater (board : Board) (delay : Nat) (token : Token) : Board :=
  { board with dueCancellations := board.dueCancellations ++ [(board.clock.now + delay, token)] }

/-- Takes the first cancellation that is due. -/
def takeDue? (now : Nat) : List (Nat × Token) → Option (Token × List (Nat × Token))
  | [] => none
  | (instant, token) :: rest =>
    if instant ≤ now then some (token, rest)
    else (takeDue? now rest).map fun (found, rest) => (found, (instant, token) :: rest)

/-- Carries out a cancellation that is due. -/
def turn (board : Board) : Option Board :=
  (takeDue? board.clock.now board.dueCancellations).map fun (token, rest) =>
    { board with clock := board.clock.cancel token, dueCancellations := rest }

/-- A board on its own, as a system in time. -/
def simulation : Simulation Board where
  now board := board.clock.now
  turn := turn
  nextTimer board := earliestAfter board.clock.now (board.dueCancellations.map (·.1))
  moveTo instant board := { board with clock := board.clock.moveTo instant }

/-- Lets time pass. -/
def sleep (board : Board) (time : Nat) : Board :=
  let fuel := board.dueCancellations.length + 1
  simulation.runUntil fuel (board.clock.now + time) fuel board

/-- Work that ends by itself at some instant, if ever. -/
structure TimedWork (α : Type) where
  due : Option Nat
  result : α
  /-- Whether it was ever asked for its result. -/
  asked : Bool := false
  deriving DecidableEq, Repr

/-- Asks work for its result. -/
def TimedWork.ask {α : Type} (now : Nat) (work : TimedWork α) : Option α × TimedWork α :=
  (if work.due.any (· ≤ now) then some work.result else none, { work with asked := true })

/-- Guarded work on a board. -/
structure Guarded (α : Type) where
  board : Board
  deadline : Deadline
  work : TimedWork α
  verdict : Option (GuardEnd α) := none

/-- Looks at guarded work. -/
def Guarded.look {α : Type} (guarded : Guarded α) : Guarded α :=
  let clock := guarded.board.clock
  let (verdict, work) := guarded.deadline.poll clock (TimedWork.ask clock.now) guarded.work
  { guarded with verdict, work }

/-- Guarded work as a system in time. After each change on the board the work is looked at. -/
def Guarded.simulation (α : Type) : Simulation (Guarded α) where
  now guarded := guarded.board.clock.now
  turn guarded :=
    if guarded.verdict.isSome then none
    else
      match guarded.board.turn with
      | some board => some { guarded with board }
      | none =>
        let looked := guarded.look
        if looked.verdict.isSome then some looked else none
  nextTimer guarded :=
    earliestAfter guarded.board.clock.now (guarded.deadline.instant :: guarded.work.due.toList ++
      guarded.board.dueCancellations.map (·.1))
  moveTo instant guarded :=
    { guarded with board := { guarded.board with clock := guarded.board.clock.moveTo instant } }

/-- Work that begins under a deadline: `delay` is how long it takes by itself, if it ends at all. -/
def guarding {α : Type} (board : Board) (deadline : Deadline) (delay : Option Nat) (result : α) :
    Guarded α :=
  { board, deadline, work := { due := delay.map (board.clock.now + ·), result } }

/-- Runs guarded work to its end. -/
def Guarded.run {α : Type} (guarded : Guarded α) : Guarded α :=
  let fuel := guarded.board.dueCancellations.length + 3
  (simulation α).runWhile fuel (·.verdict.isNone) fuel guarded.look

/-- Runs work under a deadline to its end. -/
def guard {α : Type} (board : Board) (deadline : Deadline) (delay : Option Nat) (result : α) :
    Board × Option (GuardEnd α) :=
  let ended := (board.guarding deadline delay result).run
  (ended.board, ended.verdict)

end Board

end HedgedForecast
