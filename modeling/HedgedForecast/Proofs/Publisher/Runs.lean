import HedgedForecast.Scenario.Publishing
import HedgedForecast.Proofs.Arrays
import HedgedForecast.Proofs.Simulation

/-! # Runs of a side channel

Notices are given, the worker makes its turns and time passes, in any order. What a turn of the worker is, is said
once (`Turned`); and whatever has happened, the worker comes to an end with what it has when no more notices are
given.
-/

namespace HedgedForecast

variable {α : Type}

namespace Publisher

/-- What the worker may do in a turn. -/
inductive Turned (publisher : Publisher α) (now : Nat) : Publisher α → Prop
  | took {notice : α} {rest : List α} (worker : publisher.worker = .idle) (queue : publisher.queue = notice :: rest) :
      Turned publisher now (publisher.take now notice rest)
  | ended {number : Nat} {handover : Handover α} {outcome : WorkOutcome} (worker : publisher.worker = .delivering number)
      (present : publisher.handovers[number]? = some handover)
      (ends : endOf? publisher.timeout now handover = some outcome) :
      Turned publisher now (publisher.finish now number outcome)

theorem turn?_turned {publisher next : Publisher α} {now : Nat} (turn : publisher.turn? now = some next) :
    Turned publisher now next := by
  unfold turn? at turn
  split at turn
  · next idle =>
    split at turn
    · next notice rest queue =>
      cases turn
      exact .took idle queue
    · cases turn
  · next number worker =>
    split at turn
    · next handover present =>
      obtain ⟨outcome, ends, rfl⟩ := Option.map_eq_some_iff.mp turn
      exact .ended worker present ends
    · cases turn
  · cases turn

/-- What is noted of a handover that ends. -/
def Handover.ended (handover : Handover α) (now : Nat) (outcome : WorkOutcome) : Handover α :=
  { handover with endedAt := some now, outcome := some outcome }

theorem finish_handovers (publisher : Publisher α) (now number : Nat) (outcome : WorkOutcome) :
    (publisher.finish now number outcome).handovers =
      publisher.handovers.modify number (Handover.ended · now outcome) := by
  cases outcome <;> rfl

theorem finish_of_ne_panic (publisher : Publisher α) (now number : Nat) {outcome : WorkOutcome}
    (calm : outcome ≠ .panic) :
    (publisher.finish now number outcome).worker = .idle ∧
      (publisher.finish now number outcome).queue = publisher.queue := by
  cases outcome <;> first | exact ⟨rfl, rfl⟩ | exact absurd rfl calm

/-- Some delivery has panicked. -/
def Panicked (publisher : Publisher α) : Prop :=
  ∃ handover ∈ publisher.handovers, handover.outcome = some .panic

/-- A worker waits only for what it has handed over, and it dies of a panic, with nothing left in the queue. -/
structure Sound (publisher : Publisher α) : Prop where
  handed : ∀ number, publisher.worker = .delivering number →
    ∃ handover, publisher.handovers[number]? = some handover ∧ handover.outcome = none
  emptied : publisher.worker = .dead → publisher.queue = []
  dead_iff : publisher.worker = .dead ↔ publisher.Panicked

namespace Sound

variable {publisher next : Publisher α} {now : Nat}

theorem make (capacity timeout : Nat) (sink : List (α → Delivery)) : Sound (Publisher.make capacity timeout sink) := by
  refine ⟨fun _ => nofun, nofun, nofun, ?_⟩
  rintro ⟨handover, member, _⟩
  exact absurd member (Array.not_mem_empty handover)

theorem notify (sound : Sound publisher) (notice : α) : Sound (publisher.notify notice) := by
  unfold Publisher.notify
  split
  · exact ⟨sound.handed, sound.emptied, sound.dead_iff⟩
  · next accepted =>
    refine ⟨sound.handed, fun dead => ?_, sound.dead_iff⟩
    have worker : publisher.worker = .dead := dead
    simp [worker] at accepted

theorem take (sound : Sound publisher) {notice : α} {rest : List α} (worker : publisher.worker = .idle) :
    Sound (publisher.take now notice rest) := by
  refine ⟨?_, nofun, nofun, ?_⟩
  · rintro number ⟨⟩
    exact ⟨_, Array.getElem?_push_size, rfl⟩
  · rintro ⟨handover, member, panic⟩
    rcases Array.mem_push.mp member with there | rfl
    · have dead := sound.dead_iff.mpr ⟨handover, there, panic⟩
      rw [worker] at dead
      contradiction
    · contradiction

theorem finish (sound : Sound publisher) {number : Nat} {handover : Handover α} (outcome : WorkOutcome)
    (worker : publisher.worker = .delivering number) (present : publisher.handovers[number]? = some handover) :
    Sound (publisher.finish now number outcome) := by
  have handovers := finish_handovers publisher now number outcome
  have there : (publisher.finish now number outcome).handovers[number]? = some (Handover.ended handover now outcome) := by
    rw [handovers]
    exact getElem?_modify_self _ present
  by_cases panics : outcome = .panic
  · subst panics
    have dead : (publisher.finish now number .panic).worker = .dead := rfl
    have panicked : (publisher.finish now number .panic).Panicked := ⟨_, Array.mem_of_getElem? there, rfl⟩
    exact ⟨fun _ => nofun, fun _ => rfl, fun _ => panicked, fun _ => dead⟩
  · obtain ⟨idle, _⟩ := finish_of_ne_panic publisher now number panics
    refine ⟨fun _ waits => ?_, fun dead => ?_, fun dead => ?_, ?_⟩
    · rw [idle] at waits
      contradiction
    · rw [idle] at dead
      contradiction
    · rw [idle] at dead
      contradiction
    · rintro ⟨other, member, panic⟩
      rw [handovers] at member
      obtain ⟨earlier, before, rfl | ⟨_, rfl⟩⟩ := mem_modify member
      · have dead := sound.dead_iff.mpr ⟨other, before, panic⟩
        rw [worker] at dead
        contradiction
      · exact absurd (Option.some.inj panic) panics

theorem turn (sound : Sound publisher) (turn : publisher.turn? now = some next) : Sound next := by
  cases turn?_turned turn with
  | took worker => exact sound.take worker
  | ended worker present => exact sound.finish _ worker present

end Sound

/-- How many deliveries are in progress. -/
def inProgress (publisher : Publisher α) : Nat :=
  match publisher.worker with
  | .delivering _ => 1
  | _ => 0

/-- How many turns the worker still makes when no more notices are given. -/
def turnsLeft (publisher : Publisher α) : Nat :=
  2 * publisher.queue.length + publisher.inProgress

theorem turnsLeft_turn {publisher next : Publisher α} {now : Nat} (turn : publisher.turn? now = some next) :
    next.turnsLeft < publisher.turnsLeft := by
  cases turn?_turned turn with
  | took worker queue =>
    simp only [turnsLeft, inProgress, take, worker, queue, List.length_cons]
    omega
  | @ended number handover outcome worker =>
    by_cases panics : outcome = .panic
    · subst panics
      simp only [turnsLeft, inProgress, finish, worker, List.length_nil]
      omega
    · obtain ⟨idle, same⟩ := finish_of_ne_panic publisher now number panics
      simp only [turnsLeft, inProgress, idle, same, worker]
      omega

/-- A worker that cannot make a turn is done, or it waits for a handover that ends when its next timer is due. -/
theorem Sound.drained_or_due {publisher : Publisher α} {now : Nat} (sound : Sound publisher)
    (still : publisher.turn? now = none) :
    publisher.isDrained = true ∧ publisher.timers = [] ∨
      ∃ instant, earliestAfter now publisher.timers = some instant ∧ publisher.turn? instant ≠ none := by
  cases worker : publisher.worker with
  | idle =>
    cases queue : publisher.queue with
    | nil => exact .inl (by simp [isDrained, Publisher.timers, worker, queue])
    | cons notice rest => simp [turn?, worker, queue] at still
  | dead => exact .inl (by simp [isDrained, Publisher.timers, worker])
  | delivering number =>
    obtain ⟨handover, present, _⟩ := sound.handed number worker
    have turn (instant : Nat) : publisher.turn? instant =
        (endOf? publisher.timeout instant handover).map (publisher.finish instant number) := by
      simp only [turn?, worker, present]
    have timers : publisher.timers = (handover.startedAt + publisher.timeout) :: (dueAt? handover).toList := by
      simp only [Publisher.timers, worker, present]
    have open_ : now < handover.startedAt + publisher.timeout := by
      rw [turn, Option.map_eq_none_iff, endOf?] at still
      split at still
      · contradiction
      · split at still
        · contradiction
        · omega
    obtain ⟨instant, first, _⟩ := earliestAfter_of_mem (timers ▸ List.mem_cons_self ..) open_
    refine .inr ⟨instant, first, ?_⟩
    rw [turn, Ne, Option.map_eq_none_iff, endOf?]
    have due := (earliestAfter_eq_some_iff.mp first).1.1
    rw [timers, List.mem_cons, Option.mem_toList] at due
    split
    · exact nofun
    · next early =>
      rcases due with rfl | due
      · simp
      · simp [due] at early

end Publisher

namespace Publishing

/-- What may happen to a side channel. -/
inductive Move (α : Type) where
  | notify (notice : α)
  /-- The worker makes a turn. -/
  | turn
  /-- Time moves on. -/
  | pass (instant : Nat)

/-- Whether the move gives a notice. -/
def Move.isNotice : Move α → Bool
  | notify _ => true
  | _ => false

/-- How many notices are given. -/
def notices (moves : List (Move α)) : Nat :=
  moves.countP Move.isNotice

@[simp] theorem notices_append (moves moves' : List (Move α)) : notices (moves ++ moves') = notices moves + notices moves' :=
  List.countP_append

@[simp] theorem notices_singleton (move : Move α) : notices [move] = if move.isNotice then 1 else 0 := by
  cases move <;> rfl

/-- The side channel after a move; a turn that cannot be made is no move. -/
def step? (state : State α) : Move α → Option (State α)
  | .notify notice => some { state with publisher := state.publisher.notify notice }
  | .turn => (simulation α).turn state
  | .pass instant => some ((simulation α).moveTo instant state)

/-- Moves lead from one state to another. -/
inductive Run (source : State α) : List (Move α) → State α → Prop
  | nil : Run source [] source
  | snoc {middle target : State α} {moves : List (Move α)} {move : Move α} (run : Run source moves middle)
      (step : step? middle move = some target) : Run source (moves ++ [move]) target

/-- A new side channel. -/
def opening (capacity timeout : Nat) (sink : List (α → Delivery)) : State α :=
  { publisher := Publisher.make capacity timeout sink }

variable {source middle state next : State α} {moves moves' : List (Move α)} {move : Move α}

theorem Run.single (step : step? source move = some state) : Run source [move] state :=
  .snoc .nil step

theorem Run.append (left : Run source moves middle) (right : Run middle moves' state) :
    Run source (moves ++ moves') state := by
  induction right with
  | nil =>
    rw [List.append_nil]
    exact left
  | snoc _ step ih =>
    rw [← List.append_assoc]
    exact .snoc ih step

theorem Run.of_moves (steps : moves.foldlM step? source = some state) : Run source moves state := by
  induction moves generalizing source with
  | nil =>
    cases steps
    exact .nil
  | cons move moves ih =>
    obtain ⟨middle, step, rest⟩ := Option.bind_eq_some_iff.mp steps
    exact (Run.single step).append (ih rest)

theorem turn_publisher (step : step? state .turn = some next) :
    next.now = state.now ∧ state.publisher.turn? state.now = some next.publisher := by
  obtain ⟨publisher, turn, rfl⟩ := Option.map_eq_some_iff.mp step
  exact ⟨rfl, turn⟩

theorem sound_step (sound : state.publisher.Sound) (step : step? state move = some next) : next.publisher.Sound := by
  cases move with
  | notify notice =>
    cases step
    exact sound.notify notice
  | turn => exact sound.turn (turn_publisher step).2
  | pass instant =>
    cases step
    exact sound

theorem Run.sound (run : Run source moves state) (sound : source.publisher.Sound) : state.publisher.Sound := by
  induction run with
  | nil => exact sound
  | snoc _ step ih => exact sound_step ih step

/-- Moves without a notice lead from one state to the other. -/
def Quiet (source state : State α) : Prop :=
  ∃ moves, Run source moves state ∧ notices moves = 0

theorem Quiet.refl (state : State α) : Quiet state state :=
  ⟨[], .nil, rfl⟩

theorem Quiet.turn (quiet : Quiet source state) (turn : (simulation α).turn state = some next) : Quiet source next := by
  obtain ⟨moves, run, none⟩ := quiet
  have step : step? state .turn = some next := turn
  exact ⟨moves ++ [.turn], .snoc run step, by simp [none, Move.isNotice]⟩

theorem Quiet.pass (quiet : Quiet source state) (instant : Nat) :
    Quiet source ((simulation α).moveTo instant state) := by
  obtain ⟨moves, run, none⟩ := quiet
  have step : step? state (.pass instant) = some ((simulation α).moveTo instant state) := rfl
  exact ⟨moves ++ [.pass instant], .snoc run step, by simp [none, Move.isNotice]⟩

theorem notifyMany_run (state : State α) (notice : α) (burst : Nat) :
    ∃ moves, Run state moves { state with publisher := notifyMany state.publisher notice burst } ∧
      notices moves = burst := by
  induction burst generalizing state with
  | zero => exact ⟨[], .nil, rfl⟩
  | succ burst ih =>
    obtain ⟨moves, run, count⟩ := ih { state with publisher := state.publisher.notify notice }
    have first : step? state (.notify notice) = some { state with publisher := state.publisher.notify notice } := rfl
    refine ⟨[.notify notice] ++ moves, (Run.single first).append run, ?_⟩
    rw [notices_append, count, Nat.add_comm]
    rfl

/-- How many notices a step gives. -/
def Step.given : Step α → Nat
  | .notify _ burst => burst
  | _ => 0

/-- What a step of a scenario does is a run. -/
theorem act_run (state : State α) (step : Step α) :
    ∃ moves, Run state moves (act state step) ∧ notices moves = step.given := by
  have turned (middle next : State α) : Quiet state middle → (simulation α).turn middle = some next → Quiet state next :=
    Quiet.turn
  have moved (middle : State α) (instant : Nat) :
      Quiet state middle → Quiet state ((simulation α).moveTo instant middle) := (·.pass instant)
  cases step with
  | notify notice burst =>
    obtain ⟨moves, run, count⟩ := notifyMany_run state notice burst
    obtain ⟨rest, settled, none⟩ := Simulation.settle_invariant (fun _ _ => Quiet.turn) _ (Quiet.refl _)
    refine ⟨moves ++ rest, run.append settled, ?_⟩
    rw [notices_append, count, none]
    rfl
  | sleep time => exact Simulation.runUntil_invariant turned moved _ _ _ (Quiet.refl state)
  | shutdown => exact Simulation.runWhile_invariant turned moved _ _ _ (Quiet.refl state)

/-- How many notices a scenario gives before the shutdown. -/
def given : List (Step α) → Nat
  | [] => 0
  | .shutdown :: _ => 0
  | first :: rest => first.given + given rest

theorem steps_run (state : State α) (script : List (Step α)) :
    ∃ moves, Run state moves (steps state script).1 ∧ notices moves = given script := by
  induction script generalizing state with
  | nil => exact ⟨[], .nil, rfl⟩
  | cons first script ih =>
    obtain ⟨moves, run, count⟩ := act_run state first
    obtain ⟨rest, later, more⟩ := ih (act state first)
    cases first with
    | shutdown => exact ⟨moves, run, count⟩
    | notify notice burst =>
      refine ⟨moves ++ rest, run.append later, ?_⟩
      rw [notices_append, count, more]
      rfl
    | sleep time =>
      refine ⟨moves ++ rest, run.append later, ?_⟩
      rw [notices_append, count, more]
      rfl

theorem simulation_ranked :
    (simulation α).Ranked (fun state => state.publisher.Sound) fun state => state.publisher.turnsLeft where
  turned state next sound turn := by
    obtain ⟨_, turn⟩ := turn_publisher turn
    exact ⟨sound.turn turn, Publisher.turnsLeft_turn turn⟩
  moved _ _ sound := ⟨sound, rfl⟩

theorem turnsLeft_lt_enough (state : State α) : state.publisher.turnsLeft < enough state := by
  unfold Publisher.turnsLeft Publisher.inProgress enough
  split <;> omega

/-- A worker that is not done goes on when its next timer is due. -/
theorem simulation_goes :
    Simulation.Goes (simulation α) (fun state => state.publisher.Sound) fun state => !state.publisher.isDrained := by
  intro state sound settled waits
  have still : state.publisher.turn? state.now = none := by
    simpa [Simulation.isSettled, simulation] using settled
  rcases sound.drained_or_due still with ⟨drained, _⟩ | ⟨instant, timer, busy⟩
  · simp [drained] at waits
  · refine ⟨instant, timer, ?_⟩
    have now : max state.now instant = instant := Nat.max_eq_right (Nat.le_of_lt (earliestAfter_eq_some_iff.mp timer).1.2)
    cases turn : state.publisher.turn? instant with
    | none => contradiction
    | some next => simp [Simulation.isSettled, simulation, now, turn]

/-- After the shutdown, nothing is left to be delivered. -/
theorem isDrained_shutdown (sound : state.publisher.Sound) :
    (act state .shutdown).publisher.isDrained = true := by
  have plenty := turnsLeft_lt_enough state
  have ends := simulation_ranked.runWhile_ends simulation_goes sound plenty (.inl plenty)
  simpa [act] using ends

end Publishing

end HedgedForecast
