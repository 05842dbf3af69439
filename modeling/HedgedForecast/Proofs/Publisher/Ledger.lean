import HedgedForecast.Proofs.Publisher.Runs

/-! # The ledger of a side channel

Every notice that was ever given is counted as published, failed or dropped, or it is in the queue or being
delivered, or it was lost. Notices are lost in one way only: a delivery panics, and with its notice all those are lost
that are queued at that moment. From then on the worker does nothing, and all notices are dropped.
-/

namespace HedgedForecast

variable {α : Type}

namespace Publisher

/-- How many notices are counted. -/
def counted (publisher : Publisher α) : Nat :=
  publisher.stats.published + publisher.stats.failed + publisher.stats.dropped

/-- How many notices are counted, queued or being delivered. -/
def known (publisher : Publisher α) : Nat :=
  publisher.counted + publisher.queue.length + publisher.inProgress

/-- The publisher with some more notices dropped. -/
def dropping (publisher : Publisher α) (count : Nat) : Publisher α :=
  publisher.count fun stats => { stats with dropped := stats.dropped + count }

theorem known_notify (publisher : Publisher α) (notice : α) : (publisher.notify notice).known = publisher.known + 1 := by
  unfold notify
  split
  · simp only [known, counted, count, inProgress]
    omega
  · simp only [known, counted, inProgress, List.length_append, List.length_singleton]
    omega

theorem notify_worker (publisher : Publisher α) (notice : α) : (publisher.notify notice).worker = publisher.worker := by
  unfold notify
  split <;> rfl

theorem known_dropping (publisher : Publisher α) (count : Nat) :
    (publisher.dropping count).known = publisher.known + count := by
  simp only [known, counted, dropping, Publisher.count, inProgress]
  omega

theorem dropping_dropping (publisher : Publisher α) (first second : Nat) :
    (publisher.dropping first).dropping second = publisher.dropping (first + second) := by
  simp only [dropping, count, Nat.add_assoc]

theorem known_take {publisher : Publisher α} (now : Nat) {notice : α} {rest : List α} (worker : publisher.worker = .idle)
    (queue : publisher.queue = notice :: rest) : (publisher.take now notice rest).known = publisher.known := by
  simp only [known, counted, inProgress, take, worker, queue, List.length_cons]
  omega

theorem known_finish {publisher : Publisher α} (now : Nat) {number : Nat} {outcome : WorkOutcome}
    (calm : outcome ≠ .panic) (worker : publisher.worker = .delivering number) :
    (publisher.finish now number outcome).known = publisher.known := by
  cases outcome <;> first | exact absurd rfl calm | simp only [known, counted, inProgress, finish, count, worker]; omega

/-- A panic loses the notice that is being delivered and all that are queued. -/
theorem known_panic {publisher : Publisher α} (now : Nat) {number : Nat} (worker : publisher.worker = .delivering number) :
    (publisher.finish now number .panic).known + (1 + publisher.queue.length) = publisher.known := by
  simp only [known, counted, inProgress, finish, worker, List.length_nil]
  omega

theorem notify_of_dead {publisher : Publisher α} (dead : publisher.worker = .dead) (notice : α) :
    publisher.notify notice = publisher.dropping 1 := by
  unfold notify
  rw [dead]
  rfl

theorem turn?_of_dead {publisher : Publisher α} (dead : publisher.worker = .dead) (now : Nat) :
    publisher.turn? now = none := by
  simp only [turn?, dead]

end Publisher

namespace Publishing

open Publisher

/-- How many notices were lost: none as long as no delivery has panicked; otherwise the one whose delivery panicked,
and what was queued at that moment. From then on the publisher only drops what it is given. -/
inductive Lost (start : State α) (moves : List (Move α)) (state : State α) : Nat → Prop
  | nothing (alive : state.publisher.worker ≠ .dead) (calm : ¬ state.publisher.Panicked) : Lost start moves state 0
  | everything {before after : List (Move α)} {brink broken : State α} {number : Nat} {handover : Handover α}
      (order : moves = before ++ .turn :: after) (run : Run start before brink)
      (worker : brink.publisher.worker = .delivering number)
      (present : brink.publisher.handovers[number]? = some handover)
      (panics : endOf? brink.publisher.timeout brink.now handover = some .panic)
      (turn : step? brink .turn = some broken) (rest : Run broken after state)
      (dead : broken.publisher.worker = .dead) (emptied : broken.publisher.queue = [])
      (stopped : state.publisher = broken.publisher.dropping (notices after)) :
      Lost start moves state (1 + brink.publisher.queue.length)

/-- Every notice is accounted for, now and after the shutdown. -/
structure Accounted (start : State α) (moves : List (Move α)) (state : State α) : Prop where
  balance : ∃ lost, Lost start moves state lost ∧
    notices moves = state.publisher.stats.published + state.publisher.stats.failed + state.publisher.stats.dropped +
      state.publisher.queue.length + state.publisher.inProgress + lost
  shutdown : ∃ rest, Run state rest (act state .shutdown) ∧ notices rest = 0 ∧
    (act state .shutdown).publisher.queue = [] ∧ (act state .shutdown).publisher.inProgress = 0 ∧
    (¬ (act state .shutdown).publisher.Panicked →
      notices moves = (act state .shutdown).publisher.stats.published +
        (act state .shutdown).publisher.stats.failed + (act state .shutdown).publisher.stats.dropped)

section

variable {start state next : State α} {moves : List (Move α)} {move : Move α} {lost : Nat}

/-- What has not panicked goes on, or it breaks now. -/
theorem alive_or_broken (alive : state.publisher.worker ≠ .dead) (step : step? state move = some next) :
    next.publisher.worker ≠ .dead ∧ next.publisher.known = state.publisher.known + notices [move] ∨
      ∃ number handover, move = .turn ∧ state.publisher.worker = .delivering number ∧
        state.publisher.handovers[number]? = some handover ∧
        endOf? state.publisher.timeout state.now handover = some .panic ∧
        next.publisher = state.publisher.finish state.now number .panic := by
  cases move with
  | notify notice =>
    cases step
    rw [← notify_worker state.publisher notice] at alive
    exact .inl ⟨alive, known_notify ..⟩
  | pass instant =>
    cases step
    exact .inl ⟨alive, rfl⟩
  | turn =>
    obtain ⟨_, turn⟩ := turn_publisher step
    generalize next.publisher = publisher at turn ⊢
    cases turn?_turned turn with
    | took worker queue => exact .inl ⟨nofun, known_take state.now worker queue⟩
    | @ended number handover outcome worker present ends =>
      by_cases panics : outcome = .panic
      · subst panics
        exact .inr ⟨number, handover, rfl, worker, present, ends, rfl⟩
      · obtain ⟨idle, _⟩ := finish_of_ne_panic state.publisher state.now number panics
        exact .inl ⟨by simp [idle], known_finish state.now panics worker⟩

/-- A dead worker only sees notices dropped. -/
theorem dropping_of_dead (dead : state.publisher.worker = .dead) (step : step? state move = some next) :
    next.publisher = state.publisher.dropping (notices [move]) := by
  cases move with
  | notify notice =>
    cases step
    exact notify_of_dead dead notice
  | turn =>
    obtain ⟨_, turn⟩ := turn_publisher step
    rw [turn?_of_dead dead] at turn
    contradiction
  | pass instant =>
    cases step
    rfl

/-- What one move does to the books. -/
theorem Lost.step (losses : Lost start moves state lost) (run : Run start moves state) (sound : state.publisher.Sound)
    (balanced : notices moves = state.publisher.known + lost) (step : step? state move = some next) :
    ∃ lost', Lost start (moves ++ [move]) next lost' ∧ notices (moves ++ [move]) = next.publisher.known + lost' := by
  have after := sound_step sound step
  cases losses with
  | nothing alive =>
    rcases alive_or_broken alive step with ⟨alive', known⟩ | ⟨number, handover, rfl, worker, present, panics, broken⟩
    · refine ⟨0, .nothing alive' fun panicked => alive' (after.dead_iff.mpr panicked), ?_⟩
      rw [notices_append, known, balanced, Nat.add_zero, Nat.add_zero]
    · have dead : next.publisher.worker = .dead := by rw [broken]; rfl
      have emptied : next.publisher.queue = [] := by rw [broken]; rfl
      refine ⟨_, .everything rfl run worker present panics step .nil dead emptied rfl, ?_⟩
      rw [notices_append, balanced, broken, known_panic state.now worker]
      rfl
  | @everything before later brink broken number handover order first worker present panics turn rest dead emptied stopped =>
    have dead' : state.publisher.worker = .dead := by rw [stopped]; exact dead
    have dropped := dropping_of_dead dead' step
    have same : next.publisher = broken.publisher.dropping (notices (later ++ [move])) := by
      rw [dropped, stopped, dropping_dropping, notices_append]
    have order' : moves ++ [move] = before ++ .turn :: (later ++ [move]) := by
      rw [order, List.append_assoc, List.cons_append]
    refine ⟨_, .everything order' first worker present panics turn (.snoc rest step) dead emptied same, ?_⟩
    · rw [notices_append, balanced, dropped, known_dropping]
      omega

theorem Run.accounts (run : Run start moves state) (sound : start.publisher.Sound) (new : start.publisher.known = 0)
    (alive : start.publisher.worker ≠ .dead) :
    ∃ lost, Lost start moves state lost ∧ notices moves = state.publisher.known + lost := by
  induction run with
  | nil => exact ⟨0, .nothing alive fun panicked => alive (sound.dead_iff.mpr panicked), new.symm⟩
  | snoc run step ih =>
    obtain ⟨lost, losses, balanced⟩ := ih
    exact losses.step run (run.sound sound) balanced step

/-- After the shutdown, the queue is empty and nothing is being delivered. -/
theorem empty_of_isDrained (sound : state.publisher.Sound) (drained : state.publisher.isDrained = true) :
    state.publisher.queue = [] ∧ state.publisher.inProgress = 0 := by
  unfold isDrained at drained
  split at drained
  · next idle => exact ⟨List.isEmpty_iff.mp drained, by simp only [inProgress, idle]⟩
  · contradiction
  · next dead => exact ⟨sound.emptied dead, by simp only [inProgress, dead]⟩

theorem isDrained_steps {script : List (Step α)} (sound : state.publisher.Sound) (last : .shutdown ∈ script) :
    (steps state script).1.publisher.isDrained = true := by
  induction script generalizing state with
  | nil => contradiction
  | cons first script ih =>
    obtain ⟨moves, run, _⟩ := act_run state first
    cases first with
    | shutdown => exact isDrained_shutdown sound
    | notify notice burst => exact ih (run.sound sound) (by simpa using last)
    | sleep time => exact ih (run.sound sound) (by simpa using last)

/-- What comes to rest without a panic has counted every notice. -/
theorem Run.counted_of_isDrained (run : Run start moves state) (sound : start.publisher.Sound)
    (new : start.publisher.known = 0) (alive : start.publisher.worker ≠ .dead)
    (drained : state.publisher.isDrained = true) (calm : ¬ state.publisher.Panicked) :
    state.publisher.counted = notices moves := by
  obtain ⟨emptied, still⟩ := empty_of_isDrained (run.sound sound) drained
  obtain ⟨lost, losses, balanced⟩ := run.accounts sound new alive
  cases losses with
  | nothing => simpa [known, emptied, still] using balanced.symm
  | everything _ _ _ _ _ _ _ dead _ stopped =>
    have dead' : state.publisher.worker = .dead := by rw [stopped]; exact dead
    exact absurd ((run.sound sound).dead_iff.mp dead') calm

end

theorem sound_opening (capacity timeout : Nat) (sink : List (α → Delivery)) :
    (opening capacity timeout sink).publisher.Sound :=
  .make capacity timeout sink

/-- A scenario with a shutdown counts every notice that comes before it, unless a delivery panics. -/
theorem counted_of_steps {capacity timeout : Nat} {sink : List (α → Delivery)} {script : List (Step α)}
    (last : .shutdown ∈ script) (calm : ¬ (steps (opening capacity timeout sink) script).1.publisher.Panicked) :
    (steps (opening capacity timeout sink) script).1.publisher.counted = given script := by
  have sound := sound_opening capacity timeout sink
  obtain ⟨moves, run, count⟩ := steps_run (opening capacity timeout sink) script
  rw [← count]
  exact run.counted_of_isDrained sound rfl nofun (isDrained_steps sound last) calm

theorem accounted_of_run {capacity timeout : Nat} {sink : List (α → Delivery)} {moves : List (Move α)} {state : State α}
    (run : Run (opening capacity timeout sink) moves state) : Accounted (opening capacity timeout sink) moves state := by
  have sound := sound_opening capacity timeout sink
  constructor
  · obtain ⟨lost, losses, balanced⟩ := run.accounts sound rfl nofun
    exact ⟨lost, losses, balanced⟩
  · obtain ⟨rest, last, none⟩ := act_run state .shutdown
    have whole := run.append last
    have drained := isDrained_shutdown (run.sound sound)
    obtain ⟨emptied, still⟩ := empty_of_isDrained (whole.sound sound) drained
    refine ⟨rest, last, none, emptied, still, fun calm => ?_⟩
    have counted := whole.counted_of_isDrained sound rfl nofun drained calm
    rw [notices_append, show notices rest = 0 from none] at counted
    exact counted.symm

/-- The only delivery panics while a second notice is queued, the queue is full for a third one, and a fourth one comes
when the worker is dead. -/
def spilt : List (Move Nat) :=
  [.notify 1, .turn, .notify 2, .notify 3, .pass 5, .turn, .notify 4]

theorem accounted_spilt :
    ∃ state, Run (opening 1 1000 [fun _ => { delay := some 5, ending := .panic }]) spilt state ∧
      state.publisher.stats = { dropped := 2 } ∧ notices spilt = 4 ∧
      Accounted (opening 1 1000 [fun _ => { delay := some 5, ending := .panic }]) spilt state := by
  have steps : spilt.foldlM step? (opening 1 1000 [fun _ => { delay := some 5, ending := .panic }]) = some _ := rfl
  have run := Run.of_moves steps
  exact ⟨_, run, rfl, rfl, accounted_of_run run⟩

end Publishing

end HedgedForecast
