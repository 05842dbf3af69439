import HedgedForecast.Proofs.Publisher.Ledger

/-! # The order of a side channel

A notice is accepted if it is not counted as dropped, and it is dropped only if the worker is dead or the queue is
full. What is accepted is handed to the sink in the order in which it was given, each notice once at most, and only
when the delivery before has succeeded, was rejected or took too long. The rest waits in the queue, unless a panic has
lost it; without a panic, a shutdown hands over everything.
-/

namespace HedgedForecast

variable {α : Type}

namespace Publisher

/-- The notices that the sink was given, oldest first. -/
def handed (publisher : Publisher α) : List α :=
  publisher.handovers.toList.map Handover.notice

/-- A notice that is given now is counted as dropped. -/
def Drops (publisher : Publisher α) (notice : α) : Prop :=
  (publisher.notify notice).stats.dropped = publisher.stats.dropped + 1

instance (publisher : Publisher α) (notice : α) : Decidable (publisher.Drops notice) :=
  inferInstanceAs (Decidable (_ = _))

/-- A delivery has ended at the instant, and the worker goes on. -/
inductive Settled (timeout : Nat) (handover : Handover α) (ended : Nat) : Prop
  | succeeded {delay : Nat} (noted : handover.endedAt = some ended) (told : handover.outcome = some .ok)
      (accepts : handover.delivery.ending = .accepted) (takes : handover.delivery.delay = some delay)
      (due : handover.startedAt + delay ≤ ended)
  | rejected {delay : Nat} {failure : PublishFailure} (noted : handover.endedAt = some ended)
      (told : handover.outcome = some .err) (refuses : handover.delivery.ending = .refused failure)
      (takes : handover.delivery.delay = some delay) (due : handover.startedAt + delay ≤ ended)
  | timedOut (noted : handover.endedAt = some ended) (told : handover.outcome = some .abandoned)
      (late : handover.startedAt + timeout ≤ ended)

section

variable {publisher next : Publisher α} {now number : Nat} {handover : Handover α} {outcome : WorkOutcome}

/-- A notice is queued unless the worker is dead or the queue full. -/
theorem notify_cases (publisher : Publisher α) (notice : α) :
    (publisher.worker = .dead ∨ publisher.capacity ≤ publisher.queue.length) ∧ publisher.Drops notice ∧
        publisher.notify notice = publisher.dropping 1 ∨
      (publisher.worker ≠ .dead ∧ publisher.queue.length < publisher.capacity) ∧ ¬ publisher.Drops notice ∧
        publisher.notify notice = { publisher with queue := publisher.queue ++ [notice] } := by
  by_cases shut : publisher.worker = .dead ∨ publisher.capacity ≤ publisher.queue.length
  · have same : publisher.notify notice = publisher.dropping 1 := by
      rw [notify, if_pos (by simpa using shut)]
      rfl
    refine .inl ⟨shut, ?_, same⟩
    rw [Drops, same]
    rfl
  · have same : publisher.notify notice = { publisher with queue := publisher.queue ++ [notice] } := by
      rw [notify, if_neg (by simpa using shut)]
    rw [not_or, Nat.not_le] at shut
    refine .inr ⟨shut, ?_, same⟩
    rw [Drops, same]
    exact Nat.ne_of_lt (Nat.lt_succ_self _)

theorem drops_iff {notice : α} :
    publisher.Drops notice ↔ publisher.worker = .dead ∨ publisher.capacity ≤ publisher.queue.length := by
  rcases notify_cases publisher notice with ⟨shut, drops, _⟩ | ⟨⟨alive, room⟩, keeps, _⟩
  · exact iff_of_true drops shut
  · exact iff_of_false keeps (not_or.mpr ⟨alive, Nat.not_le.mpr room⟩)

theorem handed_take (publisher : Publisher α) (now : Nat) (notice : α) (rest : List α) :
    (publisher.take now notice rest).handed = publisher.handed ++ [notice] := by
  simp only [handed, take, Array.toList_push, List.map_append, List.map_singleton]

theorem handed_finish (publisher : Publisher α) (now number : Nat) (outcome : WorkOutcome) :
    (publisher.finish now number outcome).handed = publisher.handed := by
  rw [handed, handed, finish_handovers]
  apply List.ext_getElem?
  intro place
  simp only [List.getElem?_map, Array.getElem?_toList, Array.getElem?_modify]
  split
  · cases publisher.handovers[place]? <;> rfl
  · rfl

/-- A delivery that ends without a panic lets the worker go on. -/
theorem settled_of_endOf? {timeout : Nat} (ends : endOf? timeout now handover = some outcome)
    (calm : outcome ≠ .panic) : Settled timeout (Handover.ended handover now outcome) now := by
  unfold endOf? at ends
  split at ends
  · next due =>
    obtain ⟨instant, own, reached⟩ := Option.any_eq_true _ _ |>.mp due
    obtain ⟨delay, takes, rfl⟩ := Option.map_eq_some_iff.mp own
    obtain rfl := Option.some.inj ends
    have reached : handover.startedAt + delay ≤ now := of_decide_eq_true reached
    cases ending : handover.delivery.ending with
    | accepted => exact .succeeded rfl rfl ending takes reached
    | refused failure => exact .rejected rfl rfl ending takes reached
    | panic =>
      rw [ending] at calm
      exact absurd rfl calm
  · split at ends
    · next late =>
      obtain rfl := Option.some.inj ends
      exact .timedOut rfl rfl late
    · contradiction

/-- A turn leaves the bounds of a publisher alone. -/
theorem Turned.bounds (turned : publisher.Turned now next) :
    next.capacity = publisher.capacity ∧ next.timeout = publisher.timeout := by
  cases turned with
  | took => exact ⟨rfl, rfl⟩
  | @ended number handover outcome => cases outcome <;> exact ⟨rfl, rfl⟩

end

end Publisher

namespace Publishing

open Publisher

/-- The notice that a move gives. -/
def Move.notice? : Move α → Option α
  | notify notice => some notice
  | _ => none

/-- The notices that are given, in order. -/
def told (moves : List (Move α)) : List α :=
  moves.filterMap Move.notice?

/-- The notice that a move gives, if it is not counted as dropped. -/
def Move.accepted (state : State α) : Move α → List α
  | notify notice => if state.publisher.Drops notice then [] else [notice]
  | _ => []

/-- The notices that are given and not counted as dropped, in order. -/
def accepted : State α → List (Move α) → List α
  | _, [] => []
  | state, move :: rest =>
    move.accepted state ++
      match step? state move with
      | some next => accepted next rest
      | none => []

section

variable {source middle state next : State α} {moves moves' : List (Move α)} {move : Move α}

theorem accepted_cons (step : step? state move = some next) (rest : List (Move α)) :
    accepted state (move :: rest) = move.accepted state ++ accepted next rest := by
  rw [accepted, step]

theorem Run.accepted_append (run : Run source moves middle) (rest : List (Move α)) :
    accepted source (moves ++ rest) = accepted source moves ++ accepted middle rest := by
  induction run generalizing rest with
  | nil => rfl
  | @snoc middle target moves move run step ih =>
    rw [List.append_assoc, ih, ih [move], List.singleton_append, accepted_cons step, accepted_cons step,
      accepted, List.append_nil, List.append_assoc]

theorem Run.accepted_snoc (run : Run source moves middle) (step : step? middle move = some next) :
    accepted source (moves ++ [move]) = accepted source moves ++ move.accepted middle := by
  rw [run.accepted_append, accepted_cons step, accepted, List.append_nil]

theorem told_append (moves moves' : List (Move α)) : told (moves ++ moves') = told moves ++ told moves' :=
  List.filterMap_append

theorem length_told (moves : List (Move α)) : (told moves).length = notices moves := by
  rw [told, List.length_filterMap_eq_countP]
  refine List.countP_congr fun move _ => ?_
  cases move <;> exact Iff.rfl

/-- Nothing is accepted that was not given. -/
theorem Run.accepted_sublist (run : Run source moves state) : (accepted source moves).Sublist (told moves) := by
  induction run with
  | nil => exact .slnil
  | @snoc middle target moves move run step ih =>
    rw [run.accepted_snoc step, told_append]
    refine ih.append ?_
    cases move with
    | notify notice =>
      change (if middle.publisher.Drops notice then [] else [notice]).Sublist [notice]
      split
      · exact List.nil_sublist _
      · exact List.Sublist.refl _
    | turn => exact List.Sublist.refl _
    | pass instant => exact List.Sublist.refl _

theorem Run.accepted_of_quiet (run : Run source moves state) (quiet : notices moves = 0) :
    accepted source moves = [] := by
  have most := run.accepted_sublist.length_le
  rw [length_told, quiet] at most
  exact List.eq_nil_of_length_eq_zero (Nat.le_zero.mp most)

theorem step_bounds (step : step? state move = some next) :
    next.publisher.capacity = state.publisher.capacity ∧ next.publisher.timeout = state.publisher.timeout := by
  cases move with
  | notify notice =>
    cases step
    rcases notify_cases state.publisher notice with ⟨_, _, same⟩ | ⟨_, _, same⟩
    · simp only [same]
      exact ⟨rfl, rfl⟩
    · simp only [same, and_self]
  | turn => exact (turn?_turned (turn_publisher step).2).bounds
  | pass instant =>
    cases step
    exact ⟨rfl, rfl⟩

theorem Run.bounds (run : Run source moves state) :
    state.publisher.capacity = source.publisher.capacity ∧ state.publisher.timeout = source.publisher.timeout := by
  induction run with
  | nil => exact ⟨rfl, rfl⟩
  | snoc _ step ih =>
    obtain ⟨capacity, timeout⟩ := step_bounds step
    exact ⟨capacity.trans ih.1, timeout.trans ih.2⟩

/-- What was queued and what was accepted since has been handed over in this order, and what is left is in the queue
as long as the worker lives. -/
theorem Run.handed_append (run : Run source moves state) :
    ∃ rest,
      source.publisher.handed ++ source.publisher.queue ++ accepted source moves = state.publisher.handed ++ rest ∧
      (state.publisher.worker ≠ .dead → rest = state.publisher.queue) := by
  induction run with
  | nil => exact ⟨_, List.append_nil _, fun _ => rfl⟩
  | @snoc middle target moves move run step ih =>
    obtain ⟨rest, balance, queued⟩ := ih
    rw [run.accepted_snoc step, ← List.append_assoc, balance]
    cases move with
    | notify notice =>
      cases step
      simp only [Move.accepted]
      rcases notify_cases middle.publisher notice with ⟨_, drops, same⟩ | ⟨⟨alive, _⟩, keeps, same⟩
      · rw [if_pos drops, same, List.append_nil]
        exact ⟨rest, rfl, queued⟩
      · rw [if_neg keeps, same, queued alive, List.append_assoc]
        exact ⟨_, rfl, fun _ => rfl⟩
    | pass instant =>
      cases step
      exact ⟨rest, List.append_nil _, queued⟩
    | turn =>
      obtain ⟨_, turn⟩ := turn_publisher step
      generalize target.publisher = publisher at turn ⊢
      simp only [Move.accepted, List.append_nil]
      cases turn?_turned turn with
      | @took notice tail worker queue =>
        have all : rest = notice :: tail := (queued (by simp [worker])).trans queue
        refine ⟨tail, ?_, fun _ => rfl⟩
        rw [handed_take, all, List.append_assoc, List.singleton_append]
      | @ended number handover outcome worker =>
        refine ⟨rest, by rw [handed_finish], fun alive => ?_⟩
        have calm : outcome ≠ .panic := by
          rintro rfl
          exact alive rfl
        rw [(finish_of_ne_panic middle.publisher middle.now number calm).2]
        exact queued (by simp [worker])

/-- The worker delivers the last notice that it has taken, or none; those before are settled, each before the next
one was handed over. -/
structure Serial (state : State α) : Prop where
  last : ∀ number, state.publisher.worker = .delivering number → number + 1 = state.publisher.handovers.size
  started : ∀ handover ∈ state.publisher.handovers, handover.startedAt ≤ state.now
  idle : state.publisher.worker = .idle → ∀ handover ∈ state.publisher.handovers,
    ∃ ended ≤ state.now, Settled state.publisher.timeout handover ended
  ordered : ∀ (i j : Nat) (earlier later : Handover α), i < j → state.publisher.handovers[i]? = some earlier →
    state.publisher.handovers[j]? = some later →
    ∃ ended ≤ later.startedAt, Settled state.publisher.timeout earlier ended

namespace Serial

theorem opening (capacity timeout : Nat) (sink : List (α → Delivery)) : Serial (opening capacity timeout sink) := by
  constructor
  · exact fun _ => nofun
  · exact fun handover member => absurd member (Array.not_mem_empty handover)
  · exact fun _ handover member => absurd member (Array.not_mem_empty handover)
  · intro i j earlier later _ present
    exact absurd (Array.mem_of_getElem? present) (Array.not_mem_empty earlier)

/-- Notices do nothing to what was handed over, and time only moves on. -/
theorem congr (serial : Serial state) (worker : next.publisher.worker = state.publisher.worker)
    (handovers : next.publisher.handovers = state.publisher.handovers)
    (timeout : next.publisher.timeout = state.publisher.timeout) (now : state.now ≤ next.now) : Serial next := by
  constructor
  · rw [worker, handovers]
    exact serial.last
  · rw [handovers]
    exact fun handover member => Nat.le_trans (serial.started handover member) now
  · rw [worker, handovers, timeout]
    intro idle handover member
    obtain ⟨ended, past, settled⟩ := serial.idle idle handover member
    exact ⟨ended, Nat.le_trans past now, settled⟩
  · rw [handovers, timeout]
    exact serial.ordered

theorem take (serial : Serial state) {notice : α} {rest : List α} (worker : state.publisher.worker = .idle) :
    Serial { state with publisher := state.publisher.take state.now notice rest } := by
  constructor
  · rintro number ⟨⟩
    exact (Array.size_push _).symm
  · intro handover member
    rcases Array.mem_push.mp member with old | rfl
    · exact serial.started handover old
    · exact Nat.le_refl _
  · exact nofun
  · intro i j earlier later before present present'
    rcases getElem?_push_cases present' with ⟨_, old'⟩ | ⟨rfl, rfl⟩
    · rcases getElem?_push_cases present with ⟨_, old⟩ | ⟨rfl, _⟩
      · exact serial.ordered i j earlier later before old old'
      · exact absurd (Array.getElem?_eq_some_iff.mp old').1 (Nat.not_lt.mpr (Nat.le_of_lt before))
    · rcases getElem?_push_cases present with ⟨_, old⟩ | ⟨same, _⟩
      · exact serial.idle worker earlier (Array.mem_of_getElem? old)
      · exact absurd same (Nat.ne_of_lt before)

/-- Handovers stay in order when the last of them ends. -/
theorem ordered_finish (serial : Serial state) {number : Nat} (worker : state.publisher.worker = .delivering number)
    (outcome : WorkOutcome) {i j : Nat} {earlier later : Handover α} (before : i < j)
    (there : (state.publisher.finish state.now number outcome).handovers[i]? = some earlier)
    (there' : (state.publisher.finish state.now number outcome).handovers[j]? = some later) :
    ∃ ended ≤ later.startedAt, Settled state.publisher.timeout earlier ended := by
  have last := serial.last number worker
  rw [finish_handovers] at there there'
  obtain ⟨later', old', same'⟩ := getElem?_modify_cases there'
  have inside := (Array.getElem?_eq_some_iff.mp old').1
  obtain ⟨earlier', old, ⟨_, rfl⟩ | ⟨rfl, _⟩⟩ := getElem?_modify_cases there
  · obtain ⟨ended, past, settled⟩ := serial.ordered i j _ later' before old old'
    have same : later.startedAt = later'.startedAt := by
      rcases same' with ⟨_, rfl⟩ | ⟨_, rfl⟩ <;> rfl
    exact ⟨ended, same ▸ past, settled⟩
  · omega

/-- When the last handover ends without a panic, all of them have. -/
theorem settled_finish (serial : Serial state) {number : Nat} {handover : Handover α} {outcome : WorkOutcome}
    (worker : state.publisher.worker = .delivering number)
    (present : state.publisher.handovers[number]? = some handover)
    (ends : endOf? state.publisher.timeout state.now handover = some outcome) (calm : outcome ≠ .panic)
    {later : Handover α} (member : later ∈ (state.publisher.finish state.now number outcome).handovers) :
    ∃ ended ≤ state.now, Settled state.publisher.timeout later ended := by
  have last := serial.last number worker
  obtain ⟨place, there⟩ := Array.mem_iff_getElem?.mp member
  rw [finish_handovers] at there
  obtain ⟨before, old, ⟨other, rfl⟩ | ⟨rfl, rfl⟩⟩ := getElem?_modify_cases there
  · have inside := (Array.getElem?_eq_some_iff.mp old).1
    obtain ⟨ended, past, settled⟩ := serial.ordered place number _ handover (by omega) old present
    exact ⟨ended, Nat.le_trans past (serial.started handover (Array.mem_of_getElem? present)), settled⟩
  · obtain rfl := Option.some.inj (present.symm.trans old)
    exact ⟨state.now, Nat.le_refl _, settled_of_endOf? ends calm⟩

theorem finish (serial : Serial state) {number : Nat} {handover : Handover α} {outcome : WorkOutcome}
    (worker : state.publisher.worker = .delivering number)
    (present : state.publisher.handovers[number]? = some handover)
    (ends : endOf? state.publisher.timeout state.now handover = some outcome) :
    Serial { state with publisher := state.publisher.finish state.now number outcome } := by
  have timeout : (state.publisher.finish state.now number outcome).timeout = state.publisher.timeout :=
    (Turned.ended worker present ends).bounds.2
  constructor
  · intro other waits
    by_cases panics : outcome = .panic
    · subst panics
      contradiction
    · have idle := (finish_of_ne_panic state.publisher state.now number panics).1
      exact absurd (waits.symm.trans idle) nofun
  · intro later member
    change later ∈ (state.publisher.finish state.now number outcome).handovers at member
    rw [finish_handovers] at member
    obtain ⟨before, old, rfl | ⟨_, rfl⟩⟩ := mem_modify member
    · exact serial.started _ old
    · exact serial.started before old
  · intro idle later member
    have calm : outcome ≠ .panic := by
      rintro rfl
      contradiction
    simp only [timeout]
    exact serial.settled_finish worker present ends calm member
  · simp only [timeout]
    exact fun i j earlier later before => serial.ordered_finish worker outcome before

theorem step (serial : Serial state) (step : step? state move = some next) : Serial next := by
  cases move with
  | notify notice =>
    obtain ⟨_, timeout⟩ := step_bounds step
    cases step
    refine serial.congr (notify_worker ..) ?_ timeout (Nat.le_refl _)
    rcases notify_cases state.publisher notice with ⟨_, _, same⟩ | ⟨_, _, same⟩
    · simp only [same]
      rfl
    · simp only [same]
  | pass instant =>
    cases step
    exact serial.congr rfl rfl rfl (Nat.le_max_left ..)
  | turn =>
    obtain ⟨publisher, turn, rfl⟩ := Option.map_eq_some_iff.mp step
    cases turn?_turned turn with
    | took worker => exact serial.take worker
    | ended worker present ends => exact serial.finish worker present ends

theorem run (run : Run source moves state) (serial : Serial source) : Serial state := by
  induction run with
  | nil => exact serial
  | snoc _ step ih => exact ih.step step

end Serial

/-- As many of the notices that come before the worker's next turn are accepted as there are free places. -/
theorem Run.accepted_of_burst (run : Run source moves state) (before : ∀ move ∈ moves, move ≠ .turn)
    (alive : source.publisher.worker ≠ .dead) :
    accepted source moves = (told moves).take (source.publisher.capacity - source.publisher.queue.length) ∧
      state.publisher.worker = source.publisher.worker ∧
      state.publisher.queue = source.publisher.queue ++ accepted source moves := by
  induction run with
  | nil => exact ⟨(List.take_nil ..).symm, rfl, (List.append_nil _).symm⟩
  | @snoc middle target moves move run step ih =>
    obtain ⟨taken, worker, queue⟩ := ih fun move member => before move (List.mem_append_left _ member)
    rw [run.accepted_snoc step, told_append, List.take_append, ← taken]
    cases move with
    | turn => exact absurd rfl (before .turn (List.mem_append_right _ (List.mem_singleton_self _)))
    | pass instant =>
      cases step
      have none : told [(.pass instant : Move α)] = [] := rfl
      have gives : Move.accepted middle (.pass instant) = [] := rfl
      rw [none, gives, List.take_nil, List.append_nil]
      exact ⟨rfl, worker, queue⟩
    | notify notice =>
      cases step
      have filled : middle.publisher.queue.length =
          source.publisher.queue.length +
            min (source.publisher.capacity - source.publisher.queue.length) (told moves).length := by
        rw [queue, List.length_append, taken, List.length_take]
      have capacity := run.bounds.1
      have one : told [Move.notify notice] = [notice] := rfl
      rw [one]
      simp only [Move.accepted]
      rcases notify_cases middle.publisher notice with ⟨shut, drops, same⟩ | ⟨⟨_, room⟩, keeps, same⟩
      · have full : middle.publisher.capacity ≤ middle.publisher.queue.length :=
          shut.resolve_left fun dead => alive (worker.symm.trans dead)
        have none : source.publisher.capacity - source.publisher.queue.length - (told moves).length = 0 := by omega
        rw [if_pos drops, same, none]
        refine ⟨rfl, worker, ?_⟩
        rw [List.append_nil]
        exact queue
      · have some : source.publisher.capacity - source.publisher.queue.length - (told moves).length ≠ 0 := by omega
        obtain ⟨left, more⟩ := Nat.exists_eq_succ_of_ne_zero some
        rw [if_neg keeps, same, more]
        rw [List.take_succ_cons, List.take_nil]
        refine ⟨rfl, worker, ?_⟩
        rw [← List.append_assoc, ← queue]

/-- What becomes of the notices that are given to a side channel. -/
structure Ordered (capacity timeout : Nat) (start : State α) (moves : List (Move α)) (state : State α) : Prop where
  /-- They are handed over in the order in which they were accepted, none of them twice. -/
  handed : state.publisher.handed <+: accepted start moves
  /-- Those that were accepted and not handed over are in the queue, as long as the worker lives. -/
  queued : state.publisher.worker ≠ .dead → accepted start moves = state.publisher.handed ++ state.publisher.queue
  /-- The worker dies of a panic, and of nothing else. -/
  dead_iff : state.publisher.worker = .dead ↔ state.publisher.Panicked
  /-- A notice is handed over when all deliveries before have succeeded, were rejected or took too long. -/
  oneByOne : ∀ (i j : Nat) (earlier later : Handover α), i < j → state.publisher.handovers[i]? = some earlier →
    state.publisher.handovers[j]? = some later → ∃ ended ≤ later.startedAt, Settled timeout earlier ended
  drops_iff : ∀ notice, state.publisher.Drops notice ↔
    state.publisher.worker = .dead ∨ max capacity 1 ≤ state.publisher.queue.length
  /-- Of the notices that come before the worker's next turn, the first ones are accepted, as many as there are free
  places. -/
  burst : ∀ (more : List (Move α)) (next : State α), Run state more next → (∀ move ∈ more, move ≠ .turn) →
    state.publisher.worker ≠ .dead →
    accepted state more = (told more).take (max capacity 1 - state.publisher.queue.length) ∧
      (accepted state more).length = min (notices more) (max capacity 1 - state.publisher.queue.length)
  /-- Without a panic, everything that was accepted has been handed over after the shutdown. -/
  shutdown : ∃ rest, Run state rest (act state .shutdown) ∧ notices rest = 0 ∧
    (¬ (act state .shutdown).publisher.Panicked → (act state .shutdown).publisher.handed = accepted start moves)

/-- What is accepted by a new side channel, so far. -/
theorem Run.handed_of_opening {capacity timeout : Nat} {sink : List (α → Delivery)}
    (run : Run (opening capacity timeout sink) moves state) :
    ∃ rest, accepted (opening capacity timeout sink) moves = state.publisher.handed ++ rest ∧
      (state.publisher.worker ≠ .dead → rest = state.publisher.queue) :=
  run.handed_append

theorem ordered_of_run {capacity timeout : Nat} {sink : List (α → Delivery)}
    (run : Run (opening capacity timeout sink) moves state) :
    Ordered capacity timeout (opening capacity timeout sink) moves state := by
  have sound := sound_opening capacity timeout sink
  obtain ⟨bound, patience⟩ : state.publisher.capacity = max capacity 1 ∧ state.publisher.timeout = timeout := run.bounds
  obtain ⟨rest, balance, queued⟩ := run.handed_of_opening
  constructor
  · exact ⟨rest, balance.symm⟩
  · exact fun alive => by rw [balance, queued alive]
  · exact (run.sound sound).dead_iff
  · rw [← patience]
    exact (Serial.run run (.opening capacity timeout sink)).ordered
  · rw [← bound]
    exact fun notice => drops_iff
  · intro more next further before alive
    obtain ⟨taken, _, _⟩ := further.accepted_of_burst before alive
    rw [bound] at taken
    refine ⟨taken, ?_⟩
    rw [taken, List.length_take, length_told, Nat.min_comm]
  · obtain ⟨last, ends, quiet⟩ := act_run state .shutdown
    refine ⟨last, ends, quiet, fun calm => ?_⟩
    have whole := run.append ends
    have after := whole.sound sound
    obtain ⟨emptied, _⟩ := empty_of_isDrained after (isDrained_shutdown (run.sound sound))
    obtain ⟨left, all, gone⟩ := whole.handed_of_opening
    have none : left = [] := (gone fun dead => calm (after.dead_iff.mp dead)).trans emptied
    rw [run.accepted_append, ends.accepted_of_quiet quiet, none, List.append_nil, List.append_nil] at all
    exact all.symm

end

/-- The first delivery takes too long, a third notice finds the queue full while it goes on, and a fourth one is given
when the second has been taken. -/
def crowded : List (Move Nat) :=
  [.notify 1, .turn, .notify 2, .notify 3, .pass 1000, .turn, .turn, .notify 4]

theorem ordered_crowded :
    ∃ state, Run (opening 1 1000 [fun _ => { delay := none }, fun _ => {}]) crowded state ∧
      state.publisher.handed = [1, 2] ∧ state.publisher.queue = [4] ∧
      accepted (opening 1 1000 [fun _ => { delay := none }, fun _ => {}]) crowded = [1, 2, 4] ∧
      Ordered 1 1000 (opening 1 1000 [fun _ => { delay := none }, fun _ => {}]) crowded state := by
  have steps : crowded.foldlM step? (opening 1 1000 [fun _ => { delay := none }, fun _ => {}]) = some _ := rfl
  have run := Run.of_moves steps
  exact ⟨_, run, rfl, rfl, by decide, ordered_of_run run⟩

end Publishing

end HedgedForecast
