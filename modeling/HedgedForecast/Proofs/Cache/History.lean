import HedgedForecast.Proofs.Cache.Landings

/-! # What is on record stays

Flights and calls are never forgotten. A flight keeps what it was launched with and, once it has
ended, its result; a call keeps what it was begun with and, once it has been answered, its answer. Time
does not go back, and a scope that is cancelled stays so. All this holds from one event to the next and
therefore along every run.
-/

namespace HedgedForecast

variable {V : Type}

/-- The same flight at a later time. -/
structure Flight.Follows (later flight : Flight V) : Prop where
  key : later.key = flight.key
  slot : later.slot = flight.slot
  policy : later.policy = flight.policy
  trigger : later.trigger = flight.trigger
  token : later.token = flight.token
  launchedAt : later.launchedAt = flight.launchedAt
  ended : flight.isRunning = false → later.phase = flight.phase

/-- The same call at a later time. -/
structure Call.Follows (later call : Call V) : Prop where
  key : later.key = call.key
  slot : later.slot = call.slot
  policy : later.policy = call.policy
  deadline : later.deadline = call.deadline
  begunAt : later.begunAt = call.begunAt
  phase : later.phase = call.phase ∨ call.flight? ≠ none ∧ later.flight? = none

theorem Flight.Follows.refl (flight : Flight V) : flight.Follows flight :=
  ⟨rfl, rfl, rfl, rfl, rfl, rfl, fun _ => rfl⟩

theorem Flight.Follows.trans {last later flight : Flight V} (second : last.Follows later)
    (first : later.Follows flight) : last.Follows flight := by
  refine ⟨second.key.trans first.key, second.slot.trans first.slot, second.policy.trans first.policy,
    second.trigger.trans first.trigger, second.token.trans first.token,
    second.launchedAt.trans first.launchedAt, fun ended => ?_⟩
  have same := first.ended ended
  have past : later.isRunning = false := by simpa only [isRunning, same] using ended
  exact (second.ended past).trans same

theorem Call.Follows.refl (call : Call V) : call.Follows call :=
  ⟨rfl, rfl, rfl, rfl, rfl, .inl rfl⟩

theorem Call.flight?_congr {call other : Call V} (same : call.phase = other.phase) : call.flight? = other.flight? := by
  simp only [flight?, same]

theorem Call.Follows.trans {last later call : Call V} (second : last.Follows later)
    (first : later.Follows call) : last.Follows call := by
  refine ⟨second.key.trans first.key, second.slot.trans first.slot, second.policy.trans first.policy,
    second.deadline.trans first.deadline, second.begunAt.trans first.begunAt, ?_⟩
  rcases first.phase with same | ⟨waited, past⟩
  · rcases second.phase with same' | ⟨waited, past⟩
    · exact .inl (same'.trans same)
    · exact .inr ⟨Call.flight?_congr same ▸ waited, past⟩
  · rcases second.phase with same' | ⟨waits, _⟩
    · exact .inr ⟨waited, (Call.flight?_congr same').trans past⟩
    · exact absurd past waits

namespace Cache

/-- The other cache has everything that is on record in this one. -/
structure Extends (next cache : Cache V) : Prop where
  now : cache.clock.now ≤ next.clock.now
  cancelled : ∀ token, cache.clock.isCancelled token = true → next.clock.isCancelled token = true
  flights : ∀ (number : Nat) (flight : Flight V), cache.flights[number]? = some flight →
    ∃ later, next.flights[number]? = some later ∧ later.Follows flight
  calls : ∀ (number : Nat) (call : Call V), cache.calls[number]? = some call →
    ∃ later, next.calls[number]? = some later ∧ later.Follows call

namespace Extends

variable {cache middle next : Cache V}

theorem refl (cache : Cache V) : Extends cache cache :=
  ⟨Nat.le_refl _, fun _ => id, fun _ flight present => ⟨flight, present, .refl flight⟩,
    fun _ call present => ⟨call, present, .refl call⟩⟩

theorem trans (second : Extends next middle) (first : Extends middle cache) : Extends next cache := by
  refine ⟨Nat.le_trans first.now second.now, fun token was => second.cancelled _ (first.cancelled _ was), ?_, ?_⟩
  · intro number flight present
    obtain ⟨later, there, follows⟩ := first.flights number flight present
    obtain ⟨last, here, follows'⟩ := second.flights number later there
    exact ⟨last, here, follows'.trans follows⟩
  · intro number call present
    obtain ⟨later, there, follows⟩ := first.calls number call present
    obtain ⟨last, here, follows'⟩ := second.calls number later there
    exact ⟨last, here, follows'.trans follows⟩

/-- Keys, slots and counts are not on record. -/
theorem of_frame (clock : next.clock = cache.clock) (flights : next.flights = cache.flights)
    (calls : next.calls = cache.calls) : Extends next cache := by
  constructor
  · exact Nat.le_of_eq (congrArg Clock.now clock.symm)
  · rw [clock]; exact fun _ => id
  · rw [flights]; exact fun _ flight present => ⟨flight, present, .refl flight⟩
  · rw [calls]; exact fun _ call present => ⟨call, present, .refl call⟩

theorem clock (cache : Cache V) (clock : Clock) (now : cache.clock.now ≤ clock.now)
    (cancelled : ∀ token, cache.clock.isCancelled token = true → clock.isCancelled token = true) :
    Extends { cache with clock } cache :=
  ⟨now, cancelled, (refl cache).flights, (refl cache).calls⟩

theorem cancel (cache : Cache V) (token : Token) : Extends { cache with clock := cache.clock.cancel token } cache :=
  clock cache _ (Nat.le_refl _) fun _ => Clock.isCancelled_cancel_of_isCancelled

theorem modifyFlight (cache : Cache V) (number : Nat) {change : Flight V → Flight V}
    (follows : ∀ flight, cache.flights[number]? = some flight → (change flight).Follows flight) :
    Extends (cache.modifyFlight number change) cache := by
  refine ⟨Nat.le_refl _, fun _ => id, fun n flight present => ?_, (refl cache).calls⟩
  by_cases same : number = n
  · subst same
    exact ⟨change flight, getElem?_modify_self change present, follows flight present⟩
  · exact ⟨flight, (getElem?_modify_of_ne _ change same).trans present, .refl flight⟩

theorem modifyCall (cache : Cache V) (number : Nat) {change : Call V → Call V}
    (follows : ∀ call, cache.calls[number]? = some call → (change call).Follows call) :
    Extends (cache.modifyCall number change) cache := by
  refine ⟨Nat.le_refl _, fun _ => id, (refl cache).flights, fun n call present => ?_⟩
  by_cases same : number = n
  · subst same
    exact ⟨change call, getElem?_modify_self change present, follows call present⟩
  · exact ⟨call, (getElem?_modify_of_ne _ change same).trans present, .refl call⟩

theorem launch (cache : Cache V) (key : String) (slot : Nat) (policy : Policy) (trigger : Trigger)
    (waiters : Nat) : Extends (cache.launch key slot policy trigger waiters).2 cache := by
  refine ⟨Nat.le_refl _, fun _ => id, fun number flight present => ?_, (refl cache).calls⟩
  exact ⟨flight, getElem?_push_of_some _ present, .refl flight⟩

theorem addCall (cache : Cache V) (call : Call V) : Extends (cache.addCall call).2 cache := by
  refine ⟨Nat.le_refl _, fun _ => id, (refl cache).flights, fun number old present => ?_⟩
  exact ⟨old, getElem?_push_of_some _ present, .refl old⟩

theorem leave (cache : Cache V) (number : Nat) : Extends (cache.leave number) cache := by
  have counted : Extends (cache.modifyFlight number fun flight => { flight with waiters := flight.waiters - 1 }) cache :=
    modifyFlight cache number fun _ _ => ⟨rfl, rfl, rfl, rfl, rfl, rfl, fun _ => rfl⟩
  obtain ⟨clock, rfl | ⟨token, rfl⟩, same⟩ := cache.leave_eq number
  · rw [same]
    exact counted
  · rw [same]
    exact (cancel _ token).trans counted

theorem move {before after : Stage V} (move : Move before after) : Extends after.1 before.1 := by
  cases move with
  | count => exact of_frame rfl rfl rfl
  | tick => exact of_frame rfl rfl rfl
  | clock parent => exact clock _ _ (Nat.le_refl _) fun _ => id
  | evict => exact of_frame rfl rfl rfl
  | openSlot => exact of_frame rfl rfl rfl
  | amend => exact of_frame rfl rfl rfl
  | launch => exact launch ..
  | join => exact modifyFlight _ _ fun _ _ => ⟨rfl, rfl, rfl, rfl, rfl, rfl, fun _ => rfl⟩
  | detach => exact modifyFlight _ _ fun _ _ => ⟨rfl, rfl, rfl, rfl, rfl, rfl, fun _ => rfl⟩
  | leave => exact leave ..
  | serve => exact addCall ..
  | await => exact addCall ..
  | retire phase present waits ended =>
    refine modifyCall _ _ fun call there => ⟨rfl, rfl, rfl, rfl, rfl, .inr ⟨?_, ?_⟩⟩
    · obtain rfl := Option.some.inj (present.symm.trans there)
      rw [waits]
      exact Option.some_ne_none _
    · exact ended

theorem moves {before after : Stage V} (moves : Moves V before after) : Extends after.1 before.1 :=
  @Moves.invariant V (fun stage => Extends stage.1 before.1) _ _ moves
    (fun _ _ earlier last => (move last).trans earlier) (refl _)

theorem turnFlight {number : Nat} {work : Option (WorkEnd V)} (turn : cache.turnFlight? number work = some next) :
    Extends next cache := by
  obtain ⟨flight, present, ⟨queued, rfl⟩ | ⟨deadline, ending, working, _, rfl⟩⟩ := turnFlight?_eq_some_iff.mp turn
  · refine modifyFlight cache number fun found there => ⟨rfl, rfl, rfl, rfl, rfl, rfl, fun past => ?_⟩
    obtain rfl := Option.some.inj (present.symm.trans there)
    simp [Flight.isRunning, queued] at past
  · obtain ⟨clock, calls, outcome, flights⟩ := endFlight_frame cache number flight ending
    have closed : Extends (cache.modifyFlight number fun flight' =>
        { flight' with
          phase := flight.endPhase ending, outcome := some outcome, endedAt := some cache.clock.now }) cache := by
      refine modifyFlight cache number fun found there => ⟨rfl, rfl, rfl, rfl, rfl, rfl, fun past => ?_⟩
      obtain rfl := Option.some.inj (present.symm.trans there)
      simp [Flight.isRunning, working] at past
    refine trans ?_ closed
    exact of_frame clock flights calls

theorem step {event : Event V} (step : cache.step? event = some next) : Extends next cache := by
  cases event with
  | begin key policy deadline => cases step; exact moves (begin_moves cache key policy deadline)
  | flight number work => exact turnFlight step
  | call number => exact moves (turnCall?_moves step)
  | drop number => cases step; exact moves (dropCall_moves cache number)
  | purge => cases step; exact of_frame rfl rfl rfl
  | remove key => cases step; exact of_frame rfl rfl rfl
  | pass instant => cases step; exact clock _ _ (Nat.le_max_left ..) fun _ => id
  | scope parent =>
    cases parent with
    | none => cases step; exact clock _ _ (Nat.le_refl _) fun _ => id
    | some parent => cases step; exact clock _ _ (Nat.le_refl _) fun _ => id
  | cancel token => cases step; exact cancel cache token

theorem run {rule : Rule V} (run : Run rule cache next) : Extends next cache :=
  run.invariant (fun _ _ _ earlier _ last => (step last).trans earlier) (refl cache)

/-- What a flight tells its callers, it tells them for good. -/
theorem resultOf (extended : Extends next cache) {number : Nat} {result : Except Failure V}
    (told : cache.resultOf number = some result) : next.resultOf number = some result := by
  unfold Cache.resultOf at told ⊢
  cases present : cache.flights[number]? with
  | none => simp [present] at told
  | some flight =>
    obtain ⟨later, there, follows⟩ := extended.flights number flight present
    have past : flight.isRunning = false := by
      cases phase : flight.phase <;> simp [present, phase, Flight.isRunning] at told ⊢
    rw [there]
    simpa only [present, follows.ended past] using told

end Extends

end Cache

end HedgedForecast
