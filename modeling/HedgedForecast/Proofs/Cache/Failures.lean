import HedgedForecast.Proofs.Cache.Changes
import HedgedForecast.Proofs.Cache.History
import HedgedForecast.Proofs.Cache.Pace

/-! # Why calls fail

A call fails because its own deadline was cancelled, because its own time was up, or because the flight
that it waited for ended with a failure; there is no fourth way. A flight that has ended says the same
to everyone who still waits for it. And as a flight is cancelled only when nobody waits for it, callers
do not fail each other: as long as computations do not claim to be cancelled or out of request time of
their own accord, only the caller's own deadline leads to these two failures.
-/

namespace HedgedForecast.Cache

variable {V : Type}

/-- What ended the waiting of a call that failed. -/
inductive Cause where
  | cancelled
  | expired
  | flight (number : Nat) (reason : Failure)

/-- The failure of a waiting call has a cause at the present instant. Its own deadline comes before its
flight, and being cancelled before running out of time. -/
inductive Explains (cache : Cache V) (call : Call V) (failure : Failure) : Cause → Prop
  | cancelled (own : call.deadline.isCancelled cache.clock = true) (same : failure = .cancelled) :
      Explains cache call failure .cancelled
  | expired (uncancelled : call.deadline.isCancelled cache.clock = false)
      (own : call.deadline.instant ≤ cache.clock.now) (same : failure = .timeout .request) :
      Explains cache call failure .expired
  | flight {number : Nat} {reason : Failure} (uncancelled : call.deadline.isCancelled cache.clock = false)
      (inTime : cache.clock.now < call.deadline.instant) (waits : call.flight? = some number)
      (told : cache.resultOf number = some (.error reason)) (same : failure = callerFailure reason) :
      Explains cache call failure (.flight number reason)

/-- The call failed by a turn, in a state in which there was exactly one cause for that. -/
def Explained (rule : Rule V) (cache : Cache V) (number : Nat) (call : Call V) (failure : Failure)
    (instant : Nat) : Prop :=
  ∃ before after waiting, Reachable rule before ∧ before.calls[number]? = some waiting ∧
    waiting.deadline = call.deadline ∧ before.clock.now = instant ∧ before.turnCall? number = some after ∧
    Run rule after cache ∧ ∃! cause, before.Explains waiting failure cause

theorem Explains.unique {cache : Cache V} {call : Call V} {failure : Failure} {cause other : Cause}
    (explains : cache.Explains call failure cause) (explains' : cache.Explains call failure other) :
    other = cause := by
  cases explains with
  | cancelled own _ =>
    cases explains' with
    | cancelled => rfl
    | expired uncancelled => rw [own] at uncancelled; contradiction
    | flight uncancelled => rw [own] at uncancelled; contradiction
  | expired uncancelled own _ =>
    cases explains' with
    | cancelled own' => rw [uncancelled] at own'; contradiction
    | expired => rfl
    | flight _ inTime => exact absurd own (Nat.not_le.mpr inTime)
  | flight uncancelled inTime waits told _ =>
    cases explains' with
    | cancelled own => rw [uncancelled] at own; contradiction
    | expired _ own => exact absurd own (Nat.not_le.mpr inTime)
    | flight _ _ waits' told' =>
      obtain rfl := Option.some.inj (waits.symm.trans waits')
      rw [told] at told'
      cases told'
      rfl

/-- A failure that a call would be told now has a cause now. -/
theorem exists_cause {cache : Cache V} {call : Call V} {failure : Failure}
    (answered : cache.answer? call = some (.error failure)) : ∃ cause, cache.Explains call failure cause := by
  cases phase : call.phase with
  | cold flight =>
    simp only [answer?, phase] at answered
    obtain ⟨ending, verdict, told⟩ := Option.map_eq_some_iff.mp answered
    rcases Deadline.verdict_cases verdict with
      ⟨own, rfl⟩ | ⟨uncancelled, own, rfl⟩ | ⟨uncancelled, inTime, result, ended, rfl⟩
    · cases told
      exact ⟨_, .cancelled own rfl⟩
    · cases told
      exact ⟨_, .expired uncancelled own rfl⟩
    · cases result with
      | ok value => cases told
      | error reason =>
        cases told
        exact ⟨_, .flight uncancelled inTime (by simp [Call.flight?, phase]) ended rfl⟩
  | stale flight soft fallback =>
    simp only [answer?, phase] at answered
    obtain ⟨ending, verdict, told⟩ := Option.map_eq_some_iff.mp answered
    cases waited : waitResult ending with
    | ok value => rw [waited] at told; cases told
    | error reason =>
      rw [waited, staleAnswer] at told
      split at told
      · next own =>
        cases told
        exact ⟨_, .cancelled (Bool.and_eq_true_iff.mp own).2 rfl⟩
      · cases told
  | returned result instant => simp [answer?, phase] at answered
  | dropped => simp [answer?, phase] at answered

/-- A call that has failed after an event had failed before, or fails by its turn. -/
theorem step_failed {cache next : Cache V} {event : Event V} {number instant : Nat} {call : Call V} {failure : Failure}
    (step : cache.step? event = some next) (present : next.calls[number]? = some call)
    (failed : call.phase = .returned (.error failure) instant) :
    cache.calls[number]? = some call ∨
      event = .call number ∧ cache.clock.now = instant ∧ ∃ waiting, cache.calls[number]? = some waiting ∧
        waiting.deadline = call.deadline ∧ cache.answer? waiting = some (.error failure) := by
  cases step_cameFrom step present with
  | same there => exact .inl there
  | answered there answered same =>
    subst same
    cases failed
    exact .inr ⟨rfl, rfl, _, there, rfl, answered⟩
  | dropped _ same => subst same; contradiction
  | @begun _ _ _ phase _ opens same =>
    subst same
    have failed : phase = .returned (.error failure) instant := failed
    cases opens <;> cases failed

theorem Reachable.explained {rule : Rule V} {cache : Cache V} (reachable : Reachable rule cache) {number instant : Nat}
    {call : Call V} {failure : Failure} (present : cache.calls[number]? = some call)
    (failed : call.phase = .returned (.error failure) instant) :
    cache.Explained rule number call failure instant := by
  obtain ⟨maxEntries, run⟩ := reachable
  induction run with
  | nil => simp [empty] at present
  | @snoc before after event run allowed step ih =>
    rcases step_failed step present failed with old | ⟨rfl, time, waiting, there, same, answered⟩
    · obtain ⟨earlier, ended, waiting, reached, there, same, time, turn, rest, cause⟩ := ih old
      exact ⟨earlier, ended, waiting, reached, there, same, time, turn, .snoc rest allowed step, cause⟩
    · obtain ⟨cause, explains⟩ := exists_cause answered
      exact ⟨before, after, waiting, ⟨maxEntries, run⟩, there, same, time, step, .nil, cause, explains,
        fun _ => explains.unique⟩

/-- What a call makes of the result of its flight: it takes the value, and of a failure it takes what
callers see of it or, if it has one, its own value instead. -/
def outcome (call : Call V) (result : Except Failure V) : Except Failure V :=
  match call.phase with
  | .stale _ _ fallback => staleAnswer false fallback result
  | _ => coldAnswer result

/-- The deadline under which a call waits. -/
def waitDeadline (call : Call V) : Deadline :=
  match call.phase with
  | .stale _ soft _ => soft
  | _ => call.deadline

/-- The own deadline of the call, or the one made from it for waiting, is cancelled. -/
def GaveUp (cache : Cache V) (call : Call V) : Prop :=
  call.deadline.isCancelled cache.clock = true ∨ (waitDeadline call).isCancelled cache.clock = true

/-- A call whose flight has ended can take its turn. -/
theorem answer?_ne_none {cache : Cache V} {call : Call V} {flight : Nat} {result : Except Failure V}
    (waits : call.flight? = some flight) (ended : cache.resultOf flight = some result) : cache.answer? call ≠ none := by
  cases phase : call.phase with
  | cold other =>
    obtain rfl : other = flight := by simpa [Call.flight?, phase] using waits
    simp [answer?, phase, Deadline.verdict_eq_none_iff, ended]
  | stale other soft fallback =>
    obtain rfl : other = flight := by simpa [Call.flight?, phase] using waits
    simp [answer?, phase, Deadline.verdict_eq_none_iff, ended]
  | returned answer instant => simp [Call.flight?, phase] at waits
  | dropped => simp [Call.flight?, phase] at waits

/-- In time, and unless it gave up, it is told what the flight says. -/
theorem answer?_eq_outcome {cache : Cache V} {call : Call V} {flight : Nat} {result answer : Except Failure V}
    (waits : call.flight? = some flight) (ended : cache.resultOf flight = some result)
    (inTime : cache.clock.now < (waitDeadline call).instant) (answered : cache.answer? call = some answer) :
    cache.GaveUp call ∨ answer = outcome call result := by
  by_cases gaveUp : cache.GaveUp call
  · exact .inl gaveUp
  refine .inr ?_
  obtain ⟨own, wait⟩ := not_or.mp gaveUp
  have verdict : (waitDeadline call).verdict cache.clock (some result) = some (.done result) := by
    have still : ¬ (waitDeadline call).instant ≤ cache.clock.now := Nat.not_le.mpr inTime
    simp [Deadline.verdict, wait, Deadline.isExpired, still]
  cases phase : call.phase with
  | cold other =>
    obtain rfl : other = flight := by simpa [Call.flight?, phase] using waits
    simp only [waitDeadline, phase] at verdict
    simp only [answer?, phase, ended, verdict] at answered
    cases answered
    simp only [outcome, phase, waitResult]
  | stale other soft fallback =>
    obtain rfl : other = flight := by simpa [Call.flight?, phase] using waits
    simp only [waitDeadline, phase] at verdict
    simp only [answer?, phase, ended, verdict] at answered
    cases answered
    simp only [outcome, phase, waitResult, Bool.eq_false_iff.mpr own]
  | returned answer instant => simp [Call.flight?, phase] at waits
  | dropped => simp [Call.flight?, phase] at waits

/-- Where a call may stand after its flight ended: it is about to be told, went away, was told what the
flight says, or gave up. -/
inductive Told (ended later : Cache V) (number : Nat) (call : Call V) (result : Except Failure V) : Prop
  | next (waiting : later.calls[number]? = some call) (sameTime : later.clock.now = ended.clock.now)
      (ready : later.turnCall? number ≠ none)
  | dropped {gone : Call V} (present : later.calls[number]? = some gone) (phase : gone.phase = .dropped)
  | told {answered : Call V} (present : later.calls[number]? = some answered)
      (phase : answered.phase = .returned (outcome call result) ended.clock.now)
  | gaveUp (gaveUp : later.GaveUp call)

theorem GaveUp.extends {cache later : Cache V} {call : Call V} (gaveUp : cache.GaveUp call)
    (extended : Extends later cache) : later.GaveUp call :=
  gaveUp.imp (extended.cancelled _) (extended.cancelled _)

/-- A call that does not wait is left alone. -/
theorem step_unwaiting {cache next : Cache V} {event : Event V} {number : Nat} {call : Call V}
    (step : cache.step? event = some next) (present : cache.calls[number]? = some call)
    (unwaiting : call.flight? = none) : next.calls[number]? = some call := by
  by_cases turn : event = .call number
  · subst turn
    obtain ⟨found, answer, there, answered, _⟩ := turnCall?_calls step
    obtain rfl := Option.some.inj (present.symm.trans there)
    cases phase : call.phase <;> simp [Call.flight?, answer?, phase] at unwaiting answered
  by_cases drop : event = .drop number
  · subst drop
    cases step
    rcases dropCall_eq cache number with ⟨same, _⟩ | ⟨found, flight, there, waits, _⟩
    · rw [same, present]
    · obtain rfl := Option.some.inj (present.symm.trans there)
      rw [unwaiting] at waits
      contradiction
  exact step_calls step turn drop present

/-- A call that can take its turn takes it, is dropped, or stays as it is without time going on. -/
theorem step_ready {cache next : Cache V} {event : Event V} {number : Nat} {call : Call V}
    (step : cache.step? event = some next) (prompt : Prompt cache event) (waiting : cache.calls[number]? = some call)
    (ready : cache.turnCall? number ≠ none) (waits : call.flight? ≠ none) :
    (∃ answer, cache.answer? call = some answer ∧
        next.calls[number]? = some { call with phase := .returned answer cache.clock.now }) ∨
      next.calls[number]? = some { call with phase := .dropped } ∨
      next.calls[number]? = some call ∧ next.clock.now = cache.clock.now := by
  by_cases turn : event = .call number
  · subst turn
    obtain ⟨found, answer, there, answered, calls⟩ := turnCall?_calls step
    obtain rfl := Option.some.inj (waiting.symm.trans there)
    refine .inl ⟨answer, answered, ?_⟩
    rw [calls]
    exact getElem?_modify_self _ waiting
  by_cases drop : event = .drop number
  · subst drop
    cases step
    rcases dropCall_eq cache number with ⟨_, unwaiting⟩ | ⟨_, _, _, _, left⟩
    · exact absurd (unwaiting call waiting) waits
    · refine .inr (.inl ?_)
      rw [left, leave_calls]
      exact getElem?_modify_self _ waiting
  refine .inr (.inr ⟨step_calls step turn drop waiting, step_now step ?_⟩)
  rintro instant rfl
  exact ready (prompt.1.calls number)

/-- What a caller is told does not depend on the order in which the callers of a flight are told. -/
theorem Told.step {ended before after : Cache V} {event : Event V} {number flight : Nat} {call : Call V}
    {result : Except Failure V} (told : Told ended before number call result) (waits : call.flight? = some flight)
    (landed : before.resultOf flight = some result) (inTime : ended.clock.now < (waitDeadline call).instant)
    (prompt : Prompt before event) (step : before.step? event = some after) :
    Told ended after number call result := by
  have extended := Extends.step step
  cases told with
  | next waiting sameTime ready =>
    have held : call.flight? ≠ none := by simp [waits]
    rcases step_ready step prompt waiting ready held with ⟨answer, answered, present⟩ | present | ⟨still, now⟩
    · rcases answer?_eq_outcome waits landed (by rw [sameTime]; exact inTime) answered with gaveUp | rfl
      · exact .gaveUp (gaveUp.extends extended)
      · exact .told (sameTime ▸ present) rfl
    · exact .dropped present rfl
    · refine .next still (now.trans sameTime) ?_
      rw [Ne, turnCall?_eq_none_iff still]
      exact answer?_ne_none waits (extended.resultOf landed)
  | dropped present phase =>
    exact .dropped (step_unwaiting step present (by simp [Call.flight?, phase])) phase
  | told present phase =>
    exact .told (step_unwaiting step present (by simp [Call.flight?, phase])) phase
  | gaveUp gaveUp => exact .gaveUp (gaveUp.extends extended)

theorem Told.run {cache later : Cache V} {number flight : Nat} {call : Call V} {result : Except Failure V}
    (present : cache.calls[number]? = some call) (waits : call.flight? = some flight)
    (landed : cache.resultOf flight = some result) (inTime : cache.clock.now < (waitDeadline call).instant)
    (run : Run Prompt cache later) : Told cache later number call result := by
  induction run with
  | nil =>
    refine .next present rfl ?_
    rw [Ne, turnCall?_eq_none_iff present]
    exact answer?_ne_none waits landed
  | snoc before prompt step ih => exact ih.step waits ((Extends.run before).resultOf landed) inTime prompt step

/-- Computations claim to be cancelled or out of request time only when their flight is cancelled. -/
def Honest : Rule V
  | cache, .flight number (some (.failure failure)) => isCallerSide failure = true →
      ∀ flight, cache.flights[number]? = some flight → cache.clock.isCancelled flight.token = true
  | cache, event => Lawful cache event

theorem Honest.lawful {cache : Cache V} {event : Event V} (honest : Honest cache event) : Lawful cache event := by
  cases event with
  | cancel token => exact honest
  | _ => trivial

/-- The flight works under its own scope, and if it ended with a failure that may be due to a caller, the
scope is cancelled. -/
structure CandidFlight (clock : Clock) (flight : Flight V) : Prop where
  working : ∀ deadline, flight.phase = .working deadline → deadline.token = flight.token
  landed : ∀ failure, flight.phase = .landed (.error failure) → isCallerSide failure = true →
    clock.isCancelled flight.token = true

def Candid (cache : Cache V) : Prop :=
  ∀ flight ∈ cache.flights, CandidFlight cache.clock flight

theorem CandidFlight.later {clock later : Clock} {flight flight' : Flight V} (candid : CandidFlight clock flight)
    (phase : flight'.phase = flight.phase) (token : flight'.token = flight.token)
    (cancelled : ∀ token, clock.isCancelled token = true → later.isCancelled token = true) :
    CandidFlight later flight' := by
  constructor
  · rw [phase, token]
    exact candid.working
  · rw [phase, token]
    exact fun failure landed callerSide => cancelled _ (candid.landed failure landed callerSide)

namespace Candid

variable {cache next : Cache V}

theorem modifyFlight (candid : Candid cache) (number : Nat) {change : Flight V → Flight V}
    (changed : ∀ flight, cache.flights[number]? = some flight → CandidFlight cache.clock (change flight)) :
    Candid (cache.modifyFlight number change) := by
  intro flight' member
  obtain ⟨flight, there, rfl | ⟨present, rfl⟩⟩ := mem_modify member
  · exact candid flight' there
  · exact changed flight present

/-- Who waits for a flight makes no difference. -/
theorem modifyWaiters (candid : Candid cache) (number : Nat) {change : Flight V → Flight V}
    (same : ∀ flight, (change flight).phase = flight.phase ∧ (change flight).token = flight.token) :
    Candid (cache.modifyFlight number change) := by
  refine candid.modifyFlight number fun flight present => ?_
  obtain ⟨phase, token⟩ := same flight
  have before := candid flight (Array.mem_of_getElem? present)
  exact before.later phase token fun _ => id

theorem of_extends (candid : Candid cache) (extended : Extends next cache)
    (origin : ∀ flight' ∈ next.flights, flight'.phase = .queued ∨
      ∃ flight ∈ cache.flights, flight'.phase = flight.phase ∧ flight'.token = flight.token) : Candid next := by
  intro flight' member
  rcases origin flight' member with queued | ⟨flight, there, phase, token⟩
  · exact ⟨by simp [queued], by simp [queued]⟩
  · exact (candid flight there).later phase token extended.cancelled

theorem keep (candid : Candid cache) (extended : Extends next cache) (flights : next.flights = cache.flights) :
    Candid next :=
  candid.of_extends extended fun flight member => .inr ⟨flight, flights ▸ member, rfl, rfl⟩

theorem move {before after : Stage V} (candid : Candid before.1) (move : Move before after) : Candid after.1 := by
  have extended := Extends.move move
  cases move with
  | launch policy waiters =>
    refine candid.of_extends extended fun flight member => ?_
    rcases Array.mem_push.mp member with old | rfl
    · exact .inr ⟨flight, old, rfl, rfl⟩
    · exact .inl rfl
  | join => exact candid.modifyWaiters _ fun _ => ⟨rfl, rfl⟩
  | detach => exact candid.modifyWaiters _ fun _ => ⟨rfl, rfl⟩
  | leave flight =>
    refine candid.of_extends extended fun flight' member => ?_
    rw [leave_flights] at member
    obtain ⟨flight, there, rfl | ⟨_, rfl⟩⟩ := mem_modify member
    · exact .inr ⟨flight', there, rfl, rfl⟩
    · exact .inr ⟨flight, there, rfl, rfl⟩
  | _ => exact candid.keep extended rfl

theorem moves {target : Cache V} (candid : Candid cache) (moves : Moves V (cache, []) (target, [])) : Candid target :=
  @Moves.invariant V (fun stage => Candid stage.1) _ _ moves (fun _ _ => move) candid

theorem turnFlight (candid : Candid cache) {number : Nat} {work : Option (WorkEnd V)}
    (honest : Honest cache (.flight number work)) (turn : cache.turnFlight? number work = some next) : Candid next := by
  obtain ⟨flight, present, ⟨_, rfl⟩ | ⟨deadline, ending, working, verdict, rfl⟩⟩ := turnFlight?_eq_some_iff.mp turn
  · refine candid.modifyFlight number fun _ _ => ⟨fun deadline started => ?_, nofun⟩
    cases started
    rfl
  · obtain ⟨clock, _, outcome, flights⟩ := endFlight_frame cache number flight ending
    have own := (candid flight (Array.mem_of_getElem? present)).working deadline working
    intro flight' member
    rw [flights] at member
    rw [clock]
    obtain ⟨found, there, rfl | ⟨present', rfl⟩⟩ := mem_modify member
    · exact candid flight' there
    obtain rfl := Option.some.inj (present.symm.trans present')
    constructor
    · intro deadline' still
      rcases flight.endPhase_cases ending with phase | ⟨result, phase⟩ <;> simp [phase] at still
    · intro failure landed callerSide
      rcases Flight.endPhase_error landed with ⟨rfl, _⟩ | ⟨_, rfl⟩ | rfl
      · rcases Deadline.verdict_cases verdict with ⟨cancelled, _⟩ | ⟨_, _, absurd⟩ | ⟨_, _, _, _, absurd⟩
        · rw [Deadline.isCancelled, own] at cancelled
          exact cancelled
        · contradiction
        · contradiction
      · contradiction
      · rcases Deadline.verdict_cases verdict with ⟨_, absurd⟩ | ⟨_, _, absurd⟩ | ⟨_, _, result, done, same⟩
        · contradiction
        · contradiction
        · cases same
          subst done
          exact honest callerSide flight present

theorem step {event : Event V} (candid : Candid cache) (honest : Honest cache event)
    (step : cache.step? event = some next) : Candid next := by
  have extended := Extends.step step
  cases event with
  | begin key policy deadline => cases step; exact candid.moves (begin_moves cache key policy deadline)
  | flight number work => exact candid.turnFlight honest step
  | call number => exact candid.moves (turnCall?_moves step)
  | drop number => cases step; exact candid.moves (dropCall_moves cache number)
  | purge => cases step; exact candid.keep extended rfl
  | remove key => cases step; exact candid.keep extended rfl
  | pass instant => cases step; exact candid.keep extended rfl
  | scope parent => cases parent <;> cases step <;> exact candid.keep extended rfl
  | cancel token => cases step; exact candid.keep extended rfl

end Candid

theorem Reachable.candid {cache : Cache V} (reachable : Reachable Honest cache) : Candid cache := by
  refine reachable.invariant (fun _ _ _ candid => candid.step) fun maxEntries => ?_
  simp [Candid, empty]

/-- Somebody waits for a flight only if it is not cancelled. -/
theorem Accounted.uncancelled {cache : Cache V} (accounted : Accounted cache []) {number other : Nat} {call : Call V}
    {flight : Flight V} (present : cache.calls[number]? = some call) (waits : call.flight? = some other)
    (there : cache.flights[other]? = some flight) : cache.clock.isCancelled flight.token = false := by
  by_contra was
  have nobody := ((accounted.cancelled_iff other flight there).mp (by simpa using was)).2
  have waiters := accounted.waiters other flight there
  have positive := waiting_pos present waits
  simp only [List.count_nil] at waiters
  omega

/-- What an honest flight tells its callers is not a failure that may be due to a caller. -/
theorem Candid.not_callerSide {cache : Cache V} (candid : Candid cache) (accounted : Accounted cache [])
    {number flight : Nat} {call : Call V} {reason : Failure} (present : cache.calls[number]? = some call)
    (waits : call.flight? = some flight) (told : cache.resultOf flight = some (.error reason)) :
    isCallerSide reason = false := by
  unfold resultOf at told
  split at told
  · next found there =>
    split at told
    · next result landed =>
      cases told
      by_contra callerSide
      have was := (candid found (Array.mem_of_getElem? there)).landed reason landed (by simpa using callerSide)
      rw [accounted.uncancelled present waits there] at was
      contradiction
    · cases told; rfl
    · contradiction
  · contradiction

theorem isCallerSide_callerFailure (reason : Failure) : isCallerSide (callerFailure reason) = isCallerSide reason := by
  cases reason <;> rfl

/-- What failures of calls on a cache say about their callers. -/
structure Answerable (cache : Cache V) : Prop where
  /-- Every failure had exactly one cause when the call was told. -/
  explained : ∀ (number : Nat) (call : Call V) (failure : Failure) (instant : Nat),
    cache.calls[number]? = some call → call.phase = .returned (.error failure) instant →
    cache.Explained Lawful number call failure instant
  /-- Everyone who still waits for a flight when it has ended is told the same. -/
  alike : ∀ (number flight : Nat) (call : Call V) (result : Except Failure V) (later : Cache V),
    cache.calls[number]? = some call → call.flight? = some flight → cache.resultOf flight = some result →
    cache.clock.now < (waitDeadline call).instant → Run Prompt cache later → Told cache later number call result
  /-- No flight is cancelled while somebody waits for it. -/
  uncancelled : ∀ (number other : Nat) (call : Call V) (flight : Flight V), cache.calls[number]? = some call →
    call.flight? = some other → cache.flights[other]? = some flight → cache.clock.isCancelled flight.token = false
  /-- With honest computations no flight tells a caller a failure that may be due to a caller. -/
  candid : Reachable Honest cache → ∀ (number flight : Nat) (call : Call V) (reason : Failure),
    cache.calls[number]? = some call → call.flight? = some flight →
    cache.resultOf flight = some (.error reason) → isCallerSide reason = false
  /-- With honest computations only its own deadline makes a call cancelled or late. -/
  own : Reachable Honest cache → ∀ (number : Nat) (call : Call V) (failure : Failure) (instant : Nat),
    cache.calls[number]? = some call → call.phase = .returned (.error failure) instant →
    isCallerSide failure = true →
    failure = .cancelled ∧ call.deadline.isCancelled cache.clock = true ∨
      failure = .timeout .request ∧ call.deadline.instant ≤ instant

/-- In every reachable cache failures are explained, and callers do not fail each other. -/
theorem answerable_of_reachable {cache : Cache V} (reachable : Reachable Lawful cache) : cache.Answerable := by
  constructor
  · exact fun number call failure instant => reachable.explained
  · exact fun number flight call result later => Told.run
  · exact fun number other call flight => reachable.accounted.uncancelled
  · exact fun honest number flight call reason => honest.candid.not_callerSide reachable.accounted
  · intro honest number call failure instant present failed callerSide
    obtain ⟨before, after, waiting, reached, there, same, rfl, turn, run, cause, explains, _⟩ :=
      honest.explained present failed
    have extended : Extends cache before := (Extends.run run).trans (.moves (turnCall?_moves turn))
    cases explains with
    | cancelled own equal => exact .inl ⟨equal, extended.cancelled _ (same ▸ own)⟩
    | expired _ own equal => exact .inr ⟨equal, same ▸ own⟩
    | flight _ _ waits told equal =>
      have accounted := (reached.weaken fun _ _ => Honest.lawful).accounted
      have other := reached.candid.not_callerSide accounted there waits told
      rw [equal, isCallerSide_callerFailure, other] at callerSide
      contradiction

/-- A call waits for a computation that fails, and is told. -/
def failing : List (Event Nat) :=
  [.scope none, .begin "Oslo" lenient ⟨5000, ⟨[0]⟩⟩, .flight 0 none,
    .flight 0 (some (.failure (.providerFailed "open-meteo" "HTTP 500"))), .call 0]

theorem answerable_failing :
    ∃ cache call, failing.foldlM step? (empty 1) = some cache ∧ Reachable Lawful cache ∧
      cache.calls[0]? = some call ∧
      call.phase = .returned (.error (.unavailable (.providerFailed "open-meteo" "HTTP 500"))) 0 ∧
      cache.Answerable := by
  obtain ⟨cache, call, steps, present, phase⟩ : ∃ cache call, failing.foldlM step? (empty 1) = some cache ∧
      cache.calls[0]? = some call ∧
      call.phase = .returned (.error (.unavailable (.providerFailed "open-meteo" "HTTP 500"))) 0 :=
    ⟨_, _, rfl, rfl, rfl⟩
  have run : Run Lawful (empty 1) cache := .of_events (by simp [failing, Lawful]) steps
  exact ⟨cache, call, steps, ⟨1, run⟩, present, phase, answerable_of_reachable ⟨1, run⟩⟩

end HedgedForecast.Cache
