import HedgedForecast.Proofs.Cache.Turns
import Mathlib.Tactic.ByContra

/-! # Time and turns

Time moves on only when every turn that can be made has been made, and no further than to the next
timer. The turns at one instant come to an end, since each of them uses up a turn that some flight or
call had left; and at the next timer there is one to make. So every waiting call can be brought to its
end, whatever state it is in.
-/

namespace HedgedForecast.Cache

variable {V : Type}

/-- No flight and no call can take a turn, as long as no computation ends by itself. -/
structure Settled (cache : Cache V) : Prop where
  flights : ∀ number, cache.turnFlight? number none = none
  calls : ∀ number, cache.turnCall? number = none

/-- Time moves on only from settled states and never beyond a timer. -/
def Prompt : Rule V
  | cache, .pass instant => cache.Settled ∧ ∀ timer ∈ cache.timers, instant ≤ timer
  | _, _ => True

/-- Only the flights and calls that there are need to be looked at. -/
theorem settled_iff {cache : Cache V} :
    cache.Settled ↔ (∀ number < cache.flights.size, (cache.turnFlight? number none).isNone = true) ∧
      ∀ number < cache.calls.size, (cache.turnCall? number).isNone = true := by
  simp only [Option.isNone_iff_eq_none]
  refine ⟨fun settled => ⟨fun number _ => settled.flights number, fun number _ => settled.calls number⟩,
    fun ⟨flights, calls⟩ => ⟨fun number => ?_, fun number => ?_⟩⟩
  · by_cases bound : number < cache.flights.size
    · exact flights number bound
    · simp [turnFlight?, Array.getElem?_eq_none (Nat.le_of_not_lt bound)]
  · by_cases bound : number < cache.calls.size
    · exact calls number bound
    · simp [turnCall?, Array.getElem?_eq_none (Nat.le_of_not_lt bound)]

instance (cache : Cache V) : Decidable cache.Settled :=
  decidable_of_iff _ settled_iff.symm

theorem step_now {cache next : Cache V} {event : Event V} (step : cache.step? event = some next)
    (standing : ∀ instant, event ≠ .pass instant) : next.clock.now = cache.clock.now := by
  cases event with
  | begin key policy deadline => cases step; exact (begin_moves cache key policy deadline).now
  | flight number work =>
    obtain ⟨flight, _, ⟨_, rfl⟩ | ⟨deadline, ending, _, _, rfl⟩⟩ := turnFlight?_eq_some_iff.mp step
    · rfl
    · rw [(endFlight_frame cache number flight ending).1]
  | call number => exact (turnCall?_moves step).now
  | drop number => cases step; exact (dropCall_moves cache number).now
  | purge => cases step; rfl
  | remove key => cases step; rfl
  | pass instant => exact absurd rfl (standing instant)
  | scope parent => cases parent <;> cases step <;> rfl
  | cancel token => cases step; rfl

theorem mem_timers {cache : Cache V} {timer : Nat} :
    timer ∈ cache.timers ↔
      (∃ (number : Nat) (flight : Flight V) (deadline : Deadline), cache.flights[number]? = some flight ∧
        flight.phase = .working deadline ∧ deadline.instant = timer) ∨
      ∃ (number : Nat) (call : Call V), cache.calls[number]? = some call ∧
        ((∃ flight, call.phase = .cold flight ∧ call.deadline.instant = timer) ∨
          ∃ flight soft fallback, call.phase = .stale flight soft fallback ∧ soft.instant = timer) := by
  unfold timers
  simp only [List.mem_append, List.mem_filterMap, Array.mem_toList_iff, Array.mem_iff_getElem?]
  apply or_congr
  · constructor
    · rintro ⟨flight, ⟨number, present⟩, timed⟩
      cases phase : flight.phase <;> simp only [phase, reduceCtorEq, Option.some.injEq] at timed
      exact ⟨number, flight, _, present, phase, timed⟩
    · rintro ⟨number, flight, deadline, present, phase, rfl⟩
      exact ⟨flight, ⟨number, present⟩, by simp only [phase]⟩
  · constructor
    · rintro ⟨call, ⟨number, present⟩, timed⟩
      cases phase : call.phase <;> simp only [phase, reduceCtorEq, Option.some.injEq] at timed
      · exact ⟨number, call, present, .inl ⟨_, phase, timed⟩⟩
      · exact ⟨number, call, present, .inr ⟨_, _, _, phase, timed⟩⟩
    · rintro ⟨number, call, present, ⟨flight, phase, rfl⟩ | ⟨flight, soft, fallback, phase, rfl⟩⟩
      · exact ⟨call, ⟨number, present⟩, by simp only [phase]⟩
      · exact ⟨call, ⟨number, present⟩, by simp only [phase]⟩

/-- In a settled state all timers are still to come. -/
theorem Settled.now_lt {cache : Cache V} (settled : cache.Settled) {timer : Nat} (member : timer ∈ cache.timers) :
    cache.clock.now < timer := by
  rcases mem_timers.mp member with
    ⟨number, flight, deadline, present, phase, rfl⟩ |
      ⟨number, call, present, ⟨flight, phase, rfl⟩ | ⟨flight, soft, fallback, phase, rfl⟩⟩
  · have still := settled.flights number
    simp only [turnFlight?, present, phase, Option.map_eq_none_iff] at still
    exact (Deadline.verdict_eq_none_iff.mp still).2.1
  · have still := (turnCall?_eq_none_iff present).mp (settled.calls number)
    simp only [answer?, phase, Option.map_eq_none_iff] at still
    exact (Deadline.verdict_eq_none_iff.mp still).2.1
  · have still := (turnCall?_eq_none_iff present).mp (settled.calls number)
    simp only [answer?, phase, Option.map_eq_none_iff] at still
    exact (Deadline.verdict_eq_none_iff.mp still).2.1

theorem isWaiting_iff {cache : Cache V} {number : Nat} :
    cache.isWaiting number = true ↔
      ∃ call flight, cache.calls[number]? = some call ∧ call.flight? = some flight := by
  unfold isWaiting
  cases cache.calls[number]? with
  | none => simp
  | some call => cases phase : call.phase <;> simp [Call.flight?, phase]

/-- Every waiting call has a timer. -/
theorem exists_timer {cache : Cache V} {number : Nat} (waiting : cache.isWaiting number = true) :
    ∃ timer, timer ∈ cache.timers := by
  obtain ⟨call, flight, present, waits⟩ := isWaiting_iff.mp waiting
  cases phase : call.phase with
  | cold flight => exact ⟨_, mem_timers.mpr (.inr ⟨number, call, present, .inl ⟨flight, phase, rfl⟩⟩)⟩
  | stale flight soft fallback =>
    exact ⟨_, mem_timers.mpr (.inr ⟨number, call, present, .inr ⟨flight, soft, fallback, phase, rfl⟩⟩)⟩
  | returned result instant => simp [Call.flight?, phase] at waits
  | dropped => simp [Call.flight?, phase] at waits

def isQueued (flight : Flight V) : Bool :=
  match flight.phase with
  | .queued => true
  | _ => false

/-- How many turns flights and calls have left: a queued flight two, one at work and a waiting call one. -/
def pending (cache : Cache V) : Nat :=
  cache.flights.countP isQueued + cache.flights.countP Flight.isRunning +
    cache.calls.countP fun call => call.flight?.isSome

/-- The test is about the phase of a flight only. -/
def OfPhase (test : Flight V → Bool) : Prop :=
  ∀ flight other : Flight V, flight.phase = other.phase → test flight = test other

theorem leave_countP (cache : Cache V) (number : Nat) {test : Flight V → Bool} (ofPhase : OfPhase test) :
    (cache.leave number).flights.countP test = cache.flights.countP test := by
  rw [leave_flights]
  exact countP_modify_same _ _ fun _ _ => ofPhase _ _ rfl

/-- A call that ends does not change where flights stand. -/
theorem turnCall?_countP {cache next : Cache V} {number : Nat} (turn : cache.turnCall? number = some next)
    {test : Flight V → Bool} (ofPhase : OfPhase test) : next.flights.countP test = cache.flights.countP test := by
  obtain ⟨call, flight, _, _, ending⟩ := turnCall?_ending turn
  cases ending with
  | left answer => exact leave_countP _ flight ofPhase
  | evicted answer => exact leave_countP _ flight ofPhase
  | detached answer => exact (leave_countP _ flight ofPhase).trans (countP_modify_same _ _ fun _ _ => ofPhase _ _ rfl)

theorem isQueued_ofPhase : OfPhase (isQueued (V := V)) := by
  intro flight other same
  simp only [isQueued, same]

theorem isRunning_ofPhase : OfPhase (Flight.isRunning (V := V)) := by
  intro flight other same
  simp only [Flight.isRunning, same]

theorem pending_turnCall {cache next : Cache V} {number : Nat} (turn : cache.turnCall? number = some next) :
    next.pending < cache.pending := by
  obtain ⟨call, answer, present, _, calls⟩ := turnCall?_calls turn
  have waits : call.flight?.isSome = true := by
    obtain ⟨other, flight, there, waits, _⟩ := turnCall?_ending turn
    obtain rfl := Option.some.inj (present.symm.trans there)
    rw [waits, Option.isSome_some]
  have fewer : next.calls.countP (fun call => call.flight?.isSome) + 1 =
      cache.calls.countP fun call => call.flight?.isSome := by
    rw [calls]
    exact countP_modify_succ present waits rfl
  simp only [pending, turnCall?_countP turn isQueued_ofPhase, turnCall?_countP turn isRunning_ofPhase]
  omega

theorem pending_turnFlight {cache next : Cache V} {number : Nat} {work : Option (WorkEnd V)}
    (turn : cache.turnFlight? number work = some next) : next.pending < cache.pending := by
  obtain ⟨flight, present, ⟨queued, rfl⟩ | ⟨deadline, ending, working, _, rfl⟩⟩ := turnFlight?_eq_some_iff.mp turn
  · have started : (cache.startFlight number).flights.countP isQueued + 1 = cache.flights.countP isQueued :=
      countP_modify_succ present (by simp [isQueued, queued]) rfl
    have running : (cache.startFlight number).flights.countP Flight.isRunning =
        cache.flights.countP Flight.isRunning := by
      refine countP_modify_same _ _ fun found there => ?_
      obtain rfl := Option.some.inj (present.symm.trans there)
      simp [Flight.isRunning, queued]
    simp only [pending, running]
    change _ + _ + cache.calls.countP _ < _
    omega
  · obtain ⟨_, calls, outcome, flights⟩ := endFlight_frame cache number flight ending
    have queued : (cache.endFlight number flight ending).flights.countP isQueued = cache.flights.countP isQueued := by
      rw [flights]
      refine countP_modify_same _ _ fun found there => ?_
      obtain rfl := Option.some.inj (present.symm.trans there)
      rcases flight.endPhase_cases ending with phase | ⟨result, phase⟩ <;> simp only [isQueued, phase, working]
    have ended : (cache.endFlight number flight ending).flights.countP Flight.isRunning + 1 =
        cache.flights.countP Flight.isRunning := by
      rw [flights]
      refine countP_modify_succ present (by simp [Flight.isRunning, working]) ?_
      rcases flight.endPhase_cases ending with phase | ⟨result, phase⟩ <;> simp only [Flight.isRunning, phase]
    simp only [pending, queued, calls]
    omega

theorem exists_turn {cache : Cache V} (unsettled : ¬ cache.Settled) :
    ∃ event next, ((∃ number, event = .flight number none) ∨ ∃ number, event = .call number) ∧
      cache.step? event = some next ∧ next.pending < cache.pending := by
  by_contra none
  refine unsettled ⟨fun number => ?_, fun number => ?_⟩
  · cases turn : cache.turnFlight? number .none with
    | none => rfl
    | some next => exact absurd ⟨_, next, .inl ⟨number, rfl⟩, turn, pending_turnFlight turn⟩ none
  · cases turn : cache.turnCall? number with
    | none => rfl
    | some next => exact absurd ⟨_, next, .inr ⟨number, rfl⟩, turn, pending_turnCall turn⟩ none

section

variable {rule : Rule V}
  (flights : ∀ cache number, rule cache (.flight number none))
  (calls : ∀ cache number, rule cache (.call number))
  (timely : ∀ (cache : Cache V) instant, cache.Settled → (∀ timer ∈ cache.timers, instant ≤ timer) →
    rule cache (.pass instant))

include timely in
/-- While a call waits, a state from which a turn can be made is reached without using up any. -/
theorem exists_unsettled {cache : Cache V} {number : Nat} (waiting : cache.isWaiting number = true) :
    ∃ middle, Run rule cache middle ∧ middle.pending = cache.pending ∧ ¬ middle.Settled := by
  by_cases settled : cache.Settled
  · obtain ⟨_, timed⟩ := exists_timer waiting
    obtain ⟨timer, earliest⟩ := Option.isSome_iff_exists.mp (List.isSome_min?_of_mem timed)
    obtain ⟨member, least⟩ := List.min?_eq_some_iff.mp earliest
    let middle : Cache V := { cache with clock := cache.clock.moveTo timer }
    refine ⟨middle, .single (timely cache timer settled least) rfl, rfl, fun still => ?_⟩
    have later : middle.clock.now < timer := still.now_lt member
    exact Nat.not_lt.mpr (Nat.le_max_right ..) later
  · exact ⟨cache, .nil, rfl, settled⟩

include flights calls

theorem exists_smaller {cache : Cache V} (unsettled : ¬ cache.Settled) :
    ∃ next, Run rule cache next ∧ next.pending < cache.pending := by
  obtain ⟨event, next, ⟨number, rfl⟩ | ⟨number, rfl⟩, step, fewer⟩ := exists_turn unsettled
  · exact ⟨next, .single (flights cache number) step, fewer⟩
  · exact ⟨next, .single (calls cache number) step, fewer⟩

include timely

/-- Whatever state a call waits in, it can be brought to its end: turns are made as long as there are
any, and then time moves on to the next timer, where there are some again. -/
theorem exists_ended (cache : Cache V) (number : Nat) :
    ∃ later, Run rule cache later ∧ later.isWaiting number = false := by
  induction turns : cache.pending using Nat.strongRecOn generalizing cache with
  | ind turns ih =>
    subst turns
    cases waiting : cache.isWaiting number with
    | false => exact ⟨cache, .nil, waiting⟩
    | true =>
      obtain ⟨middle, before, same, unsettled⟩ := exists_unsettled timely waiting
      obtain ⟨next, after, fewer⟩ := exists_smaller flights calls unsettled
      obtain ⟨later, rest, ended⟩ := ih next.pending (same ▸ fewer) next rfl
      exact ⟨later, (before.append after).append rest, ended⟩

end

end HedgedForecast.Cache
