import HedgedForecast.Proofs.Cache.Provenance

/-! # Nobody overstays

Whoever still waits when no turn is left to be made has time and did not give up, whatever flight the call
waits for; and a computation that still runs then is within the bound that it was given when it began. That
bound is the policy's, counted from the beginning of the computation. The deadlines of callers have no part
in it, since what a call launches does not depend on its deadline.
-/

namespace HedgedForecast

variable {V : Type}

/-- How long the computation may run. -/
def Flight.limit (flight : Flight V) : Nat :=
  flight.policy.hardLimit.getD Deadline.unboundedTime

theorem Flight.limit_of_hardTimeout {flight : Flight V} (bounded : flight.policy.hardTimeout ≠ 0) :
    flight.limit = flight.policy.hardTimeout := by
  simp [limit, Policy.hardLimit, bounded]

namespace Cache

section

variable {call other : Call V}

theorem beginHit_flights (cache : Cache V) (entry : Entry V) (key : call.key = other.key)
    (slot : call.slot = other.slot) (policy : call.policy = other.policy) :
    (cache.beginHit call entry).2.flights = (cache.beginHit other entry).2.flights := by
  simp only [beginHit, addCall, key, slot, policy]

theorem beginStale_flights (cache : Cache V) (entry : Entry V) (key : call.key = other.key)
    (slot : call.slot = other.slot) (policy : call.policy = other.policy) :
    (cache.beginStale call entry).2.flights = (cache.beginStale other entry).2.flights := by
  unfold beginStale
  simp only [key, slot, policy]
  generalize staleFlight? _ _ _ _ = found
  rcases found with ⟨_ | flight, next⟩
  · rfl
  · simp only
    split <;> rfl

theorem beginCold_flights (cache : Cache V) (key : call.key = other.key) (slot : call.slot = other.slot)
    (policy : call.policy = other.policy) :
    (cache.beginCold call).2.flights = (cache.beginCold other).2.flights := by
  simp only [beginCold, addCall, key, slot, policy]

end

/-- The deadline of a call makes no difference to flights. -/
theorem begin_flights (cache : Cache V) (key : String) (policy : Policy) (deadline other : Deadline) :
    (cache.begin key policy deadline).2.flights = (cache.begin key policy other).2.flights := by
  simp only [begin_eq]
  split
  · split
    · exact beginHit_flights _ _ rfl rfl rfl
    · split
      · exact beginStale_flights _ _ rfl rfl rfl
      · exact beginCold_flights _ rfl rfl rfl
  · exact beginCold_flights _ rfl rfl rfl

variable {rule : Rule V} {cache next : Cache V} {number : Nat} {flight : Flight V}

/-- A flight that begins works under its own scope and has all the time that its policy gives. -/
theorem turnFlight?_queued {work : Option (WorkEnd V)} (turn : cache.turnFlight? number work = some next)
    (present : cache.flights[number]? = some flight) (queued : flight.phase = .queued) :
    next.clock = cache.clock ∧ next.flights[number]? = some { flight with
      phase := .working ⟨cache.clock.now + flight.limit, flight.token⟩, startedAt := some cache.clock.now } := by
  obtain ⟨found, there, ⟨_, rfl⟩ | ⟨deadline, _, working, _, _⟩⟩ := turnFlight?_eq_some_iff.mp turn
  · exact ⟨rfl, getElem?_modify_self _ present⟩
  · obtain rfl := Option.some.inj (present.symm.trans there)
    rw [queued] at working
    contradiction

/-- The computation was given the deadline at the instant, with all the time left that its policy gives. -/
def BegunIn (rule : Rule V) (cache : Cache V) (number : Nat) (instant : Nat) (deadline : Deadline) : Prop :=
  ∃ before after flight later work, Reachable rule before ∧ before.clock.now = instant ∧
    before.flights[number]? = some flight ∧ flight.phase = .queued ∧
    rule before (.flight number work) ∧ before.step? (.flight number work) = some after ∧
    after.flights[number]? = some later ∧ later.phase = .working deadline ∧ deadline.token = flight.token ∧
    deadline.remaining after.clock = flight.limit ∧ Run rule after cache

/-- Since when the computation runs or ran, and until when it may. -/
structure Timed (rule : Rule V) (cache : Cache V) (number : Nat) (flight : Flight V) (started : Nat) : Prop where
  startedAt : flight.startedAt = some started
  past : started ≤ cache.clock.now
  deadline : ∀ deadline, flight.phase = .working deadline → deadline = ⟨started + flight.limit, flight.token⟩
  begun : BegunIn rule cache number started ⟨started + flight.limit, flight.token⟩

theorem BegunIn.snoc {instant : Nat} {deadline : Deadline} {event : Event V}
    (begun : BegunIn rule cache number instant deadline) (allowed : rule cache event)
    (step : cache.step? event = some next) : BegunIn rule next number instant deadline := by
  obtain ⟨before, after, flight, later, work, reached, now, present, queued, turns, turn, there, phase, token, left,
    run⟩ := begun
  exact ⟨before, after, flight, later, work, reached, now, present, queued, turns, turn, there, phase, token, left,
    .snoc run allowed step⟩

theorem Reachable.begunIn {work : Option (WorkEnd V)} (reachable : Reachable rule cache)
    (allowed : rule cache (.flight number work)) (turn : cache.turnFlight? number work = some next)
    (present : cache.flights[number]? = some flight) (queued : flight.phase = .queued) :
    BegunIn rule next number cache.clock.now ⟨cache.clock.now + flight.limit, flight.token⟩ := by
  obtain ⟨clock, there⟩ := turnFlight?_queued turn present queued
  refine ⟨cache, next, flight, _, work, reachable, rfl, present, queued, allowed, turn, there, rfl, rfl, ?_, .nil⟩
  rw [Deadline.remaining, clock]
  exact Nat.add_sub_cancel_left ..

/-- Every computation that has begun is timed, by the policy and the beginning of its own flight. -/
theorem Reachable.timed (reachable : Reachable rule cache) (present : cache.flights[number]? = some flight)
    (begun : flight.phase ≠ .queued) : ∃ started, Timed rule cache number flight started := by
  obtain ⟨maxEntries, run⟩ := reachable
  induction run generalizing flight with
  | nil => simp [empty] at present
  | @snoc middle target event run allowed step ih =>
    have now : middle.clock.now ≤ target.clock.now := (Extends.step step).now
    cases there : middle.flights[number]? with
    | none =>
      obtain ⟨_, _, _, _, launched⟩ := step_launched step there present
      exact absurd launched.phase begun
    | some earlier =>
      obtain ⟨later, here, kept | ⟨work, rfl, turned⟩⟩ := step_flights step there
      · obtain rfl := Option.some.inj (present.symm.trans here)
        have same := kept.same
        have before : earlier.phase ≠ .queued := by rw [same] at begun; exact begun
        obtain ⟨started, timed⟩ := ih there before
        rw [same]
        exact ⟨started, timed.startedAt, Nat.le_trans timed.past now, timed.deadline, timed.begun.snoc allowed step⟩
      · obtain rfl := Option.some.inj (present.symm.trans here)
        cases turned with
        | started queued =>
          obtain ⟨_, begins⟩ := turnFlight?_queued step there queued
          cases Option.some.inj (here.symm.trans begins)
          have start := Reachable.begunIn ⟨maxEntries, run⟩ allowed step there queued
          exact ⟨_, rfl, now, fun _ working => (FlightPhase.working.inj working).symm, start⟩
        | @ended _ ending _ working =>
          have before : earlier.phase ≠ .queued := by simp [working]
          obtain ⟨started, timed⟩ := ih there before
          refine ⟨started, timed.startedAt, Nat.le_trans timed.past now, fun _ still => ?_,
            timed.begun.snoc allowed step⟩
          rcases earlier.endPhase_cases ending with lost | ⟨result, landed⟩
          · rw [lost] at still
            contradiction
          · rw [landed] at still
            contradiction

/-- A caller for whom no turn is left to be made has time and did not give up. -/
theorem Settled.inTime {call : Call V} (settled : cache.Settled) (patient : call.Patient)
    (present : cache.calls[number]? = some call) {other : Nat} (waits : call.flight? = some other) :
    cache.clock.now < call.deadline.instant ∧ call.deadline.isCancelled cache.clock = false := by
  have still := settled.calls number
  constructor
  · by_contra late
    exact heeds patient present waits (.inr (Nat.le_of_not_lt late)) still
  · by_contra cancelled
    exact heeds patient present waits (.inl (by simpa using cancelled)) still

/-- A caller with a stale value, for whom no turn is left to be made, waits within the soft timeout. -/
theorem Settled.soft {call : Call V} (settled : cache.Settled) (patient : call.Patient)
    (present : cache.calls[number]? = some call) {other : Nat} {soft : Deadline} {fallback : V}
    (phase : call.phase = .stale other soft fallback) :
    cache.clock.now < call.begunAt + call.policy.softTimeout := by
  have later : cache.clock.now < soft.instant :=
    settled.now_lt (mem_timers.mpr (.inr ⟨number, call, present, .inr ⟨other, soft, fallback, phase, rfl⟩⟩))
  have instant := patient.instant other soft fallback phase
  omega

/-- A computation for which no turn is left to be made has begun, is not over its time and not cancelled. -/
theorem Settled.working (settled : cache.Settled) (present : cache.flights[number]? = some flight)
    (running : flight.isRunning = true) :
    ∃ deadline, flight.phase = .working deadline ∧ cache.clock.now < deadline.instant ∧
      deadline.isCancelled cache.clock = false := by
  have still := settled.flights number
  cases phase : flight.phase with
  | queued => simp [turnFlight?, present, phase] at still
  | working deadline =>
    simp only [turnFlight?, present, phase, Option.map_eq_none_iff, Deadline.verdict_eq_none_iff] at still
    exact ⟨deadline, rfl, still.2.1, still.1⟩
  | landed result => simp [Flight.isRunning, phase] at running
  | lost => simp [Flight.isRunning, phase] at running

/-- How long callers wait and computations run. -/
structure Timely (rule : Rule V) (cache : Cache V) : Prop where
  /-- Who still waits has time and did not give up. -/
  callers : ∀ (number : Nat) (call : Call V) (flight : Nat), cache.calls[number]? = some call →
    call.flight? = some flight →
    cache.clock.now < call.deadline.instant ∧ call.deadline.isCancelled cache.clock = false
  /-- Who could take a stale value waits no longer than the soft timeout. -/
  holders : ∀ (number : Nat) (call : Call V) (flight : Nat) (soft : Deadline) (fallback : V),
    cache.calls[number]? = some call → call.phase = .stale flight soft fallback →
    cache.clock.now < call.begunAt + call.policy.softTimeout
  /-- A computation that still runs is within the hard timeout of the policy that it was launched with. -/
  computations : ∀ (number : Nat) (flight : Flight V), cache.flights[number]? = some flight →
    flight.isRunning = true → LaunchedIn rule cache flight.key flight.policy number ∧
      cache.clock.isCancelled flight.token = false ∧ ∃ started, flight.startedAt = some started ∧
      (flight.policy.hardTimeout ≠ 0 → cache.clock.now < started + flight.policy.hardTimeout)
  /-- What a computation was given when it began is the hard timeout of its policy, or as good as no bound. -/
  given : ∀ (number : Nat) (flight : Flight V), cache.flights[number]? = some flight → flight.phase ≠ .queued →
    ∃ started, Timed rule cache number flight started
  /-- Callers' deadlines make no difference to flights. -/
  independent : ∀ key policy deadline other,
    (cache.begin key policy deadline).2.flights = (cache.begin key policy other).2.flights

/-- In no settled state that can be reached does anybody overstay, whatever computations do. -/
theorem timely_of_settled (reachable : Reachable rule cache) (settled : cache.Settled) : Timely rule cache := by
  constructor
  · exact fun number call flight present waits => settled.inTime (reachable.patient present) present waits
  · exact fun number call flight soft fallback present phase => settled.soft (reachable.patient present) present phase
  · intro number flight present running
    obtain ⟨deadline, working, inTime, uncancelled⟩ := settled.working present running
    obtain ⟨started, timed⟩ := reachable.timed present (by rw [working]; nofun)
    obtain rfl := timed.deadline deadline working
    refine ⟨reachable.launchedIn present, uncancelled, started, timed.startedAt, fun bounded => ?_⟩
    rw [← flight.limit_of_hardTimeout bounded]
    exact inTime
  · exact fun number flight present begun => reachable.timed present begun
  · exact fun key policy deadline other => begin_flights cache key policy deadline other

/-- A computation of at most two seconds and a caller who waits for it, a second after it began. -/
def biding : List (Event Nat) :=
  [.scope none, .begin "Oslo" { lenient with hardTimeout := 2000 } ⟨5000, ⟨[0]⟩⟩, .pass 100, .flight 0 none, .pass 1100]

theorem timely_biding :
    ∃ cache flight call, biding.foldlM step? (empty 1) = some cache ∧ Reachable Lawful cache ∧ cache.Settled ∧
      cache.flights[0]? = some flight ∧ flight.isRunning = true ∧ flight.startedAt = some 100 ∧
      cache.calls[0]? = some call ∧ call.flight? = some 0 ∧ Timely Lawful cache := by
  obtain ⟨cache, flight, call, steps, settled, present, running, started, waiting, waits⟩ : ∃ cache flight call,
      biding.foldlM step? (empty 1) = some cache ∧ cache.Settled ∧ cache.flights[0]? = some flight ∧
        flight.isRunning = true ∧ flight.startedAt = some 100 ∧ cache.calls[0]? = some call ∧
        call.flight? = some 0 :=
    ⟨_, _, _, rfl, by decide, rfl, rfl, rfl, rfl, rfl⟩
  have run : Run Lawful (empty 1) cache := .of_events (by simp [biding, Lawful]) steps
  exact ⟨cache, flight, call, steps, ⟨1, run⟩, settled, present, running, started, waiting, waits,
    timely_of_settled ⟨1, run⟩ settled⟩

end Cache

end HedgedForecast
