import HedgedForecast.Proofs.Cache.Failures
import HedgedForecast.Proofs.Cache.Launches
import HedgedForecast.Proofs.Cache.Timeliness
import HedgedForecast.Proofs.Hedge.Blame

/-! # Whom flights blame

A cache makes scopes, and of those that others made it cancels none: all that it cancels are the scopes of its
flights. So those who work for a flight in scopes of their own go on until the flight itself is stopped. When it
is, because its time was up, then everyone who waits for it without a stale value is told so, whatever the
computation would have said of that instant, unless the caller gives up before.
-/

namespace HedgedForecast

namespace Cache

variable {V : Type} {cache next source : Cache V}

/-- Time does not move on. -/
def Event.Stands : Event V → Prop
  | .pass _ => False
  | _ => True

/-- Nobody else cancels a scope. -/
def Event.Discreet : Event V → Prop
  | .cancel _ => False
  | _ => True

theorem Event.Stands.now {event : Event V} (stands : event.Stands) (step : cache.step? event = some next) :
    next.clock.now = cache.clock.now := by
  refine step_now step fun instant same => ?_
  rw [same] at stands
  exact stands

/-- Since the source, new flights were launched in new scopes, and no scopes but those of flights were cancelled. -/
structure Spares (source cache : Cache V) : Prop where
  follows : cache.clock.Follows source.clock
  tokens : ∀ flight ∈ cache.flights, (∃ old ∈ source.flights, flight.token = old.token) ∨
    ∃ scope, source.clock.scopes.issued ≤ scope ∧ flight.token = ⟨[scope]⟩
  cancelled : ∀ scope ∈ cache.clock.scopes.cancelled, scope ∈ source.clock.scopes.cancelled ∨
    ∃ flight ∈ cache.flights, flight.token.lineage.head? = some scope

namespace Spares

theorem refl (cache : Cache V) : Spares cache cache :=
  ⟨.refl _, fun flight member => .inl ⟨flight, member, rfl⟩, fun _ => .inl⟩

/-- Flights keep their scopes, and nothing is cancelled. -/
theorem keep (spares : Spares source cache) (follows : next.clock.Follows cache.clock)
    (cancelled : next.clock.scopes.cancelled = cache.clock.scopes.cancelled)
    (kept : ∀ flight ∈ cache.flights, ∃ later ∈ next.flights, later.token = flight.token)
    (known : ∀ later ∈ next.flights, ∃ flight ∈ cache.flights, later.token = flight.token) : Spares source next := by
  refine ⟨follows.trans spares.follows, fun later member => ?_, fun scope gone => ?_⟩
  · obtain ⟨flight, own, same⟩ := known later member
    rw [same]
    exact spares.tokens flight own
  · rw [cancelled] at gone
    refine (spares.cancelled scope gone).imp_right ?_
    rintro ⟨flight, own, head⟩
    obtain ⟨later, member, same⟩ := kept flight own
    exact ⟨later, member, same ▸ head⟩

theorem of_frame (spares : Spares source cache) (follows : next.clock.Follows cache.clock)
    (cancelled : next.clock.scopes.cancelled = cache.clock.scopes.cancelled) (flights : next.flights = cache.flights) :
    Spares source next :=
  spares.keep follows cancelled (fun flight member => ⟨flight, flights ▸ member, rfl⟩) fun later member =>
    ⟨later, flights ▸ member, rfl⟩

theorem modifyFlight (spares : Spares source cache) (number : Nat) {change : Flight V → Flight V}
    (same : ∀ flight, (change flight).token = flight.token) : Spares source (cache.modifyFlight number change) := by
  refine spares.keep (.refl _) rfl (fun flight member => ?_) fun later member => ?_
  · obtain ⟨place, there⟩ := Array.mem_iff_getElem?.mp member
    by_cases here : number = place
    · subst here
      exact ⟨change flight, Array.mem_of_getElem? (getElem?_modify_self change there), same flight⟩
    · exact ⟨flight, Array.mem_of_getElem? ((getElem?_modify_of_ne _ change here).trans there), rfl⟩
  · obtain ⟨flight, own, rfl | ⟨_, rfl⟩⟩ := mem_modify member
    · exact ⟨later, own, rfl⟩
    · exact ⟨flight, own, same flight⟩

/-- To leave a flight its scope is cancelled, if any. -/
theorem leave (spares : Spares source cache) (number : Nat) : Spares source (cache.leave number) := by
  have counted : Spares source (cache.modifyFlight number fun flight =>
      { flight with waiters := flight.waiters - 1 }) := spares.modifyFlight number fun _ => rfl
  cases present : cache.flights[number]? with
  | none =>
    simp only [Cache.leave, present]
    exact spares
  | some flight =>
    simp only [Cache.leave, present]
    split
    · refine ⟨(Clock.follows_cancel ..).trans counted.follows, counted.tokens, fun scope gone => ?_⟩
      rcases Clock.mem_cancelled_cancel.mp gone with own | old
      · exact .inr ⟨_, Array.mem_of_getElem? (getElem?_modify_self _ present), own⟩
      · exact counted.cancelled scope old
    · exact counted

theorem launch (spares : Spares source cache) (key : String) (slot : Nat) (policy : Policy) (trigger : Trigger)
    (waiters : Nat) : Spares source (cache.launch key slot policy trigger waiters).2 := by
  have issued := spares.follows.issued
  refine ⟨⟨spares.follows.now, Nat.le_succ_of_le issued, spares.follows.cancelled⟩, fun flight member => ?_,
    fun scope gone => (spares.cancelled scope gone).imp_right ?_⟩
  · rcases Array.mem_push.mp member with old | rfl
    · exact spares.tokens flight old
    · exact .inr ⟨_, issued, rfl⟩
  · rintro ⟨flight, own, head⟩
    exact ⟨flight, Array.mem_push_of_mem _ own, head⟩

theorem move {before after : Stage V} (spares : Spares source before.1) (move : Move before after) :
    Spares source after.1 := by
  cases move with
  | clock parent => exact spares.of_frame (Clock.follows_childToken _ parent) rfl rfl
  | launch policy waiters => exact spares.launch ..
  | join => exact spares.modifyFlight _ fun _ => rfl
  | detach => exact spares.modifyFlight _ fun _ => rfl
  | leave flight => exact spares.leave flight
  | _ => exact spares.of_frame (.refl _) rfl rfl

theorem moves {target : Cache V} (moves : Moves V (cache, []) (target, [])) : Spares cache target :=
  @Moves.invariant V (fun stage => Spares cache stage.1) _ _ moves (fun _ _ => move) (refl cache)

/-- The scopes of others are cancelled by others only. -/
theorem step {event : Event V} (discreet : event.Discreet) (step : cache.step? event = some next) :
    Spares cache next := by
  have spares := refl cache
  cases event with
  | begin key policy deadline => cases step; exact moves (begin_moves cache key policy deadline)
  | flight number work =>
    obtain ⟨flight, _, ⟨_, rfl⟩ | ⟨deadline, ending, _, _, rfl⟩⟩ := turnFlight?_eq_some_iff.mp step
    · exact spares.modifyFlight number fun _ => rfl
    · obtain ⟨clock, _, outcome, flights⟩ := endFlight_frame cache number flight ending
      have ended : Spares cache (cache.modifyFlight number fun flight' => { flight' with
          phase := flight.endPhase ending, outcome := some outcome, endedAt := some cache.clock.now }) :=
        spares.modifyFlight number fun _ => rfl
      exact ended.of_frame (by rw [clock]; exact .refl _) (by rw [clock]; rfl) flights
  | call number => exact moves (turnCall?_moves step)
  | drop number => cases step; exact moves (dropCall_moves cache number)
  | purge => cases step; exact spares.of_frame (.refl _) rfl rfl
  | remove key => cases step; exact spares.of_frame (.refl _) rfl rfl
  | pass instant => cases step; exact spares.of_frame ⟨Nat.le_max_left .., Nat.le_refl _, fun _ => id⟩ rfl rfl
  | scope parent =>
    cases parent <;> cases step <;> exact spares.of_frame ⟨Nat.le_refl _, Nat.le_succ _, fun _ => id⟩ rfl rfl
  | cancel token => exact discreet.elim

end Spares

/-- Where a call without a stale value may stand after its flight ended in time: it is about to be told, its
caller went away, it was told the failure, or its caller gave up before. -/
inductive Learns (ended later : Cache V) (number : Nat) (call : Call V) (failure : Failure) : Prop
  | next (waiting : later.calls[number]? = some call) (sameTime : later.clock.now = ended.clock.now)
      (ready : later.turnCall? number ≠ none)
  | dropped (present : later.calls[number]? = some { call with phase := .dropped })
  | told (present : later.calls[number]? = some { call with phase := .returned (.error failure) ended.clock.now })
  | gaveUp (own : call.deadline.isCancelled later.clock = true)
      (present : later.calls[number]? = some { call with phase := .returned (.error .cancelled) ended.clock.now })

theorem Learns.step {ended before after : Cache V} {event : Event V} {number flight : Nat} {call : Call V}
    {failure : Failure} (learns : Learns ended before number call (callerFailure failure))
    (phase : call.phase = .cold flight)
    (told : before.resultOf flight = some (.error failure)) (inTime : ended.clock.now < call.deadline.instant)
    (prompt : Prompt before event) (step : before.step? event = some after) :
    Learns ended after number call (callerFailure failure) := by
  have extended := Extends.step step
  have waits : call.flight? = some flight := by simp [Call.flight?, phase]
  cases learns with
  | next waiting sameTime ready =>
    have held : call.flight? ≠ none := by simp [waits]
    rcases step_ready step prompt waiting ready held with ⟨answer, answered, present⟩ | present | ⟨still, now⟩
    · rw [sameTime] at present
      simp only [answer?, phase] at answered
      obtain ⟨ending, verdict, rfl⟩ := Option.map_eq_some_iff.mp answered
      rcases Deadline.verdict_cases verdict with ⟨own, rfl⟩ | ⟨_, late, _⟩ | ⟨_, _, result, own, rfl⟩
      · exact .gaveUp (extended.cancelled _ own) present
      · rw [sameTime] at late
        exact absurd late (Nat.not_le.mpr inTime)
      · obtain rfl := Option.some.inj (told.symm.trans own)
        exact .told present
    · exact .dropped present
    · refine .next still (now.trans sameTime) ?_
      rw [Ne, turnCall?_eq_none_iff still]
      exact answer?_ne_none waits (extended.resultOf told)
  | dropped present => exact .dropped (step_unwaiting step present rfl)
  | told present => exact .told (step_unwaiting step present rfl)
  | gaveUp own present => exact .gaveUp (extended.cancelled _ own) (step_unwaiting step present rfl)

/-- Whoever waits for a flight that failed in time is told so before time goes on. -/
theorem Learns.run {cache later : Cache V} {number flight : Nat} {call : Call V} {failure : Failure}
    (present : cache.calls[number]? = some call) (phase : call.phase = .cold flight)
    (told : cache.resultOf flight = some (.error failure)) (inTime : cache.clock.now < call.deadline.instant)
    (run : Run Prompt cache later) : Learns cache later number call (callerFailure failure) := by
  induction run with
  | nil =>
    refine .next present rfl ?_
    rw [Ne, turnCall?_eq_none_iff present]
    exact answer?_ne_none (by simp [Call.flight?, phase]) told
  | snoc before prompt step ih => exact ih.step phase ((Extends.run before).resultOf told) inTime prompt step

/-- A computation whose time is up is stopped, whatever it has to say. -/
theorem turnFlight?_of_expired {number : Nat} {flight : Flight V} {deadline : Deadline}
    (present : cache.flights[number]? = some flight) (working : flight.phase = .working deadline)
    (uncancelled : deadline.isCancelled cache.clock = false) (past : deadline.instant ≤ cache.clock.now)
    (work : Option (WorkEnd V)) :
    ∃ next, cache.turnFlight? number work = some next ∧ next.clock = cache.clock ∧ next.calls = cache.calls ∧
      next.resultOf number = some (.error (.timeout .factory)) := by
  have verdict : deadline.verdict cache.clock work = some .expired := by
    have expired : deadline.isExpired cache.clock = true := decide_eq_true past
    simp [Deadline.verdict, uncancelled, expired]
  obtain ⟨clock, calls, outcome, flights⟩ := endFlight_frame cache number flight .expired
  have ended := getElem?_modify_self (fun flight' : Flight V => { flight' with
    phase := flight.endPhase .expired, outcome := some outcome, endedAt := some cache.clock.now }) present
  rw [← flights] at ended
  refine ⟨_, turnFlight?_eq_some_iff.mpr ⟨flight, present, .inr ⟨deadline, .expired, working, verdict, rfl⟩⟩, clock,
    calls, ?_⟩
  simp only [resultOf, ended, Flight.endPhase]

/-- In a prompt run no computation that still runs is past its time. -/
theorem Reachable.now_le_of_working (reachable : Reachable Prompt cache) {number : Nat} {flight : Flight V}
    {deadline : Deadline} (present : cache.flights[number]? = some flight)
    (working : flight.phase = .working deadline) : cache.clock.now ≤ deadline.instant := by
  obtain ⟨maxEntries, run⟩ := reachable
  induction run generalizing flight with
  | nil => simp [empty] at present
  | @snoc middle target event run prompt step ih =>
    cases there : middle.flights[number]? with
    | none =>
      obtain ⟨_, _, _, _, launched⟩ := step_launched step there present
      rw [launched.phase] at working
      contradiction
    | some earlier =>
      obtain ⟨later, here, kept | ⟨work, rfl, turned⟩⟩ := step_flights step there
      · obtain rfl := Option.some.inj (present.symm.trans here)
        have before : earlier.phase = .working deadline := by
          rw [kept.same] at working
          exact working
        by_cases passing : ∃ instant, event = .pass instant
        · obtain ⟨instant, rfl⟩ := passing
          cases step
          exact Nat.max_le.mpr ⟨ih there before,
            prompt.2 _ (mem_timers.mpr (.inl ⟨number, earlier, deadline, there, before, rfl⟩))⟩
        · rw [step_now step fun instant same => passing ⟨instant, same⟩]
          exact ih there before
      · obtain rfl := Option.some.inj (present.symm.trans here)
        have stands : Event.Stands (.flight number work : Event V) := trivial
        rw [stands.now step]
        cases turned with
        | started queued =>
          obtain ⟨_, begins⟩ := turnFlight?_queued step there queued
          cases Option.some.inj (here.symm.trans begins)
          rw [← FlightPhase.working.inj working]
          exact Nat.le_add_right ..
        | @ended _ ending =>
          rcases earlier.endPhase_cases ending with lost | ⟨result, landed⟩
          · rw [lost] at working
            contradiction
          · rw [landed] at working
            contradiction

/-- In a prompt run nobody waits past their own deadline, unless it was over from the beginning. -/
theorem Reachable.now_le_of_waiting (reachable : Reachable Prompt cache) {number flight : Nat} {call : Call V}
    (present : cache.calls[number]? = some call) (waits : call.flight? = some flight) :
    cache.clock.now ≤ max call.deadline.instant call.begunAt := by
  obtain ⟨maxEntries, run⟩ := reachable
  induction run generalizing call with
  | nil => simp [empty] at present
  | @snoc middle target event run prompt step ih =>
    by_cases passing : ∃ instant, event = .pass instant
    · obtain ⟨instant, rfl⟩ := passing
      cases step
      have patient : call.Patient := Reachable.patient ⟨maxEntries, run⟩ present
      refine Nat.max_le.mpr ⟨ih present waits, Nat.le_trans ?_ (Nat.le_max_left ..)⟩
      cases phase : call.phase with
      | cold other => exact prompt.2 _ (mem_timers.mpr (.inr ⟨number, call, present, .inl ⟨other, phase, rfl⟩⟩))
      | stale other soft fallback =>
        have timer := prompt.2 _ (mem_timers.mpr (.inr ⟨number, call, present, .inr ⟨other, soft, fallback, phase, rfl⟩⟩))
        have tightened := patient.instant other soft fallback phase
        omega
      | returned | dropped => simp [Call.flight?, phase] at waits
    · rw [step_now step fun instant same => passing ⟨instant, same⟩]
      cases step_cameFrom step present with
      | same before => exact ih before waits
      | answered _ _ same | dropped _ same => simp [Call.flight?, same] at waits
      | begun _ _ same =>
        rw [same]
        exact Nat.le_max_right ..

end Cache

end HedgedForecast
