import HedgedForecast.Proofs.Cache.EagerPoints
import HedgedForecast.Proofs.Cache.Failures
import HedgedForecast.Proofs.Cache.Retention
import HedgedForecast.Proofs.Cache.SlotUse

/-! # Commits

A flight that has computed a value lands with it: the value becomes the entry of the slot, if the policy stores any,
the flight leaves the slot, and everybody who still waits for the flight is told the value. A threshold below zero,
above one or infinite does no harm, since such a policy names no eager point. But one that is not a number passes for
one between the bounds, and then the value is lost with the flight.
-/

namespace HedgedForecast

variable {V : Type}

/-- The policy keeps values fresh for some time, but its threshold is not a number. -/
def Policy.IsUnordered (policy : Policy) : Prop :=
  policy.ttl ≠ 0 ∧ policy.eagerThreshold.isNaN = true

theorem Policy.storesEntries_of_isUnordered {policy : Policy} (unordered : policy.IsUnordered) :
    policy.storesEntries = true := by
  simp [storesEntries, unordered.1]

namespace Cache

/-- All who wait for a flight that has ended are told what it says, as long as they have time. -/
def TellsAll (ended : Cache V) (number : Nat) (result : Except Failure V) : Prop :=
  ∀ (waiter : Nat) (call : Call V) (later : Cache V), ended.calls[waiter]? = some call → call.flight? = some number →
    ended.clock.now < (waitDeadline call).instant → Run Prompt ended later → Told ended later waiter call result

/-- A flight has ended with a value, which is stored if the policy stores values, and told as it is. -/
structure Committed (cache next : Cache V) (number : Nat) (flight : Flight V) (value : V) : Prop where
  landed : next.resultOf number = some (.ok value)
  vacated : ∃ found, next.slots[flight.slot]? = some found ∧ found.flight = none
  entry : next.entryOf flight.slot =
    if flight.policy.storesEntries then
      some { value, storedAt := cache.clock.now, policy := flight.policy, flight := number }
    else cache.entryOf flight.slot
  told : next.TellsAll number (.ok value)
  asItIs : ∀ call : Call V, outcome call (.ok value) = .ok value

/-- A flight has ended with nothing and holds on to its slot. -/
structure Wasted (cache next : Cache V) (number : Nat) (flight : Flight V) : Prop where
  lost : next.resultOf number = some (.error lostFailure)
  stuck : ∃ found, next.slots[flight.slot]? = some found ∧ found.flight = some number
  entry : next.entryOf flight.slot = cache.entryOf flight.slot
  told : next.TellsAll number (.error lostFailure)

@[simp] theorem outcome_ok (call : Call V) (value : V) : outcome call (.ok value) = .ok value := by
  unfold outcome
  split <;> rfl

variable {cache next : Cache V} {number : Nat} {flight : Flight V} {deadline : Deadline} {value : V}

theorem endFlight_phase (present : cache.flights[number]? = some flight) (ending : GuardEnd (WorkEnd V)) :
    ∃ ended, (cache.endFlight number flight ending).flights[number]? = some ended ∧
      ended.phase = flight.endPhase ending := by
  obtain ⟨_, _, outcome, flights⟩ := endFlight_frame cache number flight ending
  rw [flights]
  exact ⟨_, getElem?_modify_self _ present, rfl⟩

theorem tellsAll_of_resultOf {result : Except Failure V} (told : next.resultOf number = some result) :
    next.TellsAll number result :=
  fun _ _ _ present waits inTime run => Told.run present waits told inTime run

/-- A policy that does not store in vain lets its flights land, store and leave. -/
theorem endFlight_value_eq (named : flight.policy.eagerPoint ≠ .undefined) (number : Nat) (value : V) :
    cache.endFlight number flight (.done (.value value)) =
      ((if flight.policy.storesEntries then cache.store number flight value else cache).uninstall number flight).close
        number (.landed (.ok value)) .ok := by
  have point : (flight.policy.eagerPoint == .undefined) = false := beq_eq_false_iff_ne.mpr named
  simp only [endFlight, landValue, point, Bool.and_false, Bool.false_eq_true, if_false]

theorem endFlight_value_lost (unordered : flight.policy.IsUnordered) (number : Nat) (value : V) :
    cache.endFlight number flight (.done (.value value)) = cache.close number .lost .ok := by
  simp only [endFlight, landValue, Policy.storesEntries_of_isUnordered unordered,
    Policy.eagerPoint_of_isNaN unordered.1 unordered.2, beq_self_eq_true, Bool.and_self, if_true]

variable {rule : Rule V}

section

variable (reachable : Reachable rule cache) (present : cache.flights[number]? = some flight)
  (working : flight.phase = .working deadline)
  (computed : deadline.verdict cache.clock (some (WorkEnd.value value)) = some (.done (.value value)))

include reachable present working computed

theorem Reachable.committed (named : flight.policy.eagerPoint ≠ .undefined) :
    Committed cache (cache.endFlight number flight (.done (.value value))) number flight value := by
  obtain ⟨_, live⟩ := reachable.live_of_done present working computed
  obtain ⟨found, there, installed⟩ := reachable.placed.live number flight live
  have landed : (cache.endFlight number flight (.done (.value value))).resultOf number = some (.ok value) := by
    obtain ⟨ended, there, phase⟩ := endFlight_phase present (.done (.value value))
    simp [resultOf, there, phase, Flight.endPhase, named]
  refine ⟨landed, ?_, ?_, tellsAll_of_resultOf landed, fun call => outcome_ok call value⟩
  · rw [endFlight_value_eq named]
    have left (middle : Cache V) {held : Slot V} (there : middle.slots[flight.slot]? = some held)
        (installed : held.flight = some number) :
        ∃ found, ((middle.uninstall number flight).close number (.landed (.ok value)) .ok).slots[flight.slot]? =
          some found ∧ found.flight = none :=
      ⟨_, uninstall_slot there number, by rw [Slot.without_self installed]⟩
    split
    · exact left _ (store_slot there value number) installed
    · exact left _ there installed
  · rw [endFlight_entryOf cache number _ there]
    cases stores : flight.policy.storesEntries <;> simp [Flight.stores, stores, named]

theorem Reachable.wasted (unordered : flight.policy.IsUnordered) :
    Wasted cache (cache.endFlight number flight (.done (.value value))) number flight := by
  obtain ⟨_, live⟩ := reachable.live_of_done present working computed
  obtain ⟨found, there, installed⟩ := reachable.placed.live number flight live
  have lost : (cache.endFlight number flight (.done (.value value))).resultOf number = some (.error lostFailure) := by
    obtain ⟨ended, there, phase⟩ := endFlight_phase present (.done (.value value))
    simp [resultOf, there, phase, Flight.endPhase, Policy.storesEntries_of_isUnordered unordered,
      Policy.eagerPoint_of_isNaN unordered.1 unordered.2]
  refine ⟨lost, ?_, ?_, tellsAll_of_resultOf lost⟩
  · rw [endFlight_value_lost unordered]
    exact ⟨found, there, installed⟩
  · rw [endFlight_value_lost unordered]
    rfl

/-- A value that a flight has computed is committed, whatever its threshold, unless the threshold is not a number and
values are fresh for some time: then it is wasted. The entry has an eager point only for a threshold between the
bounds. -/
theorem committed_iff_not_isUnordered (timed : flight.policy.IsTimed cache.clock.now) :
    ∃ next, cache.step? (.flight number (some (.value value))) = some next ∧
      (Committed cache next number flight value ↔ ¬flight.policy.IsUnordered) ∧
      (flight.policy.IsUnordered → Wasted cache next number flight) ∧
      ((∃ nanoseconds, flight.policy.eagerPoint = .after nanoseconds) ↔
        flight.policy.ttl ≠ 0 ∧ 0.0 < flight.policy.eagerThreshold ∧ flight.policy.eagerThreshold < 1.0) := by
  have wasted := reachable.wasted present working computed
  refine ⟨cache.endFlight number flight (.done (.value value)),
    turnFlight?_eq_some_iff.mpr ⟨flight, present, .inr ⟨deadline, _, working, computed, rfl⟩⟩,
    ⟨fun committed unordered => ?_, fun ordered => ?_⟩, wasted, Policy.exists_eagerPoint_iff timed⟩
  · exact nomatch committed.landed.symm.trans (wasted unordered).lost
  · exact reachable.committed present working computed (mt (Policy.eagerPoint_eq_undefined_iff timed).mp ordered)

end

/-- A policy under which values are fresh for a second. -/
def thresholded (threshold : Float) : Policy :=
  { lenient with ttl := 1000, eagerThreshold := threshold }

/-- A call waits for a computation that has begun. -/
def awaiting (threshold : Float) : List (Event Nat) :=
  [.scope none, .begin "Oslo" (thresholded threshold) ⟨5000, ⟨[0]⟩⟩, .pass 10, .flight 0 none]

theorem isTimed_thresholded (threshold : Float) : (thresholded threshold).IsTimed 10 := by
  show 10 + max 1000 1000 < 2 ^ 63 * 1000
  decide

theorem isUnordered_thresholded : (thresholded (0.0 / 0.0)).IsUnordered :=
  ⟨by decide, by decide +kernel⟩

theorem not_isUnordered_thresholded : ¬(thresholded 0.5).IsUnordered :=
  fun unordered => absurd unordered.2 (by decide +kernel)

/-- Whatever the threshold, the computation can end with a value while its caller waits. -/
theorem exists_awaiting (threshold : Float) :
    ∃ cache flight deadline call, (awaiting threshold).foldlM step? (empty 1) = some cache ∧ Reachable Lawful cache ∧
      cache.flights[0]? = some flight ∧ flight.policy = thresholded threshold ∧ flight.phase = .working deadline ∧
      deadline.verdict cache.clock (some (WorkEnd.value 7)) = some (.done (.value 7)) ∧
      cache.calls[0]? = some call ∧ call.flight? = some 0 ∧ cache.clock.now = 10 ∧
      (waitDeadline call).instant = 5000 := by
  obtain ⟨cache, flight, deadline, call, steps, rest⟩ : ∃ cache flight deadline call,
      (awaiting threshold).foldlM step? (empty 1) = some cache ∧
      cache.flights[0]? = some flight ∧ flight.policy = thresholded threshold ∧ flight.phase = .working deadline ∧
      deadline.verdict cache.clock (some (WorkEnd.value 7)) = some (.done (.value 7)) ∧
      cache.calls[0]? = some call ∧ call.flight? = some 0 ∧ cache.clock.now = 10 ∧
      (waitDeadline call).instant = 5000 :=
    ⟨_, _, _, _, rfl, rfl, rfl, rfl, rfl, rfl, rfl, rfl, rfl⟩
  have run : Run Lawful (empty 1) cache := .of_events (by simp [awaiting, Lawful]) steps
  exact ⟨cache, flight, deadline, call, steps, ⟨1, run⟩, rest⟩

/-- So a threshold can break a commit. -/
theorem not_committed_thresholded :
    ¬∀ (cache next : Cache Nat) (number : Nat) (flight : Flight Nat) (deadline : Deadline) (value : Nat),
      Reachable Lawful cache → cache.flights[number]? = some flight → flight.phase = .working deadline →
      deadline.verdict cache.clock (some (WorkEnd.value value)) = some (.done (.value value)) →
      cache.step? (.flight number (some (.value value))) = some next → Committed cache next number flight value := by
  intro commits
  obtain ⟨cache, flight, deadline, call, _, reachable, present, policy, working, computed, _⟩ :=
    exists_awaiting (0.0 / 0.0)
  have unordered : flight.policy.IsUnordered := policy ▸ isUnordered_thresholded
  have wasted := reachable.wasted present working computed unordered
  have committed := commits cache _ 0 flight deadline 7 reachable present working computed
    (turnFlight?_eq_some_iff.mpr ⟨flight, present, .inr ⟨deadline, _, working, computed, rfl⟩⟩)
  exact nomatch committed.landed.symm.trans wasted.lost

theorem committed_iff_thresholded :
    (∃ cache next flight call, (awaiting 0.5).foldlM step? (empty 1) = some cache ∧
      cache.step? (.flight 0 (some (.value 7))) = some next ∧ next.calls[0]? = some call ∧ call.flight? = some 0 ∧
      next.clock.now < (waitDeadline call).instant ∧ Committed cache next 0 flight 7 ∧
      ∃ nanoseconds, flight.policy.eagerPoint = .after nanoseconds) ∧
    ∃ cache next flight call, (awaiting (0.0 / 0.0)).foldlM step? (empty 1) = some cache ∧
      cache.step? (.flight 0 (some (.value 7))) = some next ∧ next.calls[0]? = some call ∧ call.flight? = some 0 ∧
      next.clock.now < (waitDeadline call).instant ∧ Wasted cache next 0 flight := by
  constructor
  · obtain ⟨cache, flight, deadline, call, steps, reachable, present, policy, working, computed, there, waits, now,
      instant⟩ := exists_awaiting 0.5
    obtain ⟨next, step, committed, _, named⟩ :=
      committed_iff_not_isUnordered reachable present working computed (now ▸ policy ▸ isTimed_thresholded 0.5)
    rw [policy] at committed named
    refine ⟨cache, next, flight, call, steps, step, step_calls step nofun nofun there, waits, ?_,
      committed.mpr not_isUnordered_thresholded,
      policy ▸ named.mpr ⟨by decide, by decide +kernel, by decide +kernel⟩⟩
    rw [step_now step nofun, now, instant]
    decide
  · obtain ⟨cache, flight, deadline, call, steps, reachable, present, policy, working, computed, there, waits, now,
      instant⟩ := exists_awaiting (0.0 / 0.0)
    obtain ⟨next, step, _, wasted, _⟩ :=
      committed_iff_not_isUnordered reachable present working computed (now ▸ policy ▸ isTimed_thresholded _)
    refine ⟨cache, next, flight, call, steps, step, step_calls step nofun nofun there, waits, ?_,
      wasted (policy ▸ isUnordered_thresholded)⟩
    rw [step_now step nofun, now, instant]
    decide

end Cache

end HedgedForecast
