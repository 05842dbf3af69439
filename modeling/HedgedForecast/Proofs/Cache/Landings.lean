import HedgedForecast.Proofs.Cache.Moves

/-! # The turns of a flight

A flight begins its computation and later ends it. It ends landed, out of its slot and with a result
for everyone, or lost, still in its slot and with nothing. Which of the two is settled by how the
guarded computation ended and by the policy.
-/

namespace HedgedForecast

variable {V : Type}

/-- How guarded work is told to have ended. -/
def GuardEnd.outcome : GuardEnd (WorkEnd V) → WorkOutcome
  | .cancelled => .abandoned
  | .expired => .abandoned
  | .done work => work.outcome

/-- Work that was stopped or failed by itself has no result and did not panic. -/
def WorkOutcome.isFailure : WorkOutcome → Bool
  | .err => true
  | .abandoned => true
  | _ => false

namespace Flight

/-- The computation is still to begin or to end. -/
def isRunning (flight : Flight V) : Bool :=
  match flight.phase with
  | .queued => true
  | .working _ => true
  | _ => false

def hasLanded (flight : Flight V) : Bool :=
  match flight.phase with
  | .landed _ => true
  | _ => false

/-- The flight after its computation ended in some way. -/
def endPhase (flight : Flight V) : GuardEnd (WorkEnd V) → FlightPhase V
  | .cancelled => .landed (.error .cancelled)
  | .expired => .landed (.error (.timeout .factory))
  | .done (.value value) =>
    if flight.policy.storesEntries && flight.policy.eagerPoint == .undefined then .lost
    else .landed (.ok value)
  | .done (.failure failure) => .landed (.error failure)
  | .done (.panicked _) => .lost

/-- A flight that has ended has landed or is lost. -/
theorem endPhase_cases (flight : Flight V) (ending : GuardEnd (WorkEnd V)) :
    flight.endPhase ending = .lost ∨ ∃ result, flight.endPhase ending = .landed result := by
  cases ending with
  | cancelled => exact .inr ⟨_, rfl⟩
  | expired => exact .inr ⟨_, rfl⟩
  | done work =>
    cases work with
    | value value =>
      simp only [endPhase]
      split
      · exact .inl rfl
      · exact .inr ⟨_, rfl⟩
    | failure failure => exact .inr ⟨_, rfl⟩
    | panicked => exact .inl rfl

/-- A flight that has landed with a failure was cancelled, ran out of its time or failed by itself. -/
theorem endPhase_error {flight : Flight V} {ending : GuardEnd (WorkEnd V)} {failure : Failure}
    (landed : flight.endPhase ending = .landed (.error failure)) :
    ending = .cancelled ∧ failure = .cancelled ∨ ending = .expired ∧ failure = .timeout .factory ∨
      ending = .done (.failure failure) := by
  cases ending with
  | cancelled => cases landed; exact .inl ⟨rfl, rfl⟩
  | expired => cases landed; exact .inr (.inl ⟨rfl, rfl⟩)
  | done work =>
    cases work with
    | value value =>
      simp only [endPhase] at landed
      split at landed <;> cases landed
    | failure reason => cases landed; exact .inr (.inr rfl)
    | panicked => contradiction

/-- A flight that has landed with a value computed it. -/
theorem endPhase_ok {flight : Flight V} {ending : GuardEnd (WorkEnd V)} {value : V}
    (landed : flight.endPhase ending = .landed (.ok value)) : ending = .done (.value value) := by
  cases ending with
  | cancelled => cases landed
  | expired => cases landed
  | done work =>
    cases work with
    | value computed =>
      simp only [endPhase] at landed
      split at landed <;> cases landed
      rfl
    | failure reason => cases landed
    | panicked => contradiction

end Flight

namespace Cache

theorem turnFlight?_eq_some_iff {cache next : Cache V} {number : Nat} {work : Option (WorkEnd V)} :
    cache.turnFlight? number work = some next ↔
      ∃ flight, cache.flights[number]? = some flight ∧
        ((flight.phase = .queued ∧ cache.startFlight number = next) ∨
          ∃ deadline ending, flight.phase = .working deadline ∧
            deadline.verdict cache.clock work = some ending ∧
            cache.endFlight number flight ending = next) := by
  unfold turnFlight?
  cases cache.flights[number]? with
  | none => simp
  | some flight => cases phase : flight.phase <;> simp [phase]

theorem startFlight_flights (cache : Cache V) (number : Nat) :
    (cache.startFlight number).flights = cache.flights.modify number fun flight =>
      { flight with
        phase := .working ⟨cache.clock.now + flight.policy.hardLimit.getD Deadline.unboundedTime, flight.token⟩
        startedAt := some cache.clock.now } := rfl

/-- How a flight ends: it lands with a failure, it is lost, or it lands with the value that it has computed, which it
stores before if its policy stores values. -/
inductive Landing (cache : Cache V) (number : Nat) (flight : Flight V) : GuardEnd (WorkEnd V) → Cache V → Prop
  | failed {ending : GuardEnd (WorkEnd V)} {failure : Failure}
      (phase : flight.endPhase ending = .landed (.error failure)) (fails : ending.outcome.isFailure = true) :
      Landing cache number flight ending (cache.land number flight failure ending.outcome)
  | lost {ending : GuardEnd (WorkEnd V)} (phase : flight.endPhase ending = .lost)
      (fine : ending.outcome.isFailure = false) :
      Landing cache number flight ending (cache.close number .lost ending.outcome)
  | passed {value : V} (phase : flight.endPhase (.done (.value value)) = .landed (.ok value))
      (passes : flight.policy.storesEntries = false) :
      Landing cache number flight (.done (.value value))
        ((cache.uninstall number flight).close number (.landed (.ok value)) .ok)
  | stored {value : V} (phase : flight.endPhase (.done (.value value)) = .landed (.ok value))
      (stores : flight.policy.storesEntries = true) (named : flight.policy.eagerPoint ≠ .undefined) :
      Landing cache number flight (.done (.value value))
        (((cache.store number flight value).uninstall number flight).close number (.landed (.ok value)) .ok)

theorem endFlight_landing {cache next : Cache V} {number : Nat} {flight : Flight V} {ending : GuardEnd (WorkEnd V)}
    (ended : cache.endFlight number flight ending = next) : Landing cache number flight ending next := by
  subst ended
  cases ending with
  | cancelled => exact .failed rfl rfl
  | expired => exact .failed rfl rfl
  | done work =>
    cases work with
    | failure failure => exact .failed rfl rfl
    | panicked => exact .lost rfl rfl
    | value value =>
      have phase : flight.endPhase (.done (.value value)) =
        if flight.policy.storesEntries && flight.policy.eagerPoint == .undefined then .lost else .landed (.ok value) := rfl
      simp only [endFlight, landValue]
      split
      · next vain => exact .lost (phase.trans (if_pos vain)) rfl
      · next lands =>
        have phase := phase.trans (if_neg lands)
        split
        · next stores => exact .stored phase stores (by simpa [stores] using lands)
        · next passes => exact .passed phase (by simpa using passes)

/-- A flight that lands stores its value at most, and then leaves its slot. -/
theorem endFlight_cases (cache : Cache V) (number : Nat) (flight : Flight V)
    (ending : GuardEnd (WorkEnd V)) :
    (flight.endPhase ending = .lost ∧
        ∃ outcome, cache.endFlight number flight ending = cache.close number .lost outcome) ∨
      ∃ result middle outcome, flight.endPhase ending = .landed result ∧
        Moves V (cache, []) (middle, []) ∧ middle.flights = cache.flights ∧ middle.calls = cache.calls ∧
        middle.clock = cache.clock ∧
        cache.endFlight number flight ending =
          (middle.uninstall number flight).close number (.landed result) outcome := by
  generalize ended : cache.endFlight number flight ending = next
  cases endFlight_landing ended with
  | failed phase => exact .inr ⟨_, _, _, phase, .single (.count _), rfl, rfl, rfl, rfl⟩
  | lost phase => exact .inl ⟨phase, _, rfl⟩
  | passed phase => exact .inr ⟨_, cache, _, phase, .refl, rfl, rfl, rfl, rfl⟩
  | @stored value phase =>
    have stored : Moves V (cache, []) (cache.store number flight value, []) :=
      .single (.amend flight.slot fun _ => ⟨rfl, rfl⟩)
    exact .inr ⟨_, _, _, phase, stored, rfl, rfl, rfl, rfl⟩

/-- An ending touches no call and no scope, and of the flights only the one that ends. -/
theorem endFlight_frame (cache : Cache V) (number : Nat) (flight : Flight V)
    (ending : GuardEnd (WorkEnd V)) :
    (cache.endFlight number flight ending).clock = cache.clock ∧
      (cache.endFlight number flight ending).calls = cache.calls ∧
      ∃ outcome, (cache.endFlight number flight ending).flights = cache.flights.modify number fun flight' =>
        { flight' with
          phase := flight.endPhase ending, outcome := some outcome, endedAt := some cache.clock.now } := by
  rcases endFlight_cases cache number flight ending with
    ⟨phase, outcome, same⟩ | ⟨result, middle, outcome, phase, _, flights, calls, clock, same⟩
  · rw [same, phase]
    exact ⟨rfl, rfl, outcome, rfl⟩
  · rw [same, phase, ← flights, ← calls, ← clock]
    exact ⟨rfl, rfl, outcome, rfl⟩

/-- Nor does it touch keys. -/
theorem endFlight_keys (cache : Cache V) (number : Nat) (flight : Flight V) (ending : GuardEnd (WorkEnd V)) :
    (cache.endFlight number flight ending).keys = cache.keys := by
  generalize ended : cache.endFlight number flight ending = next
  cases endFlight_landing ended <;> rfl

theorem endFlight_tick (cache : Cache V) (number : Nat) (flight : Flight V) (ending : GuardEnd (WorkEnd V)) :
    (cache.endFlight number flight ending).tick = cache.tick := by
  generalize ended : cache.endFlight number flight ending = next
  cases endFlight_landing ended <;> rfl

end Cache

end HedgedForecast
