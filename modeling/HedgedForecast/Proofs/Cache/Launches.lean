import HedgedForecast.Proofs.Cache.Changes

/-! # New flights and their scopes

Every flight has a scope of its own, which lies in no other one and was made for it, so that flights can be told
apart by their scopes, whatever scopes are made and cancelled elsewhere.
-/

namespace HedgedForecast.Cache

variable {V : Type}

theorem size_launch (cache : Cache V) (key : String) (slot : Nat) (policy : Policy) (trigger : Trigger)
    (waiters : Nat) : (cache.launch key slot policy trigger waiters).2.flights.size = cache.flights.size + 1 :=
  Array.size_push ..

theorem size_join (cache : Cache V) (number : Nat) : (cache.join number).flights.size = cache.flights.size :=
  Array.size_modify

theorem size_detach (cache : Cache V) (number : Nat) : (cache.detach number).flights.size = cache.flights.size :=
  Array.size_modify

/-- Every flight has a scope of its own. -/
structure Rooted (cache : Cache V) : Prop where
  root : ∀ (number : Nat) (flight : Flight V), cache.flights[number]? = some flight →
    ∃ scope, flight.token = ⟨[scope]⟩ ∧ scope < cache.clock.scopes.issued
  distinct : ∀ (m n : Nat) (flight other : Flight V), cache.flights[m]? = some flight →
    cache.flights[n]? = some other → flight.token = other.token → m = n

namespace Rooted

variable {cache next : Cache V}

/-- The scope of a flight has been issued. -/
theorem known (rooted : Rooted cache) {number : Nat} {flight : Flight V} (present : cache.flights[number]? = some flight) :
    ∀ scope ∈ flight.token.lineage, scope < cache.clock.scopes.issued := by
  obtain ⟨scope, own, known⟩ := rooted.root number flight present
  intro other within
  rw [own] at within
  exact List.mem_singleton.mp within ▸ known

/-- Flights that stay keep their scopes, and scopes are never forgotten. -/
theorem keep (rooted : Rooted cache) (issued : cache.clock.scopes.issued ≤ next.clock.scopes.issued)
    (flights : ∀ (number : Nat) (later : Flight V), next.flights[number]? = some later →
      ∃ flight, cache.flights[number]? = some flight ∧ later.token = flight.token) : Rooted next := by
  constructor
  · intro number later present
    obtain ⟨flight, there, same⟩ := flights number later present
    obtain ⟨scope, own, known⟩ := rooted.root number flight there
    exact ⟨scope, same.trans own, Nat.lt_of_lt_of_le known issued⟩
  · intro m n later other' present present' same
    obtain ⟨flight, there, token⟩ := flights m later present
    obtain ⟨other, there', token'⟩ := flights n other' present'
    rw [token, token'] at same
    exact rooted.distinct m n flight other there there' same

theorem of_frame (rooted : Rooted cache) (issued : cache.clock.scopes.issued ≤ next.clock.scopes.issued)
    (flights : next.flights = cache.flights) : Rooted next :=
  rooted.keep issued fun _ later present => ⟨later, flights ▸ present, rfl⟩

theorem modifyFlight (rooted : Rooted cache) (number : Nat) {change : Flight V → Flight V}
    (same : ∀ flight, (change flight).token = flight.token) : Rooted (cache.modifyFlight number change) := by
  refine rooted.keep (Nat.le_refl _) fun n later present => ?_
  obtain ⟨flight, there, ⟨_, rfl⟩ | ⟨_, rfl⟩⟩ := getElem?_modify_cases present
  · exact ⟨later, there, rfl⟩
  · exact ⟨flight, there, same flight⟩

theorem leave (rooted : Rooted cache) (number : Nat) : Rooted (cache.leave number) := by
  have counted : Rooted (cache.modifyFlight number fun flight => { flight with waiters := flight.waiters - 1 }) :=
    rooted.modifyFlight number fun _ => rfl
  obtain ⟨clock, rfl | ⟨token, rfl⟩, same⟩ := cache.leave_eq number
  · rw [same]
    exact counted
  · rw [same]
    exact counted.of_frame (Nat.le_refl _) rfl

/-- The scope of a new flight is new. -/
theorem launch (rooted : Rooted cache) (key : String) (slot : Nat) (policy : Policy) (trigger : Trigger)
    (waiters : Nat) : Rooted (cache.launch key slot policy trigger waiters).2 := by
  have new {flight : Flight V} {n : Nat} (old : cache.flights[n]? = some flight) :
      flight.token ≠ ⟨[cache.clock.scopes.issued]⟩ := by
    intro same
    obtain ⟨scope, own, known⟩ := rooted.root n flight old
    rw [own] at same
    cases same
    exact Nat.lt_irrefl _ known
  constructor
  · intro n flight present
    rcases getElem?_push_cases present with ⟨_, old⟩ | ⟨_, rfl⟩
    · obtain ⟨scope, own, known⟩ := rooted.root n flight old
      exact ⟨scope, own, Nat.lt_succ_of_lt known⟩
    · exact ⟨_, rfl, Nat.lt_succ_self _⟩
  · intro m n flight other present present' same
    rcases getElem?_push_cases present with ⟨_, old⟩ | ⟨last, rfl⟩
    · rcases getElem?_push_cases present' with ⟨_, old'⟩ | ⟨_, rfl⟩
      · exact rooted.distinct m n flight other old old' same
      · exact absurd same (new old)
    · rcases getElem?_push_cases present' with ⟨_, old'⟩ | ⟨last', _⟩
      · exact absurd same.symm (new old')
      · exact last.trans last'.symm

theorem move {before after : Stage V} (rooted : Rooted before.1) (move : Move before after) : Rooted after.1 := by
  cases move with
  | clock => exact rooted.of_frame (Nat.le_succ _) rfl
  | launch policy waiters => exact rooted.launch ..
  | join => exact rooted.modifyFlight _ fun _ => rfl
  | detach => exact rooted.modifyFlight _ fun _ => rfl
  | leave flight => exact rooted.leave flight
  | _ => exact rooted.of_frame (Nat.le_refl _) rfl

theorem moves {before after : Stage V} (rooted : Rooted before.1) (moves : Moves V before after) : Rooted after.1 :=
  @Moves.invariant V (fun stage => Rooted stage.1) _ _ moves (fun _ _ => move) rooted

theorem step {event : Event V} (rooted : Rooted cache) (step : cache.step? event = some next) : Rooted next := by
  cases event with
  | begin key policy deadline => cases step; exact rooted.moves (begin_moves cache key policy deadline)
  | flight number work =>
    obtain ⟨flight, _, ⟨_, rfl⟩ | ⟨deadline, ending, _, _, rfl⟩⟩ := turnFlight?_eq_some_iff.mp step
    · exact rooted.modifyFlight number fun _ => rfl
    · obtain ⟨clock, _, outcome, flights⟩ := endFlight_frame cache number flight ending
      have ended : Rooted (cache.modifyFlight number fun flight' => { flight' with
          phase := flight.endPhase ending, outcome := some outcome, endedAt := some cache.clock.now }) :=
        rooted.modifyFlight number fun _ => rfl
      exact ended.of_frame (Nat.le_of_eq (congrArg (fun clock => clock.scopes.issued) clock.symm)) flights
  | call number => exact rooted.moves (turnCall?_moves step)
  | drop number => cases step; exact rooted.moves (dropCall_moves cache number)
  | purge => cases step; exact rooted.of_frame (Nat.le_refl _) rfl
  | remove key => cases step; exact rooted.of_frame (Nat.le_refl _) rfl
  | pass instant => cases step; exact rooted.of_frame (Nat.le_refl _) rfl
  | scope parent => cases parent <;> cases step <;> exact rooted.of_frame (Nat.le_succ _) rfl
  | cancel token => cases step; exact rooted.of_frame (Nat.le_refl _) rfl

end Rooted

/-- Every flight has a scope of its own, whatever happens. -/
theorem Reachable.rooted {rule : Rule V} {cache : Cache V} (reachable : Reachable rule cache) : Rooted cache := by
  refine reachable.invariant (fun _ _ _ rooted _ => Rooted.step rooted) fun maxEntries => ?_
  constructor
  · simp [empty]
  · simp [empty]

end HedgedForecast.Cache
