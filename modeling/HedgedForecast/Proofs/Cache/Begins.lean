import HedgedForecast.Proofs.Cache.Moves

/-! # How calls begin

What a call finds when it begins is the entry and the live flight of its key's slot, neither of which
is there if the key has no slot yet. The entry and the policy settle which of the three ways the call
takes. Each way adds one call, after all others, that has been answered or waits for a flight.
-/

namespace HedgedForecast.Cache

variable {V : Type}

/-- The entry that a call on a key finds. -/
def entryFor (cache : Cache V) (key : String) : Option (Entry V) :=
  (cache.keys.lookup key).bind cache.entryOf

/-- The flight that a call on a key may join. -/
def flightFor (cache : Cache V) (key : String) : Option Nat :=
  (cache.keys.lookup key).bind cache.liveFlight?

/-- The entry may be served to a call under the policy. -/
def IsServable (cache : Cache V) (policy : Policy) (entry : Entry V) : Prop :=
  cache.clock.now < entry.expiresAt ∨ policy.failSafe = true ∧ cache.clock.now < entry.servableUntil

/-- A call before it took its way. -/
def opening (cache : Cache V) (key : String) (policy : Policy) (deadline : Deadline) : Call V :=
  { key, slot := (cache.touch key).1, policy, deadline, begunAt := cache.clock.now, phase := .dropped }

theorem makeRoom_frame (cache : Cache V) :
    cache.makeRoom.clock = cache.clock ∧ cache.makeRoom.slots = cache.slots ∧
      cache.makeRoom.flights = cache.flights ∧ cache.makeRoom.calls = cache.calls ∧
      cache.makeRoom.stats.factoryCalls = cache.stats.factoryCalls := by
  rcases makeRoom_cases cache with ⟨same, _⟩ | ⟨key, slot, _, _, same⟩ <;> rw [same] <;> exact ⟨rfl, rfl, rfl, rfl, rfl⟩

/-- Finding the slot of a key changes neither time nor flights nor calls. -/
theorem touch_frame (cache : Cache V) (key : String) :
    (cache.touch key).2.clock = cache.clock ∧ (cache.touch key).2.flights = cache.flights ∧
      (cache.touch key).2.calls = cache.calls ∧
      (cache.touch key).2.stats.factoryCalls = cache.stats.factoryCalls := by
  cases known : cache.keys.lookup key with
  | some slot => rw [touch_known known]; exact ⟨rfl, rfl, rfl, rfl⟩
  | none =>
    rw [touch_absent known]
    obtain ⟨clock, _, flights, calls, factoryCalls⟩ := makeRoom_frame { cache with tick := cache.tick + 1 }
    exact ⟨clock, flights, calls, factoryCalls⟩

theorem entryOf_touch (cache : Cache V) (key : String) :
    (cache.touch key).2.entryOf (cache.touch key).1 = cache.entryFor key := by
  cases known : cache.keys.lookup key with
  | some slot =>
    rw [touch_known known, entryFor, known]
    simp only [entryOf, modifySlot, Array.getElem?_modify, if_true, Option.bind_some]
    cases cache.slots[slot]? <;> rfl
  | none =>
    rw [touch_absent known, entryFor, known]
    simp [entryOf]

theorem liveFlight?_touch (cache : Cache V) (key : String) :
    (cache.touch key).2.liveFlight? (cache.touch key).1 = cache.flightFor key := by
  cases known : cache.keys.lookup key with
  | some slot =>
    rw [touch_known known, flightFor, known]
    exact liveFlight?_modifySlot { cache with tick := cache.tick + 1 } slot slot fun _ => ⟨rfl, rfl⟩
  | none =>
    rw [touch_absent known, flightFor, known]
    simp [liveFlight?]

variable {cache : Cache V} {key : String} {policy : Policy} {entry : Entry V}

theorem begin_fresh (found : cache.entryFor key = some entry) (fresh : cache.clock.now < entry.expiresAt)
    (deadline : Deadline) :
    cache.begin key policy deadline =
      (cache.touch key).2.beginHit (cache.opening key policy deadline) entry := by
  have clock := (touch_frame cache key).1
  have seen := (entryOf_touch cache key).trans found
  simp only [begin_eq, seen, clock, fresh, if_true, opening]

theorem begin_expired (found : cache.entryFor key = some entry) (expired : entry.expiresAt ≤ cache.clock.now)
    (failSafe : policy.failSafe = true) (servable : cache.clock.now < entry.servableUntil)
    (deadline : Deadline) :
    cache.begin key policy deadline =
      (cache.touch key).2.beginStale (cache.opening key policy deadline) entry := by
  have clock := (touch_frame cache key).1
  have seen := (entryOf_touch cache key).trans found
  simp only [begin_eq, seen, clock, Nat.not_lt.mpr expired, if_false, failSafe, servable, decide_true,
    Bool.and_self, if_true, opening]

theorem begin_empty (nothing : ∀ entry, cache.entryFor key = some entry → ¬ cache.IsServable policy entry)
    (deadline : Deadline) :
    cache.begin key policy deadline = (cache.touch key).2.beginCold (cache.opening key policy deadline) := by
  have clock := (touch_frame cache key).1
  have seen := entryOf_touch cache key
  cases found : cache.entryFor key with
  | none =>
    rw [found] at seen
    simp only [begin_eq, seen, clock, opening]
  | some entry =>
    rw [found] at seen
    obtain ⟨expired, gone⟩ := not_or.mp (nothing entry found)
    have cold : (policy.failSafe && decide (cache.clock.now < entry.servableUntil)) = false := by simpa using gone
    simp only [begin_eq, seen, clock, expired, if_false, cold, Bool.false_eq_true, opening]

/-- A call takes one of three ways, as the entry of its key and its policy say. -/
theorem begin_cases (cache : Cache V) (key : String) (policy : Policy) (deadline : Deadline) :
    (∃ entry, cache.entryFor key = some entry ∧ cache.clock.now < entry.expiresAt ∧
        cache.begin key policy deadline =
          (cache.touch key).2.beginHit (cache.opening key policy deadline) entry) ∨
      (∃ entry, cache.entryFor key = some entry ∧ entry.expiresAt ≤ cache.clock.now ∧
        policy.failSafe = true ∧ cache.clock.now < entry.servableUntil ∧
        cache.begin key policy deadline =
          (cache.touch key).2.beginStale (cache.opening key policy deadline) entry) ∨
      (∀ entry, cache.entryFor key = some entry → ¬ cache.IsServable policy entry) ∧
        cache.begin key policy deadline =
          (cache.touch key).2.beginCold (cache.opening key policy deadline) := by
  by_cases servable : ∃ entry, cache.entryFor key = some entry ∧ cache.IsServable policy entry
  · obtain ⟨entry, found, usable⟩ := servable
    by_cases fresh : cache.clock.now < entry.expiresAt
    · exact .inl ⟨entry, found, fresh, begin_fresh found fresh deadline⟩
    · obtain ⟨failSafe, servable⟩ := usable.resolve_left fresh
      have expired := Nat.not_lt.mp fresh
      exact .inr (.inl ⟨entry, found, expired, failSafe, servable,
        begin_expired found expired failSafe servable deadline⟩)
  · have nothing : ∀ entry, cache.entryFor key = some entry → ¬ cache.IsServable policy entry :=
      fun entry found usable => servable ⟨entry, found, usable⟩
    exact .inr (.inr ⟨nothing, begin_empty nothing deadline⟩)

theorem refreshEagerly_calls (cache : Cache V) (key : String) (slot : Nat) (policy : Policy) :
    (cache.refreshEagerly key slot policy).calls = cache.calls ∧
      (cache.refreshEagerly key slot policy).clock.now = cache.clock.now := by
  unfold refreshEagerly
  simp only
  split <;> exact ⟨rfl, rfl⟩

theorem staleFlight?_calls (cache : Cache V) (key : String) (slot : Nat) (policy : Policy) :
    (cache.staleFlight? key slot policy).2.calls = cache.calls ∧
      (cache.staleFlight? key slot policy).2.clock.now = cache.clock.now := by
  unfold staleFlight?
  cases cache.liveFlight? slot with
  | some flight => exact ⟨rfl, rfl⟩
  | none => simp only; split <;> exact ⟨rfl, rfl⟩

theorem coldFlight_calls (cache : Cache V) (key : String) (slot : Nat) (policy : Policy) :
    (cache.coldFlight key slot policy).2.calls = cache.calls := by
  unfold coldFlight
  cases cache.liveFlight? slot <;> rfl

theorem staleFlight?_count (cache : Cache V) (change : CacheStats → CacheStats) (key : String) (slot : Nat)
    (policy : Policy) :
    ((cache.count change).staleFlight? key slot policy).1 = (cache.staleFlight? key slot policy).1 ∧
      ((cache.count change).staleFlight? key slot policy).2.flights =
        (cache.staleFlight? key slot policy).2.flights := by
  have live : (cache.count change).liveFlight? slot = cache.liveFlight? slot := rfl
  have throttled : (cache.count change).isThrottled slot policy = cache.isThrottled slot policy := rfl
  unfold staleFlight?
  simp only [live, throttled]
  split
  · exact ⟨rfl, rfl⟩
  · split
    · exact ⟨rfl, rfl⟩
    · exact ⟨rfl, rfl⟩

/-- A call that finds a fresh entry is answered with it. -/
theorem beginHit_call (cache : Cache V) (call : Call V) (entry : Entry V) :
    (cache.beginHit call entry).1 = cache.calls.size ∧
      (cache.beginHit call entry).2.calls =
        cache.calls.push { call with phase := .returned (.ok entry.value) cache.clock.now } := by
  unfold beginHit
  simp only
  split
  · obtain ⟨calls, now⟩ := refreshEagerly_calls
      (cache.count fun stats => { stats with hits := stats.hits + 1 }) call.key call.slot call.policy
    simp only [addCall, calls, now]
    exact ⟨rfl, rfl⟩
  · exact ⟨rfl, rfl⟩

/-- A call that finds a stale entry is answered with it or waits within its soft bound. -/
theorem beginStale_call (cache : Cache V) (call : Call V) (entry : Entry V) :
    ∃ phase, (cache.beginStale call entry).1 = cache.calls.size ∧
      (cache.beginStale call entry).2.calls = cache.calls.push { call with phase } ∧
      (phase = .returned (.ok entry.value) cache.clock.now ∨
        call.policy.softTimeout ≠ 0 ∧ ∃ flight clock, clock.now = cache.clock.now ∧
          phase = .stale flight (call.deadline.tighten clock call.policy.softTimeout).1 entry.value ∧
          (cache.beginStale call entry).2.flights = (cache.staleFlight? call.key call.slot call.policy).2.flights ∧
          (cache.staleFlight? call.key call.slot call.policy).1 = some flight) := by
  have uncounted := staleFlight?_count cache (fun stats => { stats with staleHits := stats.staleHits + 1 })
    call.key call.slot call.policy
  unfold beginStale
  simp only
  obtain ⟨calls, now⟩ := staleFlight?_calls
    (cache.count fun stats => { stats with staleHits := stats.staleHits + 1 }) call.key call.slot call.policy
  generalize staleFlight? (cache.count _) _ _ _ = found at calls now uncounted ⊢
  rcases found with ⟨_ | flight, next⟩
  · exact ⟨_, congrArg Array.size calls, congrArg (Array.push · _) calls, .inl rfl⟩
  · simp only at calls now uncounted ⊢
    split
    · refine ⟨_, ?_, ?_, .inl rfl⟩
      · simp only [addCall, leave_calls]; exact congrArg Array.size calls
      · simp only [addCall, leave_calls]; exact congrArg (Array.push · _) calls
    · next waits =>
      exact ⟨_, congrArg Array.size calls, congrArg (Array.push · _) calls,
        .inr ⟨by simpa using waits, flight, next.clock, now, rfl, uncounted.2, uncounted.1.symm⟩⟩

/-- A call that finds nothing to serve waits for a flight. -/
theorem beginCold_call (cache : Cache V) (call : Call V) :
    (cache.beginCold call).1 = cache.calls.size ∧
      (cache.beginCold call).2.calls = cache.calls.push { call with
        phase := .cold ((cache.count fun stats => { stats with misses := stats.misses + 1 }).coldFlight
          call.key call.slot call.policy).1 } := by
  unfold beginCold
  have calls := coldFlight_calls (cache.count fun stats => { stats with misses := stats.misses + 1 })
    call.key call.slot call.policy
  exact ⟨congrArg Array.size calls, congrArg (Array.push · _) calls⟩

/-- Neither a flight nor the count of computations is new. -/
def LaunchesNothing (cache next : Cache V) : Prop :=
  next.flights.size = cache.flights.size ∧ next.stats.factoryCalls = cache.stats.factoryCalls

theorem refreshEagerly_of_live (cache : Cache V) (key : String) {slot number : Nat} (policy : Policy)
    (live : cache.liveFlight? slot = some number) : LaunchesNothing cache (cache.refreshEagerly key slot policy) := by
  have amends : Amends fun slot : Slot V =>
      { slot with entry := slot.entry.map fun entry => { entry with refreshing := true } } :=
    fun _ => ⟨rfl, rfl⟩
  unfold refreshEagerly
  simp only [liveFlight?_modifySlot cache slot slot amends, live, Option.isSome_some, if_true]
  exact ⟨rfl, rfl⟩

theorem beginHit_of_live (cache : Cache V) (call : Call V) (entry : Entry V) {number : Nat}
    (live : cache.liveFlight? call.slot = some number) :
    LaunchesNothing cache (cache.beginHit call entry).2 := by
  unfold beginHit
  simp only
  split
  · exact refreshEagerly_of_live (cache.count _) call.key call.policy live
  · exact ⟨rfl, rfl⟩

/-- The holder of a stale value who waits waits for the live flight. -/
theorem beginStale_of_live (cache : Cache V) (call : Call V) (entry : Entry V) {number : Nat}
    (live : cache.liveFlight? call.slot = some number) :
    LaunchesNothing cache (cache.beginStale call entry).2 ∧
      ∃ phase, (cache.beginStale call entry).2.calls = cache.calls.push { call with phase } ∧
        (phase = .returned (.ok entry.value) cache.clock.now ∨ ∃ soft, phase = .stale number soft entry.value) := by
  have found : (cache.count fun stats => { stats with staleHits := stats.staleHits + 1 }).staleFlight?
      call.key call.slot call.policy =
        (some number, (cache.count fun stats => { stats with staleHits := stats.staleHits + 1 }).join number) := by
    unfold staleFlight?
    rw [show (cache.count _).liveFlight? call.slot = some number from live]
  have joined (flights : Array (Flight V)) (change : Flight V → Flight V) :
      (flights.modify number change).size = flights.size := Array.size_modify
  unfold beginStale
  simp only [found]
  split
  · refine ⟨⟨?_, ?_⟩, _, ?_, .inl rfl⟩
    · simp only [addCall, leave_flights_size, detach, join, modifyFlight, joined, count]
    · simp only [addCall, leave_stats]; rfl
    · simp only [addCall, leave_calls]; rfl
  · refine ⟨⟨joined _ _, rfl⟩, _, rfl, .inr ⟨_, rfl⟩⟩

theorem beginCold_of_live (cache : Cache V) (call : Call V) {number : Nat}
    (live : cache.liveFlight? call.slot = some number) :
    LaunchesNothing cache (cache.beginCold call).2 ∧
      (cache.beginCold call).2.calls = cache.calls.push { call with phase := .cold number } := by
  have found : (cache.count fun stats => { stats with misses := stats.misses + 1 }).coldFlight
      call.key call.slot call.policy =
        (number, (cache.count fun stats => { stats with misses := stats.misses + 1 }).join number) := by
    unfold coldFlight
    rw [show (cache.count _).liveFlight? call.slot = some number from live]
  unfold beginCold
  simp only [found]
  exact ⟨⟨Array.size_modify, rfl⟩, rfl⟩

/-- A call that finds a live flight launches none: it is served from the entry or waits for that flight. -/
theorem begin_of_flightFor {cache : Cache V} {key : String} {number : Nat}
    (there : cache.flightFor key = some number) (policy : Policy) (deadline : Deadline) :
    LaunchesNothing cache (cache.begin key policy deadline).2 ∧
      ∃ call, (cache.begin key policy deadline).2.calls[(cache.begin key policy deadline).1]? = some call ∧
        ((∃ entry, cache.entryFor key = some entry ∧
            call.phase = .returned (.ok entry.value) cache.clock.now) ∨
          call.flight? = some number) := by
  obtain ⟨clock, flights, calls, factoryCalls⟩ := touch_frame cache key
  have live := (liveFlight?_touch cache key).trans there
  have after {next : Cache V} (nothing : LaunchesNothing (cache.touch key).2 next) : LaunchesNothing cache next :=
    ⟨nothing.1.trans (congrArg Array.size flights), nothing.2.trans factoryCalls⟩
  rcases begin_cases cache key policy deadline with
    ⟨entry, found, _, same⟩ | ⟨entry, found, _, _, _, same⟩ | ⟨_, same⟩
  · rw [same]
    obtain ⟨place, added⟩ := beginHit_call (cache.touch key).2 (cache.opening key policy deadline) entry
    refine ⟨after (beginHit_of_live _ _ entry live), _, by rw [place, added, Array.getElem?_push_size], ?_⟩
    exact .inl ⟨entry, found, by rw [clock]⟩
  · rw [same]
    obtain ⟨nothing, phase, added, way⟩ :=
      beginStale_of_live _ (cache.opening key policy deadline) entry live
    obtain ⟨_, place, _, _⟩ := beginStale_call (cache.touch key).2 (cache.opening key policy deadline) entry
    refine ⟨after nothing, _, by rw [place, added, Array.getElem?_push_size], ?_⟩
    rcases way with rfl | ⟨soft, rfl⟩
    · exact .inl ⟨entry, found, by rw [clock]⟩
    · exact .inr rfl
  · rw [same]
    obtain ⟨nothing, added⟩ := beginCold_of_live _ (cache.opening key policy deadline) live
    obtain ⟨place, _⟩ := beginCold_call (cache.touch key).2 (cache.opening key policy deadline)
    exact ⟨after nothing, _, by rw [place, added, Array.getElem?_push_size], .inr rfl⟩

/-- Without a live flight a call that has found no value launches one and waits for it. -/
theorem beginCold_eq_of_vacant {cache : Cache V} {call : Call V} (vacant : cache.liveFlight? call.slot = none) :
    cache.beginCold call =
      ((cache.count fun stats => { stats with misses := stats.misses + 1 }).launch call.key call.slot call.policy
        .cold 1).2.addCall { call with phase := .cold cache.flights.size } := by
  unfold beginCold coldFlight
  simp only [show (cache.count _).liveFlight? call.slot = none from vacant]
  rfl

theorem beginCold_of_vacant (cache : Cache V) (call : Call V) (vacant : cache.liveFlight? call.slot = none) :
    (∃ flight, (cache.beginCold call).2.flights = cache.flights.push flight ∧ flight.key = call.key ∧
        flight.policy = call.policy ∧ flight.trigger = .cold ∧ flight.phase = .queued) ∧
      (cache.beginCold call).2.stats.factoryCalls = cache.stats.factoryCalls + 1 ∧
      (cache.beginCold call).2.calls = cache.calls.push { call with phase := .cold cache.flights.size } := by
  rw [beginCold_eq_of_vacant vacant]
  exact ⟨⟨_, rfl, rfl, rfl, rfl, rfl⟩, rfl, rfl⟩

end HedgedForecast.Cache
