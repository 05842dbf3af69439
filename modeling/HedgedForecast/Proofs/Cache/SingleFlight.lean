import HedgedForecast.Proofs.Cache.Begins
import HedgedForecast.Proofs.Cache.Places

/-! # Single flight

As long as no key is removed while its computation runs, the slot of a live flight is the one that its
key has, so that a key has at most one live flight and every call on the key finds it. Full caches and
expired entries are no exception: keys with a flight are not dropped for them.
-/

namespace HedgedForecast.Cache

variable {V : Type}

/-- No key is removed while its computation runs. Anything else may happen, even to the scopes of
flights. -/
def Exclusive : Rule V
  | cache, .remove key => ∀ number flight, cache.Live number flight → flight.key ≠ key
  | _, _ => True

/-- The key of a live flight has the flight's slot. -/
def Mapped (cache : Cache V) : Prop :=
  ∀ number flight, cache.Live number flight → cache.keys.lookup flight.key = some flight.slot

/-- A flight that is live after a change was live before, with the same key and slot. -/
def NoneNew (cache next : Cache V) : Prop :=
  ∀ number flight', next.Live number flight' →
    ∃ flight, cache.Live number flight ∧ flight.key = flight'.key ∧ flight.slot = flight'.slot

theorem NoneNew.trans {cache middle next : Cache V} (first : NoneNew cache middle) (second : NoneNew middle next) :
    NoneNew cache next := by
  intro number flight'' live
  obtain ⟨flight', live', key', slot'⟩ := second number flight'' live
  obtain ⟨flight, live, key, slot⟩ := first number flight' live'
  exact ⟨flight, live, key.trans key', slot.trans slot'⟩

theorem NoneNew.forget {cache next : Cache V} (flights : next.flights = cache.flights)
    (cancelled : ∀ token, cache.clock.isCancelled token = true → next.clock.isCancelled token = true) :
    NoneNew cache next := by
  intro number flight live
  refine ⟨flight, ⟨flights ▸ live.present, live.running, ?_⟩, rfl, rfl⟩
  by_contra was
  have is := cancelled _ (by simpa using was)
  rw [live.uncancelled] at is
  contradiction

theorem NoneNew.modifyFlight (cache : Cache V) (number : Nat) {change : Flight V → Flight V}
    (same : ∀ flight, (change flight).key = flight.key ∧ (change flight).slot = flight.slot ∧
      (change flight).token = flight.token)
    (running : ∀ flight, cache.flights[number]? = some flight → (change flight).isRunning = true →
      flight.isRunning = true) : NoneNew cache (cache.modifyFlight number change) := by
  intro n flight' live
  obtain ⟨flight, found, ⟨_, rfl⟩ | ⟨rfl, rfl⟩⟩ := getElem?_modify_cases live.present
  · exact ⟨flight', ⟨found, live.running, live.uncancelled⟩, rfl, rfl⟩
  · obtain ⟨key, slot, token⟩ := same flight
    exact ⟨flight, ⟨found, running flight found live.running, token ▸ live.uncancelled⟩, key.symm, slot.symm⟩

theorem NoneNew.leave (cache : Cache V) (number : Nat) : NoneNew cache (cache.leave number) := by
  have counted : NoneNew cache (cache.modifyFlight number fun flight => { flight with waiters := flight.waiters - 1 }) :=
    .modifyFlight cache number (fun _ => ⟨rfl, rfl, rfl⟩) (fun _ _ => id)
  obtain ⟨clock, rfl | ⟨token, rfl⟩, same⟩ := cache.leave_eq number
  · rw [same]
    exact counted
  · rw [same]
    exact counted.trans (.forget rfl fun _ => Clock.isCancelled_cancel_of_isCancelled)

namespace Mapped

variable {cache next : Cache V}

theorem empty (maxEntries : Nat) : Mapped (Cache.empty maxEntries : Cache V) := by
  intro number flight live
  simpa [Cache.empty] using live.present

/-- Keys may be lost whose slots have no live flight. -/
theorem keep (mapped : Mapped cache) (noneNew : NoneNew cache next)
    (keys : ∀ number flight, cache.Live number flight →
      cache.keys.lookup flight.key = some flight.slot → next.keys.lookup flight.key = some flight.slot) :
    Mapped next := by
  intro number flight' live'
  obtain ⟨flight, live, key, slot⟩ := noneNew number flight' live'
  rw [← key, ← slot]
  exact keys number flight live (mapped number flight live)

theorem of_frame (mapped : Mapped cache) (keys : next.keys = cache.keys) (flights : next.flights = cache.flights)
    (cancelled : ∀ token, cache.clock.isCancelled token = true → next.clock.isCancelled token = true) :
    Mapped next := by
  refine mapped.keep (.forget flights cancelled) fun number flight live known => ?_
  rw [keys]
  exact known

theorem modifyFlight (mapped : Mapped cache) (number : Nat) {change : Flight V → Flight V}
    (same : ∀ flight, (change flight).key = flight.key ∧ (change flight).slot = flight.slot ∧
      (change flight).token = flight.token)
    (running : ∀ flight, cache.flights[number]? = some flight → (change flight).isRunning = true →
      flight.isRunning = true) : Mapped (cache.modifyFlight number change) :=
  mapped.keep (.modifyFlight cache number same running) fun _ _ _ => id

theorem launch (mapped : Mapped cache) {key : String} {slot : Nat} (policy : Policy) (trigger : Trigger)
    (waiters : Nat) (known : cache.keys.lookup key = some slot) :
    Mapped (cache.launch key slot policy trigger waiters).2 := by
  intro number flight live
  rcases getElem?_push_cases live.present with ⟨_, old⟩ | ⟨_, rfl⟩
  · exact mapped number flight ⟨old, live.running, live.uncancelled⟩
  · exact known

/-- Only keys without a flight are dropped for want of room. -/
theorem evict (mapped : Mapped cache) (placed : Placed cache) {key : String} {slot : Nat}
    (present : (key, slot) ∈ cache.keys) (idle : cache.isIdle slot = true) : Mapped (cache.dropKey key) :=
  mapped.keep (.forget rfl fun _ => id) fun _ _ live known =>
    placed.lookup_dropKey present idle known (placed.busy live)

theorem move {before after : Stage V} (mapped : Mapped before.1) (placed : Placed before.1)
    (move : Move before after) : Mapped after.1 := by
  cases move with
  | count => exact mapped.of_frame rfl rfl fun _ => id
  | tick => exact mapped.of_frame rfl rfl fun _ => id
  | clock parent => exact mapped.of_frame rfl rfl fun _ => id
  | evict present idle => exact mapped.evict placed present idle
  | openSlot access absent =>
    refine mapped.keep (.forget rfl fun _ => id) fun number flight live known => ?_
    exact (List.lookup_append ..).trans (by rw [known]; rfl)
  | amend => exact mapped.of_frame rfl rfl fun _ => id
  | launch policy waiters known => exact mapped.launch policy _ waiters known
  | join live => exact mapped.modifyFlight _ (fun _ => ⟨rfl, rfl, rfl⟩) fun _ _ => id
  | detach holding => exact mapped.modifyFlight _ (fun _ => ⟨rfl, rfl, rfl⟩) fun _ _ => id
  | leave flight =>
    refine mapped.keep (.leave _ flight) fun number flight' live known => ?_
    rw [leave_keys]
    exact known
  | serve => exact mapped.of_frame rfl rfl fun _ => id
  | await => exact mapped.of_frame rfl rfl fun _ => id
  | retire => exact mapped.of_frame rfl rfl fun _ => id

theorem moves {target : Cache V} (mapped : Mapped cache) (placed : Placed cache)
    (moves : Moves V (cache, []) (target, [])) : Mapped target :=
  (@Moves.invariant V (fun stage => Placed stage.1 ∧ Mapped stage.1) _ _ moves
    (fun _ _ both move => ⟨both.1.move move, both.2.move both.1 move⟩) ⟨placed, mapped⟩).2

theorem turnFlight (mapped : Mapped cache) (placed : Placed cache) {number : Nat} {work : Option (WorkEnd V)}
    (turn : cache.turnFlight? number work = some next) : Mapped next := by
  obtain ⟨flight, present, ⟨queued, rfl⟩ | ⟨deadline, ending, working, _, rfl⟩⟩ := turnFlight?_eq_some_iff.mp turn
  · refine mapped.modifyFlight number (fun _ => ⟨rfl, rfl, rfl⟩) fun found there _ => ?_
    obtain rfl := Option.some.inj (present.symm.trans there)
    simp [Flight.isRunning, queued]
  · rcases endFlight_cases cache number flight ending with
      ⟨_, outcome, same⟩ | ⟨result, middle, outcome, _, moves, _, _, _, same⟩
    · rw [same]
      exact mapped.modifyFlight number (fun _ => ⟨rfl, rfl, rfl⟩) fun _ _ => by simp [Flight.isRunning]
    · rw [same]
      have uninstalled : Mapped (middle.uninstall number flight) :=
        (mapped.moves placed moves).of_frame rfl rfl fun _ => id
      exact uninstalled.modifyFlight number (fun _ => ⟨rfl, rfl, rfl⟩) fun _ _ => by simp [Flight.isRunning]

theorem step {event : Event V} (mapped : Mapped cache) (placed : Placed cache) (allowed : Exclusive cache event)
    (step : cache.step? event = some next) : Mapped next := by
  cases event with
  | begin key policy deadline => cases step; exact mapped.moves placed (begin_moves cache key policy deadline)
  | flight number work => exact mapped.turnFlight placed step
  | call number => exact mapped.moves placed (turnCall?_moves step)
  | drop number => cases step; exact mapped.moves placed (dropCall_moves cache number)
  | purge =>
    cases step
    exact mapped.keep (.forget rfl fun _ => id) fun _ _ live known => lookup_purge known (placed.busy live)
  | remove key =>
    cases step
    refine mapped.keep (.forget rfl fun _ => id) fun number flight live known => ?_
    exact lookup_filter_of_pos _ known (bne_iff_ne.mpr (allowed number flight live))
  | pass instant => cases step; exact mapped.of_frame rfl rfl fun _ => id
  | scope parent =>
    cases parent with
    | none => cases step; exact mapped.of_frame rfl rfl fun _ => id
    | some parent => cases step; exact mapped.of_frame rfl rfl fun _ => id
  | cancel token =>
    cases step
    exact mapped.of_frame rfl rfl fun _ => Clock.isCancelled_cancel_of_isCancelled

end Mapped

/-- The key of a live flight keeps its slot, whatever else happens. -/
theorem Reachable.mapped {cache : Cache V} (reachable : Reachable Exclusive cache) : Mapped cache := by
  obtain ⟨maxEntries, run⟩ := reachable
  induction run with
  | nil => exact Mapped.empty maxEntries
  | snoc run allowed step ih => exact ih.step (Reachable.placed ⟨maxEntries, run⟩) allowed step

/-- Flights that run and are not cancelled have different keys. -/
theorem Reachable.live_unique {cache : Cache V} (reachable : Reachable Exclusive cache) {m n : Nat}
    {flight other : Flight V} (live : cache.Live m flight) (live' : cache.Live n other)
    (same : flight.key = other.key) : m = n := by
  have placed := reachable.placed
  have mapped := reachable.mapped
  have slot : flight.slot = other.slot := by
    have known := mapped m flight live
    rw [same, mapped n other live'] at known
    exact (Option.some.inj known).symm
  obtain ⟨found, present, installed⟩ := placed.live m flight live
  obtain ⟨found', present', installed'⟩ := placed.live n other live'
  rw [slot, present'] at present
  obtain rfl := Option.some.inj present
  exact Option.some.inj (installed.symm.trans installed')

/-- A live flight is the only one of its key, is found under the key, and spares every call on the key
a flight of its own: the call is served from the entry or waits for that one. -/
structure SingleFlight (cache : Cache V) (number : Nat) (flight : Flight V) : Prop where
  only : ∀ other flight', cache.Live other flight' → flight'.key = flight.key → other = number
  installed : ∃ slot found, cache.keys.lookup flight.key = some slot ∧ cache.slots[slot]? = some found ∧
    found.flight = some number
  shared : ∀ policy deadline, LaunchesNothing cache (cache.begin flight.key policy deadline).2 ∧
    ∃ call, (cache.begin flight.key policy deadline).2.calls[(cache.begin flight.key policy deadline).1]? =
        some call ∧
      ((∃ entry, cache.entryFor flight.key = some entry ∧
          call.phase = .returned (.ok entry.value) cache.clock.now) ∨
        call.flight? = some number)

/-- Every live flight of a reachable cache is single, whatever calls, failures, cancellations and
losses of keys came before. -/
theorem singleFlight_of_reachable {cache : Cache V} (reachable : Reachable Exclusive cache) {number : Nat}
    {flight : Flight V} (live : cache.Live number flight) : cache.SingleFlight number flight := by
  have placed := reachable.placed
  have mapped := reachable.mapped
  have known := mapped number flight live
  obtain ⟨found, present, installed⟩ := placed.live number flight live
  constructor
  · intro other flight' live' same
    obtain ⟨found', present', installed'⟩ := placed.live other flight' live'
    have slot : flight'.slot = flight.slot := by
      have known' := mapped other flight' live'
      rw [same, known] at known'
      exact (Option.some.inj known').symm
    rw [slot, present] at present'
    obtain rfl := Option.some.inj present'
    exact Option.some.inj (installed'.symm.trans installed)
  · exact ⟨_, found, known, present, installed⟩
  · intro policy deadline
    have there : cache.flightFor flight.key = some number := by
      rw [flightFor, known]
      exact liveFlight?_eq_some_iff.mpr ⟨found, flight, present, installed, live.present, live.uncancelled⟩
    exact begin_of_flightFor there policy deadline

/-- A caller has asked a new cache for a value. -/
def asked : Cache Nat :=
  ({ (empty 1 : Cache Nat) with clock := (empty 1 : Cache Nat).clock.freshToken.2 }.begin "Oslo"
    (Policy.ofSettings {}) ⟨5000, ⟨[0]⟩⟩).2

theorem singleFlight_asked :
    Reachable Exclusive asked ∧ ∃ flight, asked.Live 0 flight ∧ asked.SingleFlight 0 flight := by
  have run : Run Exclusive (empty 1) asked := by
    have steps : [.scope none, .begin "Oslo" (Policy.ofSettings {}) ⟨5000, ⟨[0]⟩⟩].foldlM step?
        (empty 1 : Cache Nat) = some asked := rfl
    exact .of_events (by simp [Exclusive]) steps
  have live : asked.Live 0 _ := ⟨rfl, rfl, rfl⟩
  exact ⟨⟨1, run⟩, _, live, singleFlight_of_reachable ⟨1, run⟩ live⟩

end HedgedForecast.Cache
