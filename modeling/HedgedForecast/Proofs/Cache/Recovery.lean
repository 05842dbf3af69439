import HedgedForecast.Proofs.Cache.Changes
import HedgedForecast.Proofs.Cache.History
import HedgedForecast.Proofs.Cache.Pace

/-! # Recovery from failures

Once the computations of a key have ended, a call that finds nothing to serve starts one of its own.
There is one exception: a flight that was lost stays in its slot, and if it was detached, nobody's
leaving cancels it. Such a slot is stuck until its key is removed, and calls share the old loss. A lost
flight that is attached does no harm, because the last of its callers to leave cancels it.
-/

namespace HedgedForecast.Cache

variable {V : Type}

/-- No computation for the key runs. -/
def Quiet (cache : Cache V) (key : String) : Prop :=
  ∀ flight ∈ cache.flights, flight.key = key → flight.isRunning = false

/-- The slot of the key holds a lost flight that no leaving caller cancels. -/
structure StuckOn (cache : Cache V) (key : String) (number : Nat) : Prop where
  installed : ∃ slot found, cache.keys.lookup key = some slot ∧ cache.slots[slot]? = some found ∧
    found.flight = some number
  lost : ∃ flight, cache.flights[number]? = some flight ∧ flight.phase = .lost ∧ flight.detached = true

/-- A call launches a flight of its own and waits for it. -/
structure StartsOwn (cache : Cache V) (key : String) (policy : Policy) (deadline : Deadline) : Prop where
  launched : ∃ flight, (cache.begin key policy deadline).2.flights = cache.flights.push flight ∧
    flight.key = key ∧ flight.policy = policy ∧ flight.trigger = .cold ∧ flight.phase = .queued
  counted : (cache.begin key policy deadline).2.stats.factoryCalls = cache.stats.factoryCalls + 1
  waits : ∃ call, (cache.begin key policy deadline).2.calls[(cache.begin key policy deadline).1]? = some call ∧
    call.phase = .cold cache.flights.size

/-- A call launches nothing and learns that an earlier flight was lost, unless its own deadline stops it
even before that. -/
structure SharesLoss (cache : Cache V) (key : String) (policy : Policy) (deadline : Deadline) (number : Nat) :
    Prop where
  launchesNothing : LaunchesNothing cache (cache.begin key policy deadline).2
  told : ∃ call, (cache.begin key policy deadline).2.calls[(cache.begin key policy deadline).1]? = some call ∧
    call.phase = .cold number ∧
    (deadline.isCancelled (cache.begin key policy deadline).2.clock = false → cache.clock.now < deadline.instant →
      (cache.begin key policy deadline).2.answer? call = some (.error (.unavailable lostFailure)))

/-- Nobody waits for a lost flight in a settled state. -/
theorem Settled.waiting_lost {cache : Cache V} (settled : cache.Settled) {number : Nat} {flight : Flight V}
    (present : cache.flights[number]? = some flight) (lost : flight.phase = .lost) : cache.waiting number = 0 := by
  refine waiting_eq_zero fun other call there waits => ?_
  have told : cache.resultOf number = some (.error lostFailure) := by simp [resultOf, present, lost]
  have still := (turnCall?_eq_none_iff there).mp (settled.calls other)
  cases phase : call.phase with
  | cold flight =>
    obtain rfl : flight = number := by simpa [Call.flight?, phase] using waits
    simp only [answer?, phase, Option.map_eq_none_iff, Deadline.verdict_eq_none_iff, told] at still
    simp at still
  | stale flight soft fallback =>
    obtain rfl : flight = number := by simpa [Call.flight?, phase] using waits
    simp only [answer?, phase, Option.map_eq_none_iff, Deadline.verdict_eq_none_iff, told] at still
    simp at still
  | returned result instant => simp [Call.flight?, phase] at waits
  | dropped => simp [Call.flight?, phase] at waits

/-- What a call on a quiet key finds in a settled state, if anything, is a flight that is stuck. -/
theorem stuckOn_of_flightFor {cache : Cache V} (reachable : Reachable Lawful cache) (settled : cache.Settled)
    {key : String} (quiet : cache.Quiet key) {number : Nat} (there : cache.flightFor key = some number) :
    cache.StuckOn key number := by
  have placed := reachable.placed
  have accounted := reachable.accounted
  obtain ⟨flight, aloft, named, landed, uncancelled⟩ := placed.flightFor there
  obtain ⟨slot, known, live⟩ := Option.bind_eq_some_iff.mp there
  obtain ⟨found, _, present, installed, _, _⟩ := liveFlight?_eq_some_iff.mp live
  have lost : flight.phase = .lost := by
    have still := quiet flight (Array.mem_iff_getElem?.mpr ⟨number, aloft⟩) named
    cases phase : flight.phase <;> simp [Flight.isRunning, Flight.hasLanded, phase] at still landed ⊢
  refine ⟨⟨slot, found, known, present, installed⟩, flight, aloft, lost, ?_⟩
  by_contra attached
  have nobody : flight.waiters = 0 := by
    have waiters := accounted.waiters number flight aloft
    rw [settled.waiting_lost aloft lost] at waiters
    simpa using waiters
  have cancelled := (accounted.cancelled_iff number flight aloft).mpr ⟨by simpa using attached, nobody⟩
  rw [uncancelled] at cancelled
  contradiction

theorem StuckOn.flightFor {cache : Cache V} {held : List Nat} {key : String} {number : Nat}
    (stuck : cache.StuckOn key number) (accounted : Accounted cache held) : cache.flightFor key = some number := by
  obtain ⟨slot, found, known, present, installed⟩ := stuck.installed
  obtain ⟨flight, aloft, _, detached⟩ := stuck.lost
  have uncancelled : cache.clock.isCancelled flight.token = false := by
    by_contra was
    have attached := ((accounted.cancelled_iff number flight aloft).mp (by simpa using was)).1
    rw [detached] at attached
    contradiction
  rw [Cache.flightFor, known]
  exact liveFlight?_eq_some_iff.mpr ⟨found, flight, present, installed, aloft, uncancelled⟩

namespace StuckOn

variable {cache next : Cache V} {key : String} {number : Nat}

theorem of_frame (stuck : cache.StuckOn key number) (keys : next.keys = cache.keys) (slots : next.slots = cache.slots)
    (flights : next.flights = cache.flights) : next.StuckOn key number := by
  constructor
  · rw [keys, slots]; exact stuck.installed
  · rw [flights]; exact stuck.lost

/-- Keys may be dropped whose slots are idle. -/
theorem forget (stuck : cache.StuckOn key number) (slots : next.slots = cache.slots)
    (flights : next.flights = cache.flights)
    (keys : ∀ slot, cache.keys.lookup key = some slot → cache.isIdle slot = false → next.keys.lookup key = some slot) :
    next.StuckOn key number := by
  obtain ⟨slot, found, known, present, installed⟩ := stuck.installed
  have busy : cache.isIdle slot = false := by simp [isIdle, present, installed]
  constructor
  · rw [slots]; exact ⟨slot, found, keys slot known busy, present, installed⟩
  · rw [flights]; exact stuck.lost

theorem openSlot (stuck : cache.StuckOn key number) (other : String) (access : Nat) :
    StuckOn { cache with
      keys := cache.keys ++ [(other, cache.slots.size)]
      slots := cache.slots.push { key := other, lastAccess := access } } key number := by
  obtain ⟨slot, found, known, present, installed⟩ := stuck.installed
  refine ⟨⟨slot, found, ?_, getElem?_push_of_some _ present, installed⟩, stuck.lost⟩
  simp only [List.lookup_append, known, Option.some_or]

theorem modifySlot (stuck : cache.StuckOn key number) (other : Nat) {change : Slot V → Slot V}
    (kept : ∀ slot, slot.flight = some number → (change slot).flight = some number) :
    (cache.modifySlot other change).StuckOn key number := by
  obtain ⟨slot, found, known, present, installed⟩ := stuck.installed
  refine ⟨?_, stuck.lost⟩
  by_cases same : other = slot
  · subst same
    exact ⟨other, change found, known, getElem?_modify_self change present, kept found installed⟩
  · exact ⟨slot, found, known, (getElem?_modify_of_ne _ change same).trans present, installed⟩

theorem modifyFlight (stuck : cache.StuckOn key number) (other : Nat) {change : Flight V → Flight V}
    (kept : ∀ flight, other = number → flight.phase = .lost → flight.detached = true →
      (change flight).phase = .lost ∧ (change flight).detached = true) :
    (cache.modifyFlight other change).StuckOn key number := by
  obtain ⟨flight, aloft, lost, detached⟩ := stuck.lost
  refine ⟨stuck.installed, ?_⟩
  by_cases same : other = number
  · subst same
    exact ⟨change flight, getElem?_modify_self change aloft, kept flight rfl lost detached⟩
  · exact ⟨flight, (getElem?_modify_of_ne _ change same).trans aloft, lost, detached⟩

/-- A flight is launched elsewhere only, since the lost one passes for live. -/
theorem launch (stuck : cache.StuckOn key number) {other : String} {slot : Nat} (policy : Policy) (trigger : Trigger)
    (waiters : Nat) (vacant : cache.liveFlight? slot = none) (there : cache.flightFor key = some number) :
    (cache.launch other slot policy trigger waiters).2.StuckOn key number := by
  obtain ⟨own, found, known, present, installed⟩ := stuck.installed
  obtain ⟨flight, aloft, lost, detached⟩ := stuck.lost
  have distinct : slot ≠ own := by
    rintro rfl
    rw [Cache.flightFor, known, Option.bind_some, vacant] at there
    contradiction
  constructor
  · exact ⟨own, found, known, (getElem?_modify_of_ne _ _ distinct).trans present, installed⟩
  · exact ⟨flight, getElem?_push_of_some _ aloft, lost, detached⟩

theorem leave (stuck : cache.StuckOn key number) (flight : Nat) : (cache.leave flight).StuckOn key number := by
  have counted : (cache.modifyFlight flight fun flight => { flight with waiters := flight.waiters - 1 }).StuckOn
      key number := stuck.modifyFlight flight fun _ _ lost detached => ⟨lost, detached⟩
  obtain ⟨clock, _, same⟩ := cache.leave_eq flight
  rw [same]
  exact counted.of_frame rfl rfl rfl

theorem move {before after : Stage V} (stuck : before.1.StuckOn key number) (placed : Placed before.1)
    (there : before.1.flightFor key = some number) (move : Move before after) : after.1.StuckOn key number := by
  cases move with
  | count => exact stuck.of_frame rfl rfl rfl
  | tick => exact stuck.of_frame rfl rfl rfl
  | clock parent => exact stuck.of_frame rfl rfl rfl
  | evict present idle => exact stuck.forget rfl rfl fun _ => placed.lookup_dropKey present idle
  | openSlot access absent => exact stuck.openSlot _ access
  | amend slot amends => exact stuck.modifySlot slot fun slot installed => (amends slot).2.trans installed
  | launch policy waiters known vacant => exact stuck.launch policy _ waiters vacant there
  | join live => exact stuck.modifyFlight _ fun _ _ lost detached => ⟨lost, detached⟩
  | detach holding => exact stuck.modifyFlight _ fun _ _ lost _ => ⟨lost, rfl⟩
  | leave flight => exact stuck.leave flight
  | serve => exact stuck.of_frame rfl rfl rfl
  | await => exact stuck.of_frame rfl rfl rfl
  | retire => exact stuck.of_frame rfl rfl rfl

theorem moves {target : Cache V} (stuck : cache.StuckOn key number) (accounted : Accounted cache [])
    (placed : Placed cache) (moves : Moves V (cache, []) (target, [])) : target.StuckOn key number := by
  refine (@Moves.invariant V (fun stage => Accounted stage.1 stage.2 ∧ Placed stage.1 ∧ stage.1.StuckOn key number)
    _ _ moves ?_ ⟨accounted, placed, stuck⟩).2.2
  rintro before after ⟨accounted, placed, stuck⟩ move
  exact ⟨accounted.move move, placed.move move, stuck.move placed (stuck.flightFor accounted) move⟩

/-- A flight that takes its turn is not the lost one. -/
theorem turnFlight (stuck : cache.StuckOn key number) (accounted : Accounted cache []) (placed : Placed cache)
    {other : Nat} {work : Option (WorkEnd V)} (turn : cache.turnFlight? other work = some next) :
    next.StuckOn key number := by
  obtain ⟨flight, aloft, way⟩ := turnFlight?_eq_some_iff.mp turn
  have distinct : other ≠ number := by
    rintro rfl
    obtain ⟨flight', aloft', lost, _⟩ := stuck.lost
    obtain rfl := Option.some.inj (aloft.symm.trans aloft')
    rw [lost] at way
    simp at way
  have elsewhere {cache : Cache V} (stuck : cache.StuckOn key number) (change : Flight V → Flight V) :
      (cache.modifyFlight other change).StuckOn key number :=
    stuck.modifyFlight other fun _ same => absurd same distinct
  rcases way with ⟨_, rfl⟩ | ⟨deadline, ending, _, _, rfl⟩
  · exact elsewhere stuck _
  · rcases endFlight_cases cache other flight ending with
      ⟨_, outcome, same⟩ | ⟨result, middle, outcome, _, moves, _, _, _, same⟩
    · rw [same]
      exact elsewhere stuck _
    · rw [same]
      refine elsewhere ((stuck.moves accounted placed moves).modifySlot flight.slot fun slot installed => ?_) _
      simp [installed, Ne.symm distinct]

theorem step {event : Event V} (stuck : cache.StuckOn key number) (accounted : Accounted cache [])
    (placed : Placed cache) (kept : event ≠ .remove key) (step : cache.step? event = some next) :
    next.StuckOn key number := by
  cases event with
  | begin other policy deadline =>
    cases step
    exact stuck.moves accounted placed (begin_moves cache other policy deadline)
  | flight other work => exact stuck.turnFlight accounted placed step
  | call other => exact stuck.moves accounted placed (turnCall?_moves step)
  | drop other => cases step; exact stuck.moves accounted placed (dropCall_moves cache other)
  | purge => cases step; exact stuck.forget rfl rfl fun _ => lookup_purge
  | remove other =>
    cases step
    refine stuck.forget rfl rfl fun slot known _ => lookup_filter_of_pos _ known (bne_iff_ne.mpr ?_)
    rintro rfl
    exact kept rfl
  | pass instant => cases step; exact stuck.of_frame rfl rfl rfl
  | scope parent => cases parent <;> cases step <;> exact stuck.of_frame rfl rfl rfl
  | cancel token => cases step; exact stuck.of_frame rfl rfl rfl

/-- A key that is stuck stays so until it is removed: neither time nor a full cache nor anything that
callers do helps. -/
theorem run {later : Cache V} (stuck : cache.StuckOn key number) (reachable : Reachable Lawful cache)
    (run : Run (fun cache event => Lawful cache event ∧ event ≠ .remove key) cache later) :
    later.StuckOn key number := by
  induction run with
  | nil => exact stuck
  | @snoc middle target event run allowed step ih =>
    have before : Reachable Lawful middle := reachable.extend (run.weaken fun _ _ => And.left)
    exact ih.step before.accounted before.placed allowed.2 step

end StuckOn

variable {cache : Cache V} {key : String} {policy : Policy}

theorem startsOwn_of_vacant (vacant : cache.flightFor key = none)
    (nothing : ∀ entry, cache.entryFor key = some entry → ¬ cache.IsServable policy entry) (deadline : Deadline) :
    cache.StartsOwn key policy deadline := by
  obtain ⟨_, flights, calls, factoryCalls⟩ := touch_frame cache key
  have same := begin_empty nothing deadline
  obtain ⟨⟨flight, launched, about⟩, counted, added⟩ :=
    beginCold_of_vacant _ (cache.opening key policy deadline) ((liveFlight?_touch cache key).trans vacant)
  obtain ⟨place, _⟩ := beginCold_call (cache.touch key).2 (cache.opening key policy deadline)
  constructor
  · exact ⟨flight, by rw [same, launched, flights], about⟩
  · rw [same, counted, factoryCalls]
  · exact ⟨_, by rw [same, place, added, Array.getElem?_push_size], by rw [flights]⟩

/-- A call that joins a lost flight is told of the loss. -/
theorem sharesLoss_of_flightFor {number : Nat} (there : cache.flightFor key = some number)
    (told : cache.resultOf number = some (.error lostFailure))
    (nothing : ∀ entry, cache.entryFor key = some entry → ¬ cache.IsServable policy entry) (deadline : Deadline) :
    cache.SharesLoss key policy deadline number := by
  have same := begin_empty nothing deadline
  have extended : Extends (cache.begin key policy deadline).2 cache := .moves (begin_moves cache key policy deadline)
  have now : (cache.begin key policy deadline).2.clock.now = cache.clock.now :=
    (begin_moves cache key policy deadline).now
  obtain ⟨_, added⟩ :=
    beginCold_of_live _ (cache.opening key policy deadline) ((liveFlight?_touch cache key).trans there)
  obtain ⟨place, _⟩ := beginCold_call (cache.touch key).2 (cache.opening key policy deadline)
  constructor
  · exact (begin_of_flightFor there policy deadline).1
  · refine ⟨_, by rw [same, place, added, Array.getElem?_push_size], rfl, fun uncancelled time => ?_⟩
    have verdict : deadline.verdict (cache.begin key policy deadline).2.clock (some (.error lostFailure)) =
        some (.done (.error lostFailure : Except Failure V)) := by
      simp [Deadline.verdict, uncancelled, Deadline.isExpired, now, time]
    simp only [answer?, opening, extended.resultOf told, verdict]
    rfl

/-- In a settled state a call on a key without a running computation and without a servable entry starts
its own computation, except for a key that is stuck: there it shares the loss of a flight that ended
before. -/
theorem startsOwn_iff_not_stuck (reachable : Reachable Lawful cache) (settled : cache.Settled)
    (quiet : cache.Quiet key)
    (nothing : ∀ entry, cache.entryFor key = some entry → ¬ cache.IsServable policy entry) (deadline : Deadline) :
    (cache.StartsOwn key policy deadline ↔ ∀ number, ¬ cache.StuckOn key number) ∧
      ∀ number, cache.StuckOn key number → cache.SharesLoss key policy deadline number := by
  have shares (number : Nat) (stuck : cache.StuckOn key number) : cache.SharesLoss key policy deadline number := by
    obtain ⟨flight, aloft, lost, _⟩ := stuck.lost
    have there : cache.flightFor key = some number := stuck.flightFor reachable.accounted
    have told : cache.resultOf number = some (.error lostFailure) := by simp [resultOf, aloft, lost]
    exact sharesLoss_of_flightFor there told nothing deadline
  refine ⟨⟨fun own number stuck => ?_, fun free => ?_⟩, shares⟩
  · have counted := own.counted
    rw [(shares number stuck).launchesNothing.2] at counted
    omega
  · refine startsOwn_of_vacant ?_ nothing deadline
    cases there : cache.flightFor key with
    | none => rfl
    | some number => exact absurd (stuckOn_of_flightFor reachable settled quiet there) (free number)

/-- A stale value is refreshed by a computation that panics, and then the value gets too old. -/
def poisoning : List (Event Nat) :=
  [.scope none, .begin "Oslo" lenient ⟨5000, ⟨[0]⟩⟩, .flight 0 none, .flight 0 (some (.value 7)), .call 0, .pass 10,
    .begin "Oslo" lenient ⟨5000, ⟨[0]⟩⟩, .flight 1 none, .flight 1 (some (.panicked ⟨"2", none⟩)), .call 1, .pass 2000]

def poisoned : Cache Nat := (poisoning.foldlM step? (empty 1)).getD (empty 1)

theorem reachable_poisoned : Reachable Lawful poisoned :=
  ⟨1, .of_events (by simp [poisoning, Lawful]) (rfl : poisoning.foldlM step? (empty 1) = some poisoned)⟩

theorem nothing_poisoned (entry : Entry Nat) (found : poisoned.entryFor "Oslo" = some entry) :
    ¬ poisoned.IsServable lenient entry := by
  have stored : poisoned.entryFor "Oslo" = some { value := 7, storedAt := 0, policy := lenient, flight := 0 } := rfl
  obtain rfl := Option.some.inj (stored.symm.trans found)
  unfold IsServable
  decide

theorem stuckOn_poisoned : poisoned.StuckOn "Oslo" 1 :=
  ⟨⟨0, _, rfl, rfl, rfl⟩, _, rfl, rfl, rfl⟩

/-- So a settled cache need not recover: no computation runs and nothing can be served, but a call starts
no computation of its own. -/
theorem not_startsOwn_poisoned :
    ¬ ∀ (cache : Cache Nat) (key : String) (policy : Policy) (deadline : Deadline), Reachable Lawful cache →
      cache.Settled → cache.Quiet key →
      (∀ entry, cache.entryFor key = some entry → ¬ cache.IsServable policy entry) →
      cache.StartsOwn key policy deadline := by
  intro recovers
  have settled : poisoned.Settled := by decide
  have quiet : poisoned.Quiet "Oslo" := by unfold Quiet; decide
  have own := recovers poisoned "Oslo" lenient ⟨5000, ⟨[0]⟩⟩ reachable_poisoned settled quiet nothing_poisoned
  exact absurd own.counted (by decide)

theorem startsOwn_iff_not_stuck_poisoned :
    poisoned.Settled ∧ poisoned.Quiet "Oslo" ∧
      ¬ poisoned.StartsOwn "Oslo" lenient ⟨5000, ⟨[0]⟩⟩ ∧ poisoned.SharesLoss "Oslo" lenient ⟨5000, ⟨[0]⟩⟩ 1 := by
  have settled : poisoned.Settled := by decide
  have quiet : poisoned.Quiet "Oslo" := by unfold Quiet; decide
  obtain ⟨recovers, shares⟩ :=
    startsOwn_iff_not_stuck reachable_poisoned settled quiet nothing_poisoned ⟨5000, ⟨[0]⟩⟩
  exact ⟨settled, quiet, fun own => recovers.mp own 1 stuckOn_poisoned, shares 1 stuckOn_poisoned⟩

end HedgedForecast.Cache
