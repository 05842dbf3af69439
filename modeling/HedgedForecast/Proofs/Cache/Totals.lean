import HedgedForecast.Proofs.Cache.Counts
import HedgedForecast.Proofs.Cache.History
import HedgedForecast.Proofs.Simulation

/-! # What the counts of a cache come to

Whatever happens to a new cache, in whatever order: as many lookups are counted as calls have begun; every
computation that is counted is running, has given a value, has panicked or is counted once more among the failed
refreshes; and of the keys that were ever made those are there that were neither evicted nor removed. The callers
of a flight that failed evict its key at most once between them, since a key that comes back has another slot.
-/

namespace HedgedForecast.Cache

variable {V : Type}

/-- What the events of a run come to, each weighed in the state that it meets. -/
def total (weight : Cache V → Event V → Nat) : Cache V → List (Event V) → Nat
  | _, [] => 0
  | cache, event :: events =>
    match cache.step? event with
    | some next => weight cache event + total weight next events
    | none => 0

/-- How many keys the event evicts because a caller that waited for the flight sees it fail. -/
def evictionsFor (flight : Nat) (cache : Cache V) : Event V → Nat
  | .call number =>
    if cache.calls[number]?.bind Call.flight? = some flight then
      ((cache.turnCall? number).map fun next => next.stats.evictions - cache.stats.evictions).getD 0
    else 0
  | _ => 0

section Totals

variable {rule : Rule V} {source cache next : Cache V} {events : List (Event V)} {event : Event V}

theorem total_snoc (weight : Cache V → Event V → Nat) (steps : events.foldlM step? source = some cache)
    (step : cache.step? event = some next) :
    total weight source (events ++ [event]) = total weight source events + weight cache event := by
  induction events generalizing source with
  | nil =>
    cases steps
    simp [total, step]
  | cons first events ih =>
    obtain ⟨middle, begun, rest⟩ := Option.bind_eq_some_iff.mp steps
    simp only [List.cons_append, total, begun, ih rest]
    omega

theorem reachable_of_steps {maxEntries : Nat} (steps : events.foldlM step? (empty maxEntries) = some cache) :
    Reachable (fun _ _ => True) cache :=
  ⟨maxEntries, .of_events (fun _ _ _ => trivial) steps⟩

end Totals

section Slots

variable {rule : Rule V} {cache next : Cache V}

/-- The slot has the flight. -/
def Installed (cache : Cache V) (slot flight : Nat) : Prop :=
  ∃ found, cache.slots[slot]? = some found ∧ found.flight = some flight

theorem Installed.of_slots {slot flight : Nat} (installed : Installed cache slot flight)
    (slots : next.slots = cache.slots) : Installed next slot flight := by
  obtain ⟨found, present, own⟩ := installed
  exact ⟨found, slots ▸ present, own⟩

theorem installed_join {slot flight : Nat} (live : cache.liveFlight? slot = some flight) :
    Installed (cache.join flight) slot flight := by
  obtain ⟨found, _, present, installed, _⟩ := liveFlight?_eq_some_iff.mp live
  exact ⟨found, present, installed⟩

theorem installed_launch {own : Slot V} (key : String) {slot : Nat} (policy : Policy) (trigger : Trigger)
    (waiters : Nat) (there : cache.slots[slot]? = some own) :
    Installed (cache.launch key slot policy trigger waiters).2 slot cache.flights.size :=
  ⟨_, getElem?_modify_self (fun slot : Slot V => { slot with flight := some cache.flights.size }) there, rfl⟩

/-- The flight that a caller looks for in a slot is then in it. -/
theorem installed_staleFlight? {own : Slot V} (key : String) {slot flight : Nat} (policy : Policy)
    (there : cache.slots[slot]? = some own) (found : (cache.staleFlight? key slot policy).1 = some flight) :
    Installed (cache.staleFlight? key slot policy).2 slot flight := by
  unfold staleFlight? at found ⊢
  cases live : cache.liveFlight? slot with
  | some other =>
    simp only [live] at found ⊢
    obtain rfl := Option.some.inj found
    exact installed_join live
  | none =>
    simp only [live] at found ⊢
    split at found
    · contradiction
    · next free =>
      obtain rfl : cache.flights.size = flight := Option.some.inj found
      rw [if_neg free]
      have dated := getElem?_modify_self (fun slot : Slot V => { slot with lastRefresh := some cache.clock.now }) there
      exact installed_launch key policy .stale 1 dated

theorem installed_coldFlight {own : Slot V} (key : String) {slot : Nat} (policy : Policy)
    (there : cache.slots[slot]? = some own) :
    Installed (cache.coldFlight key slot policy).2 slot (cache.coldFlight key slot policy).1 := by
  unfold coldFlight
  cases live : cache.liveFlight? slot with
  | some other => exact installed_join live
  | none => exact installed_launch key policy .cold 1 there

/-- The cache after a call was added that, if it waits, waits for the flight in its slot. -/
def Berths (cache next : Cache V) : Prop :=
  ∃ call, next.calls = cache.calls.push call ∧ ∀ flight, call.flight? = some flight → Installed next call.slot flight

theorem beginHit_berths (cache : Cache V) (call : Call V) (entry : Entry V) :
    Berths cache (cache.beginHit call entry).2 :=
  ⟨_, (beginHit_call cache call entry).2, nofun⟩

theorem beginStale_berths {own : Slot V} {call : Call V} (entry : Entry V)
    (there : cache.slots[call.slot]? = some own) : Berths cache (cache.beginStale call entry).2 := by
  obtain ⟨calls, _⟩ := staleFlight?_calls
    (cache.count fun stats => { stats with staleHits := stats.staleHits + 1 }) call.key call.slot call.policy
  have finds (flight : Nat) := @installed_staleFlight? V
    (cache.count fun stats => { stats with staleHits := stats.staleHits + 1 }) own call.key call.slot flight
    call.policy there
  unfold beginStale
  simp only
  generalize staleFlight? _ _ _ _ = found at calls finds ⊢
  rcases found with ⟨_ | flight, next⟩
  · exact ⟨_, congrArg (Array.push · _) calls, nofun⟩
  · simp only
    split
    · exact ⟨_, congrArg (Array.push · _) ((leave_calls ..).trans calls), nofun⟩
    · refine ⟨_, congrArg (Array.push · _) calls, fun other waits => ?_⟩
      obtain rfl := Option.some.inj waits
      exact (finds flight rfl).of_slots rfl

theorem beginCold_berths {own : Slot V} {call : Call V} (there : cache.slots[call.slot]? = some own) :
    Berths cache (cache.beginCold call).2 := by
  refine ⟨_, (beginCold_call cache call).2, fun flight waits => ?_⟩
  obtain rfl := Option.some.inj waits
  have installed := @installed_coldFlight V (cache.count fun stats => { stats with misses := stats.misses + 1 }) own
    call.key call.slot call.policy there
  exact installed.of_slots rfl

theorem Placed.begin_berths (placed : Placed cache) (key : String) (policy : Policy) (deadline : Deadline) :
    Berths cache (cache.begin key policy deadline).2 := by
  have calls := (touch_frame cache key).2.2.1
  have touched : Placed (cache.touch key).2 := placed.moves (touch_moves cache key [])
  obtain ⟨own, there, _⟩ := touched.slot_of_key key _ (mem_of_lookup (Cache.lookup_touch cache key))
  unfold Berths
  rw [← calls]
  rcases begin_cases cache key policy deadline with ⟨entry, _, _, same⟩ | ⟨entry, _, _, _, _, same⟩ | ⟨_, same⟩
  · rw [same]
    exact beginHit_berths ..
  · rw [same]
    exact beginStale_berths entry there
  · rw [same]
    exact beginCold_berths there

/-- Every waiting call waits for a flight of its own slot. -/
def Berthed (cache : Cache V) : Prop :=
  ∀ (number flight : Nat) (call : Call V), cache.calls[number]? = some call → call.flight? = some flight →
    ∃ found, cache.flights[flight]? = some found ∧ found.slot = call.slot

theorem Berthed.step {event : Event V} (berthed : Berthed cache) (placed : Placed cache)
    (step : cache.step? event = some next) : Berthed next := by
  intro number flight call present waits
  have kept {old : Call V} (there : cache.calls[number]? = some old) (slot : call.slot = old.slot)
      (waited : old.flight? = some flight) : ∃ found, next.flights[flight]? = some found ∧ found.slot = call.slot := by
    obtain ⟨found, here, own⟩ := berthed number flight old there waited
    obtain ⟨later, here', follows⟩ := (Extends.step step).flights flight found here
    exact ⟨later, here', follows.slot.trans (own.trans slot.symm)⟩
  cases step_cameFrom step present with
  | same there => exact kept there rfl waits
  | answered _ _ same =>
    subst same
    contradiction
  | dropped _ same =>
    subst same
    contradiction
  | @begun key policy deadline phase last _ _ =>
    cases step
    obtain ⟨added, calls, berth⟩ := placed.begin_berths key policy deadline
    rw [calls, last, Array.getElem?_push_size] at present
    obtain rfl := Option.some.inj present
    obtain ⟨own, there, installed⟩ := berth flight waits
    obtain ⟨found, here, slot, _⟩ := (placed.moves (begin_moves ..)).installed _ own flight there installed
    exact ⟨found, here, slot⟩

theorem Reachable.berthed (reachable : Reachable rule cache) : Berthed cache := by
  obtain ⟨maxEntries, run⟩ := reachable
  induction run with
  | nil => intro number flight call present; simp [empty] at present
  | snoc run _ step ih => exact ih.step (Reachable.placed ⟨maxEntries, run⟩) step

end Slots

section Evictions

variable {cache next : Cache V}

/-- A call that ends evicts a key only if it has seen its flight fail, and then its own. -/
inductive Evicts (cache next : Cache V) (call : Call V) : Prop
  | none (evictions : next.stats.evictions = cache.stats.evictions) (keys : next.keys = cache.keys)
  | own {flight : Nat} {failure : Failure} (waits : call.phase = .cold flight)
      (failed : cache.resultOf flight = some (.error failure)) (blamed : isCallerSide failure = false)
      (known : cache.keys.lookup call.key = some call.slot)
      (evictions : next.stats.evictions = cache.stats.evictions + 1) (keys : next.keys = (cache.dropKey call.key).keys)

theorem turnCall?_evicts {number : Nat} {call : Call V} (present : cache.calls[number]? = some call)
    (turn : cache.turnCall? number = some next) : Evicts cache next call := by
  have left (middle : Cache V) (stats : middle.stats = cache.stats) (keys : middle.keys = cache.keys) (flight : Nat) :
      Evicts cache (middle.leave flight) call :=
    .none (by rw [leave_stats, stats]) (by rw [leave_keys, keys])
  obtain ⟨call', present', ⟨flight, verdict, phase, ended, rfl⟩ | ⟨flight, soft, fallback, verdict, _, _, rfl⟩⟩ :=
    turnCall?_eq_some_iff.mp turn
  · obtain rfl := Option.some.inj (present.symm.trans present')
    rw [endCold_eq]
    cases waited : waitResult verdict with
    | ok value => exact left (cache.returnCall ..) rfl rfl flight
    | error failure =>
      simp only
      split
      · exact left (cache.returnCall ..) rfl rfl flight
      · next blamed =>
        have blamed : isCallerSide failure = false := by simpa using blamed
        have failed : cache.resultOf flight = some (.error failure) := by
          rcases Deadline.verdict_cases ended with ⟨_, rfl⟩ | ⟨_, _, rfl⟩ | ⟨_, _, result, told, rfl⟩
          · obtain rfl := Except.error.inj waited
            contradiction
          · obtain rfl := Except.error.inj waited
            contradiction
          · rw [told, ← waited]
            rfl
        rcases evictFailed_cases ((cache.returnCall number (.error (callerFailure failure))).leave flight)
            call.key call.slot with same | ⟨evictable, same⟩
        · rw [same]
          exact left (cache.returnCall ..) rfl rfl flight
        · rw [same]
          have known := evictable.known
          rw [leave_keys] at known
          refine .own phase failed blamed known ?_ ?_
          · exact congrArg (fun stats => stats.evictions + 1) (leave_stats ..)
          · rw [evict, count, dropKey, leave_keys]
            rfl
  · rw [endStale_eq]
    cases waitResult verdict with
    | ok value => exact left (cache.returnCall ..) rfl rfl flight
    | error failure =>
      simp only
      split
      · exact left (cache.returnCall ..) rfl rfl flight
      · exact left ((cache.returnCall ..).detach flight) rfl rfl flight

/-- A slot that no key has is not found again. -/
theorem unkeyed_step {event : Event V} (step : cache.step? event = some next) {slot : Nat}
    (opened : slot < cache.slots.size) (unkeyed : ∀ key, (key, slot) ∉ cache.keys) (key : String) :
    (key, slot) ∉ next.keys := by
  intro member
  by_cases new : Inserts cache event
  · obtain ⟨other, policy, deadline, rfl, absent⟩ := new
    cases step
    rw [begin_keys_of_absent absent, List.mem_append, List.mem_singleton, touch_absent_slot absent] at member
    rcases member with old | added
    · exact unkeyed key (makeRoom_keys_subset cache old)
    · exact absurd (Prod.mk.inj added).2 (Nat.ne_of_lt opened)
  · exact unkeyed key ((step_keys step new).subset member)

/-- The callers of the flight have evicted nothing yet, or one key, whose slot no key has any more. -/
def EvictedOnce (source : Cache V) (flight : Nat) (events : List (Event V)) (cache : Cache V) : Prop :=
  total (evictionsFor flight) source events = 0 ∨
    total (evictionsFor flight) source events = 1 ∧
      ∃ found, cache.flights[flight]? = some found ∧ ∀ key, (key, found.slot) ∉ cache.keys

/-- An event evicts nothing for a flight, or it is the turn of a caller who finds that the slot of the flight still
has the key, and takes it away. -/
theorem Placed.evictionsFor_cases (placed : Placed cache) (berthed : Berthed cache) {event : Event V}
    (step : cache.step? event = some next) (flight : Nat) :
    evictionsFor flight cache event = 0 ∨
      evictionsFor flight cache event = 1 ∧ ∃ found, cache.flights[flight]? = some found ∧
        (∃ key, (key, found.slot) ∈ cache.keys) ∧ ∀ key, (key, found.slot) ∉ next.keys := by
  cases event with
  | call number =>
    obtain ⟨call, present, _⟩ := turnCall?_eq_some_iff.mp step
    have turn : cache.turnCall? number = some next := step
    simp only [evictionsFor, present, turn, Option.bind_some, Option.map_some, Option.getD_some]
    split
    · next waits =>
      cases turnCall?_evicts present turn with
      | none evictions => exact .inl (by rw [evictions, Nat.sub_self])
      | own _ _ _ known evictions keys =>
        obtain ⟨found, there, slot⟩ := berthed number flight call present waits
        have own := mem_of_lookup known
        refine .inr ⟨by rw [evictions]; exact Nat.add_sub_cancel_left .., found, there, ?_, fun key member => ?_⟩
        · exact ⟨call.key, slot ▸ own⟩
        · rw [keys] at member
          obtain ⟨old, other⟩ := List.mem_filter.mp member
          obtain ⟨held, present', named⟩ := placed.slot_of_key key found.slot old
          obtain ⟨held', present'', named'⟩ := placed.slot_of_key call.key call.slot own
          rw [slot, present''] at present'
          obtain rfl := Option.some.inj present'
          rw [bne_iff_ne] at other
          exact other (named.symm.trans named')
    · exact .inl rfl
  | _ => exact .inl rfl

theorem EvictedOnce.step {source : Cache V} {flight : Nat} {events : List (Event V)} {event : Event V}
    (once : EvictedOnce source flight events cache) (placed : Placed cache) (berthed : Berthed cache)
    (steps : events.foldlM step? source = some cache) (step : cache.step? event = some next) :
    EvictedOnce source flight (events ++ [event]) next := by
  have kept {found : Flight V} (there : cache.flights[flight]? = some found) :
      ∃ later, next.flights[flight]? = some later ∧ later.slot = found.slot := by
    obtain ⟨later, here, follows⟩ := (Extends.step step).flights flight found there
    exact ⟨later, here, follows.slot⟩
  unfold EvictedOnce
  rw [total_snoc _ steps step]
  rcases placed.evictionsFor_cases berthed step flight with none | ⟨one, found, there, ⟨key, keyed⟩, unkeyed⟩
  · rw [none]
    rcases once with zero | ⟨one, found, there, unkeyed⟩
    · exact .inl zero
    · obtain ⟨later, here, slot⟩ := kept there
      obtain ⟨own, opened, _⟩ := placed.slot_of_flight flight found there
      refine .inr ⟨one, later, here, ?_⟩
      rw [slot]
      exact unkeyed_step step (Array.getElem?_eq_some_iff.mp opened).1 unkeyed
  · rcases once with zero | ⟨_, found', there', unkeyed'⟩
    · obtain ⟨later, here, slot⟩ := kept there
      exact .inr ⟨by rw [zero, one], later, here, slot ▸ unkeyed⟩
    · obtain rfl := Option.some.inj (there.symm.trans there')
      exact absurd keyed (unkeyed' key)

end Evictions

/-- The counts of a cache, against what the events have done to it. -/
structure Balanced (maxEntries : Nat) (events : List (Event V)) (cache : Cache V) : Prop where
  begun : cache.calls.size = total begins (empty maxEntries) events
  /-- Every call that has begun is counted once, by what it found. -/
  lookups : cache.stats.hits + cache.stats.staleHits + cache.stats.misses = total begins (empty maxEntries) events
  launches : cache.stats.factoryCalls = cache.flights.size
  /-- Every computation has given a value, failed, panicked, or is not over. -/
  computations : cache.stats.factoryCalls =
    cache.ended .ok + cache.stats.refreshFailures + cache.ended .panic + cache.running
  /-- Those that were cancelled or ran out of their time have failed too. -/
  failures : cache.stats.refreshFailures = cache.ended .err + cache.ended .abandoned
  created : cache.slots.size = total creations (empty maxEntries) events
  /-- Of the keys ever made those are there that were neither evicted nor removed. -/
  keys : cache.size + cache.stats.evictions + total removals (empty maxEntries) events =
    total creations (empty maxEntries) events
  /-- All callers of a flight together evict its key at most once. -/
  once : ∀ flight, total (evictionsFor flight) (empty maxEntries) events ≤ 1

/-- What the counts come to by adding up what each event is booked for. -/
structure Tallied (maxEntries : Nat) (events : List (Event V)) (cache : Cache V) : Prop where
  calls : cache.calls.size = total begins (empty maxEntries) events
  lookups : cache.stats.lookups = total begins (empty maxEntries) events
  launches : cache.stats.factoryCalls = cache.flights.size
  failures : cache.stats.refreshFailures = cache.ended .err + cache.ended .abandoned
  slots : cache.slots.size = total creations (empty maxEntries) events
  keys : cache.size + cache.stats.evictions + total removals (empty maxEntries) events =
    total creations (empty maxEntries) events

theorem Tallied.step {maxEntries : Nat} {events : List (Event V)} {cache next : Cache V} {event : Event V}
    (tallied : Tallied maxEntries events cache) (booked : Booked cache next event)
    (steps : events.foldlM step? (empty maxEntries) = some cache) (step : cache.step? event = some next) :
    Tallied maxEntries (events ++ [event]) next := by
  have totals := fun weight => total_snoc weight steps step
  constructor
  · rw [totals, booked.calls, tallied.calls]
  · rw [totals, booked.lookups, tallied.lookups]
  · have launches := booked.launches
    have before := tallied.launches
    omega
  · have failures := booked.failures
    have before := tallied.failures
    omega
  · rw [totals, booked.slots, tallied.slots]
  · have keys := booked.keys
    have before := tallied.keys
    rw [totals, totals]
    omega

theorem tallied_of_steps {maxEntries : Nat} {events : List (Event V)} {cache : Cache V}
    (steps : events.foldlM step? (empty maxEntries) = some cache) : Tallied maxEntries events cache := by
  refine foldlM_induction ⟨rfl, rfl, rfl, rfl, rfl, rfl⟩ (fun events cache event next before tallied step => ?_) steps
  have reachable := reachable_of_steps before
  exact tallied.step (reachable.placed.booked reachable.recorded step) before step

theorem evictedOnce_of_steps {maxEntries : Nat} {events : List (Event V)} {cache : Cache V}
    (steps : events.foldlM step? (empty maxEntries) = some cache) (flight : Nat) :
    EvictedOnce (empty maxEntries) flight events cache := by
  refine foldlM_induction (.inl rfl) (fun events cache event next before once step => ?_) steps
  have reachable := reachable_of_steps before
  exact once.step reachable.placed reachable.berthed before step

/-- The books of a cache balance, whatever has happened to it. -/
theorem balanced_of_steps {maxEntries : Nat} {events : List (Event V)} {cache : Cache V}
    (steps : events.foldlM step? (empty maxEntries) = some cache) : Balanced maxEntries events cache := by
  have tallied := tallied_of_steps steps
  have computed := (reachable_of_steps steps).recorded.size_flights
  have failures := tallied.failures
  refine ⟨tallied.calls, tallied.lookups, tallied.launches, ?_, failures, tallied.slots, tallied.keys, fun flight => ?_⟩
  · rw [tallied.launches]
    omega
  · rcases evictedOnce_of_steps steps flight with none | ⟨one, _⟩
    · omega
    · omega

/-- Two callers see the first computation fail; their key comes back, makes room for another one, which is removed
while it is being computed in vain; and a last one is still being computed. -/
def bustle : List (Event Nat) :=
  [.scope none, .begin "Oslo" lenient ⟨5000, ⟨[0]⟩⟩, .begin "Oslo" lenient ⟨5000, ⟨[0]⟩⟩, .flight 0 none,
    .flight 0 (some (.failure (.providerFailed "p" "down"))), .call 0, .call 1, .begin "Oslo" lenient ⟨5000, ⟨[0]⟩⟩,
    .flight 1 none, .flight 1 (some (.value 1)), .call 2, .begin "Rome" lenient ⟨5000, ⟨[0]⟩⟩, .remove "Rome",
    .flight 2 none, .flight 2 (some (.panicked ⟨"2", none⟩)), .call 3, .begin "Bern" lenient ⟨5000, ⟨[0]⟩⟩]

def bustled : Cache Nat := (bustle.foldlM step? (empty 1)).getD (empty 1)

theorem bustle_steps : bustle.foldlM step? (empty 1) = some bustled := rfl

theorem balanced_bustle : Balanced 1 bustle bustled ∧
    bustled.stats = { misses := 5, factoryCalls := 4, refreshFailures := 1, evictions := 2 } ∧ bustled.size = 1 ∧
    bustled.ended .ok = 1 ∧ bustled.ended .panic = 1 ∧ bustled.running = 1 ∧
    total removals (empty 1) bustle = 1 ∧ total (evictionsFor 0) (empty 1) bustle = 1 := by
  refine ⟨balanced_of_steps bustle_steps, ?_, ?_, ?_, ?_, ?_, ?_, ?_⟩
  all_goals decide +kernel

end HedgedForecast.Cache
