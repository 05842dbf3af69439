import HedgedForecast.Proofs.Cache.Waiters
import Mathlib.Data.List.Nodup

/-! # Where flights are found

A flight belongs to a slot of its key. What a slot has installed is one of its own flights that has
not landed; and as long as a flight runs and is not cancelled, its slot has it installed. A slot
without a live flight may therefore launch one without losing another.
-/

namespace HedgedForecast.Cache

variable {V : Type}

/-- The flight runs, and its scope is not cancelled. -/
structure Live (cache : Cache V) (number : Nat) (flight : Flight V) : Prop where
  present : cache.flights[number]? = some flight
  running : flight.isRunning = true
  uncancelled : cache.clock.isCancelled flight.token = false

/-- Keys, slots and flights fit together. -/
structure Placed (cache : Cache V) : Prop where
  keys_nodup : (cache.keys.map Prod.fst).Nodup
  slot_of_key : ∀ (key : String) (slot : Nat), (key, slot) ∈ cache.keys →
    ∃ found, cache.slots[slot]? = some found ∧ found.key = key
  slot_of_flight : ∀ (number : Nat) (flight : Flight V), cache.flights[number]? = some flight →
    ∃ found, cache.slots[flight.slot]? = some found ∧ found.key = flight.key
  installed : ∀ (slot : Nat) (found : Slot V) (number : Nat), cache.slots[slot]? = some found →
    found.flight = some number →
    ∃ flight, cache.flights[number]? = some flight ∧ flight.slot = slot ∧ flight.hasLanded = false
  live : ∀ (number : Nat) (flight : Flight V), cache.Live number flight →
    ∃ found, cache.slots[flight.slot]? = some found ∧ found.flight = some number

/-- Every slot is still there, with its key. -/
def KeepsKeys (cache next : Cache V) : Prop :=
  ∀ (slot : Nat) (found : Slot V), cache.slots[slot]? = some found →
    ∃ found', next.slots[slot]? = some found' ∧ found'.key = found.key

namespace KeepsKeys

variable {cache next : Cache V}

theorem of_modify {slot : Nat} {change : Slot V → Slot V} (slots : next.slots = cache.slots.modify slot change)
    (same : ∀ found, (change found).key = found.key) : KeepsKeys cache next := by
  intro place found present
  rw [slots, Array.getElem?_modify, present]
  split
  · exact ⟨_, rfl, same found⟩
  · exact ⟨_, rfl, rfl⟩

theorem of_push {new : Slot V} (slots : next.slots = cache.slots.push new) : KeepsKeys cache next :=
  fun _ found present => ⟨found, slots ▸ getElem?_push_of_some new present, rfl⟩

/-- What has a slot of its key still has it. -/
theorem owner (keeps : KeepsKeys cache next) {key : String} {slot : Nat}
    (owned : ∃ found, cache.slots[slot]? = some found ∧ found.key = key) :
    ∃ found, next.slots[slot]? = some found ∧ found.key = key := by
  obtain ⟨found, present, named⟩ := owned
  obtain ⟨found', present', same⟩ := keeps slot found present
  exact ⟨found', present', same.trans named⟩

end KeepsKeys

/-- Taking a flight out of its slot takes no other one out. -/
theorem getElem?_uninstall {cache : Cache V} {number other slot : Nat} (flight : Flight V) {found : Slot V}
    (distinct : other ≠ number) (present : cache.slots[slot]? = some found) (installed : found.flight = some other) :
    (cache.uninstall number flight).slots[slot]? = some found := by
  rw [uninstall, Cache.modifySlot, Array.getElem?_modify, present]
  split
  · simp [installed, distinct]
  · rfl

/-- What is installed after a flight was taken out was installed before, and is not that flight. -/
theorem installed_of_uninstall {cache : Cache V} {number other slot : Nat} {flight : Flight V} {found' : Slot V}
    (present : (cache.uninstall number flight).slots[slot]? = some found') (installed : found'.flight = some other) :
    cache.slots[slot]? = some found' ∧ (slot = flight.slot → other ≠ number) := by
  obtain ⟨found, old, ⟨distinct, rfl⟩ | ⟨_, rfl⟩⟩ := getElem?_modify_cases present
  · exact ⟨old, fun same => absurd same.symm distinct⟩
  · split at installed
    · contradiction
    · next kept =>
      rw [if_neg kept]
      refine ⟨old, fun _ same => kept ?_⟩
      rw [installed, same]
      exact beq_self_eq_true _

/-- A slot without a live flight is not that of one. -/
theorem Live.slot_ne {cache : Cache V} {number slot : Nat} {flight : Flight V} {found : Slot V}
    (live : cache.Live number flight) (present : cache.slots[flight.slot]? = some found)
    (installed : found.flight = some number) (vacant : cache.liveFlight? slot = none) : slot ≠ flight.slot := by
  rintro rfl
  have occupied :=
    liveFlight?_eq_some_iff.mpr ⟨found, flight, present, installed, live.present, live.uncancelled⟩
  rw [vacant] at occupied
  contradiction

namespace Placed

variable {cache next : Cache V}

theorem empty (maxEntries : Nat) : Placed (Cache.empty maxEntries : Cache V) := by
  constructor
  · simp [Cache.empty]
  · simp [Cache.empty]
  · simp [Cache.empty]
  · simp [Cache.empty]
  · intro number flight live
    simpa [Cache.empty] using live.present

/-- Keys may be forgotten and scopes be cancelled. -/
theorem forget (placed : Placed cache) (keys : next.keys.Sublist cache.keys) (slots : next.slots = cache.slots)
    (flights : next.flights = cache.flights)
    (cancelled : ∀ token, cache.clock.isCancelled token = true → next.clock.isCancelled token = true) :
    Placed next := by
  constructor
  · exact placed.keys_nodup.sublist (keys.map Prod.fst)
  · rw [slots]
    exact fun key slot member => placed.slot_of_key key slot (keys.subset member)
  · rw [slots, flights]; exact placed.slot_of_flight
  · rw [slots, flights]; exact placed.installed
  · intro number flight live
    rw [slots]
    refine placed.live number flight ⟨flights ▸ live.present, live.running, ?_⟩
    by_contra was
    have is := cancelled _ (by simpa using was)
    rw [live.uncancelled] at is
    contradiction

theorem modifySlot (placed : Placed cache) (slot : Nat) {change : Slot V → Slot V} (amends : Amends change) :
    Placed (cache.modifySlot slot change) := by
  have keeps : KeepsKeys cache (cache.modifySlot slot change) := .of_modify rfl fun found => (amends found).1
  constructor
  · exact placed.keys_nodup
  · exact fun key s member => keeps.owner (placed.slot_of_key key s member)
  · exact fun number flight present => keeps.owner (placed.slot_of_flight number flight present)
  · intro s found' number present installed
    obtain ⟨found, old, ⟨_, rfl⟩ | ⟨_, rfl⟩⟩ := getElem?_modify_cases present
    · exact placed.installed s found' number old installed
    · exact placed.installed s found number old ((amends found).2.symm.trans installed)
  · intro number flight live
    obtain ⟨found, present, installed⟩ := placed.live number flight ⟨live.present, live.running, live.uncancelled⟩
    simp only [Cache.modifySlot, Array.getElem?_modify, present]
    split
    · exact ⟨_, rfl, (amends found).2.trans installed⟩
    · exact ⟨_, rfl, installed⟩

/-- A flight may change in what is not about its place, and may cease to run without landing. -/
theorem modifyFlight (placed : Placed cache) (number : Nat) {change : Flight V → Flight V}
    (same : ∀ flight, (change flight).key = flight.key ∧ (change flight).slot = flight.slot ∧
      (change flight).token = flight.token)
    (running : ∀ flight, cache.flights[number]? = some flight → (change flight).isRunning = true →
      flight.isRunning = true)
    (landed : ∀ flight, cache.flights[number]? = some flight → (change flight).hasLanded = true →
      flight.hasLanded = true) :
    Placed (cache.modifyFlight number change) := by
  have back : ∀ (n : Nat) (flight' : Flight V), (cache.flights.modify number change)[n]? = some flight' →
      ∃ flight, cache.flights[n]? = some flight ∧ flight'.key = flight.key ∧ flight'.slot = flight.slot ∧
        flight'.token = flight.token ∧ (flight'.isRunning = true → flight.isRunning = true) := by
    intro n flight' present
    obtain ⟨flight, found, ⟨_, rfl⟩ | ⟨rfl, rfl⟩⟩ := getElem?_modify_cases present
    · exact ⟨flight', found, rfl, rfl, rfl, id⟩
    · obtain ⟨key, slot, token⟩ := same flight
      exact ⟨flight, found, key, slot, token, running flight found⟩
  constructor
  · exact placed.keys_nodup
  · exact placed.slot_of_key
  · intro n flight' present
    obtain ⟨flight, found, key, slot, _⟩ := back n flight' present
    rw [key, slot]
    exact placed.slot_of_flight n flight found
  · intro slot found n present installed
    obtain ⟨flight, known, owned, aloft⟩ := placed.installed slot found n present installed
    simp only [Cache.modifyFlight, Array.getElem?_modify, known]
    split
    · next equal =>
      subst equal
      refine ⟨_, rfl, (same flight).2.1.trans owned, ?_⟩
      by_contra down
      have was := landed flight known (by simpa using down)
      rw [aloft] at was
      contradiction
    · exact ⟨flight, rfl, owned, aloft⟩
  · intro n flight' live
    obtain ⟨flight, found, _, slot, token, runs⟩ := back n flight' live.present
    rw [slot]
    exact placed.live n flight ⟨found, runs live.running, token ▸ live.uncancelled⟩

theorem openSlot (placed : Placed cache) {key : String} (access : Nat) (absent : cache.keys.lookup key = none) :
    Placed { cache with
      keys := cache.keys ++ [(key, cache.slots.size)]
      slots := cache.slots.push { key, lastAccess := access } } := by
  have keeps : KeepsKeys cache { cache with
      keys := cache.keys ++ [(key, cache.slots.size)]
      slots := cache.slots.push { key, lastAccess := access } } := .of_push rfl
  constructor
  · rw [List.map_append, List.nodup_append]
    refine ⟨placed.keys_nodup, by simp, ?_⟩
    rintro known member new new_mem rfl
    obtain rfl : known = key := by simpa using new_mem
    obtain ⟨pair, there, rfl⟩ := List.mem_map.mp member
    simpa using List.lookup_eq_none_iff.mp absent pair there
  · intro key' s member
    rcases List.mem_append.mp member with member | member
    · exact keeps.owner (placed.slot_of_key key' s member)
    · obtain ⟨rfl, rfl⟩ := Prod.mk.inj (List.mem_singleton.mp member)
      exact ⟨_, Array.getElem?_push_size, rfl⟩
  · exact fun number flight present => keeps.owner (placed.slot_of_flight number flight present)
  · intro s found number present installed
    rcases getElem?_push_cases present with ⟨_, before⟩ | ⟨_, rfl⟩
    · exact placed.installed s found number before installed
    · contradiction
  · intro number flight live
    obtain ⟨found, present, installed⟩ := placed.live number flight ⟨live.present, live.running, live.uncancelled⟩
    exact ⟨found, getElem?_push_of_some _ present, installed⟩

theorem launch (placed : Placed cache) {key : String} {slot : Nat} (policy : Policy) (trigger : Trigger)
    (waiters : Nat) (known : cache.keys.lookup key = some slot) (vacant : cache.liveFlight? slot = none) :
    Placed (cache.launch key slot policy trigger waiters).2 := by
  have slots : (cache.launch key slot policy trigger waiters).2.slots =
      cache.slots.modify slot fun found => { found with flight := some cache.flights.size } := rfl
  have keeps : KeepsKeys cache (cache.launch key slot policy trigger waiters).2 := .of_modify slots fun _ => rfl
  have own := placed.slot_of_key key slot (mem_of_lookup known)
  constructor
  · exact placed.keys_nodup
  · exact fun key' s member => keeps.owner (placed.slot_of_key key' s member)
  · intro n flight found
    rcases launch_flight_cases found with ⟨_, old⟩ | ⟨_, rfl, rfl, _⟩
    · exact keeps.owner (placed.slot_of_flight n flight old)
    · exact keeps.owner own
  · intro s found' number present' installed
    obtain ⟨found, before, ⟨_, rfl⟩ | ⟨same, rfl⟩⟩ := getElem?_modify_cases present'
    · obtain ⟨flight, old, owned, aloft⟩ := placed.installed s found' number before installed
      exact ⟨flight, getElem?_push_of_some _ old, owned, aloft⟩
    · obtain rfl : cache.flights.size = number := Option.some.inj installed
      exact ⟨_, Array.getElem?_push_size, same, rfl⟩
  · intro n flight live
    rcases launch_flight_cases live.present with ⟨_, old⟩ | ⟨rfl, rfl, _⟩
    · have before : cache.Live n flight := ⟨old, live.running, live.uncancelled⟩
      obtain ⟨found, owned, installed⟩ := placed.live n flight before
      have other := before.slot_ne owned installed vacant
      exact ⟨found, (getElem?_modify_of_ne _ _ other).trans owned, installed⟩
    · obtain ⟨found, present, _⟩ := own
      exact ⟨_, getElem?_modify_self _ present, rfl⟩

/-- A flight that lands leaves its slot, unless another one took it over. -/
theorem land (placed : Placed cache) {number : Nat} {flight : Flight V}
    (present : cache.flights[number]? = some flight) (result : Except Failure V) (outcome : WorkOutcome) :
    Placed ((cache.uninstall number flight).close number (.landed result) outcome) := by
  have slots : ((cache.uninstall number flight).close number (.landed result) outcome).slots =
      cache.slots.modify flight.slot fun found =>
        if found.flight == some number then { found with flight := none } else found := rfl
  have keeps : KeepsKeys cache ((cache.uninstall number flight).close number (.landed result) outcome) :=
    .of_modify slots fun found => by split <;> rfl
  have flights : ∀ (n : Nat) (flight' : Flight V),
      ((cache.uninstall number flight).close number (.landed result) outcome).flights[n]? = some flight' →
      n ≠ number ∧ cache.flights[n]? = some flight' ∨
        n = number ∧ flight'.slot = flight.slot ∧ flight'.key = flight.key ∧ flight'.isRunning = false := by
    intro n flight' present'
    obtain ⟨before, there, ⟨other, rfl⟩ | ⟨rfl, rfl⟩⟩ := getElem?_modify_cases present'
    · exact .inl ⟨Ne.symm other, there⟩
    · obtain rfl : flight = before := Option.some.inj (present.symm.trans there)
      exact .inr ⟨rfl, rfl, rfl, rfl⟩
  constructor
  · exact placed.keys_nodup
  · exact fun key s member => keeps.owner (placed.slot_of_key key s member)
  · intro n flight' present'
    rcases flights n flight' present' with ⟨_, old⟩ | ⟨_, slot, key, _⟩
    · exact keeps.owner (placed.slot_of_flight n flight' old)
    · rw [slot, key]
      exact keeps.owner (placed.slot_of_flight number flight present)
  · intro s found n known installed
    obtain ⟨old, own⟩ := installed_of_uninstall known installed
    obtain ⟨other, there, owned, aloft⟩ := placed.installed s found n old installed
    have distinct : number ≠ n := by
      rintro rfl
      obtain rfl := Option.some.inj (present.symm.trans there)
      exact own owned.symm rfl
    exact ⟨other, (getElem?_modify_of_ne _ _ distinct).trans there, owned, aloft⟩
  · intro n flight' live
    rcases flights n flight' live.present with ⟨distinct, old⟩ | ⟨_, _, _, down⟩
    · obtain ⟨found, owned, installed⟩ := placed.live n flight' ⟨old, live.running, live.uncancelled⟩
      exact ⟨found, getElem?_uninstall flight distinct owned installed, installed⟩
    · have up := live.running
      rw [down] at up
      contradiction

end Placed

theorem lookup_filter_of_pos {keys : List (String × Nat)} {key : String} {slot : Nat} (keep : String × Nat → Bool)
    (known : keys.lookup key = some slot) (kept : keep (key, slot) = true) :
    (keys.filter keep).lookup key = some slot := by
  obtain ⟨before, after, rfl, absent⟩ := List.lookup_eq_some_iff.mp known
  have none : (before.filter keep).lookup key = none :=
    List.lookup_eq_none_iff.mpr fun pair member => absent pair (List.mem_filter.mp member).1
  rw [List.filter_append, List.lookup_append, none, List.filter_cons, if_pos kept, List.lookup_cons_self, Option.none_or]

theorem lookup_purge {cache : Cache V} {key : String} {slot : Nat} (known : cache.keys.lookup key = some slot)
    (busy : cache.isIdle slot = false) : cache.purge.2.keys.lookup key = some slot :=
  lookup_filter_of_pos _ known (by simp [busy])

namespace Placed

variable {cache next : Cache V}

/-- The slot of a live flight is not idle. -/
theorem busy (placed : Placed cache) {number : Nat} {flight : Flight V} (live : cache.Live number flight) :
    cache.isIdle flight.slot = false := by
  obtain ⟨found, present, installed⟩ := placed.live number flight live
  simp [isIdle, present, installed]

/-- A key has one slot. -/
theorem only (placed : Placed cache) {key : String} {slot : Nat} (present : (key, slot) ∈ cache.keys)
    {pair : String × Nat} (member : pair ∈ cache.keys) (same : pair.1 = key) : pair = (key, slot) :=
  List.inj_on_of_nodup_map placed.keys_nodup member present same

/-- Dropping a key whose slot is idle drops no key whose slot is not. -/
theorem lookup_dropKey (placed : Placed cache) {key other : String} {slot own : Nat}
    (present : (key, slot) ∈ cache.keys) (idle : cache.isIdle slot = true)
    (known : cache.keys.lookup other = some own) (busy : cache.isIdle own = false) :
    (cache.dropKey key).keys.lookup other = some own := by
  refine lookup_filter_of_pos _ known (bne_iff_ne.mpr fun same => ?_)
  have one := placed.only present (mem_of_lookup known) same
  rw [(Prod.mk.inj one).2, idle] at busy
  contradiction

theorem leave (placed : Placed cache) (number : Nat) : Placed (cache.leave number) := by
  have counted : Placed (cache.modifyFlight number fun flight => { flight with waiters := flight.waiters - 1 }) :=
    placed.modifyFlight number (fun _ => ⟨rfl, rfl, rfl⟩) (fun _ _ => id) (fun _ _ => id)
  obtain ⟨clock, rfl | ⟨token, rfl⟩, same⟩ := cache.leave_eq number
  · rw [same]
    exact counted
  · rw [same]
    exact counted.forget (.refl _) rfl rfl fun _ => Clock.isCancelled_cancel_of_isCancelled

theorem move {before after : Stage V} (placed : Placed before.1) (move : Move before after) :
    Placed after.1 := by
  cases move with
  | count => exact placed.forget (.refl _) rfl rfl fun _ => id
  | tick => exact placed.forget (.refl _) rfl rfl fun _ => id
  | clock parent => exact placed.forget (.refl _) rfl rfl fun _ => id
  | evict => exact placed.forget List.filter_sublist rfl rfl fun _ => id
  | openSlot access absent => exact placed.openSlot access absent
  | amend slot amends => exact placed.modifySlot slot amends
  | launch policy waiters known vacant => exact placed.launch policy _ waiters known vacant
  | join live => exact placed.modifyFlight _ (fun _ => ⟨rfl, rfl, rfl⟩) (fun _ _ => id) (fun _ _ => id)
  | detach holding => exact placed.modifyFlight _ (fun _ => ⟨rfl, rfl, rfl⟩) (fun _ _ => id) (fun _ _ => id)
  | leave flight => exact placed.leave flight
  | serve => exact placed.forget (.refl _) rfl rfl fun _ => id
  | await => exact placed.forget (.refl _) rfl rfl fun _ => id
  | retire => exact placed.forget (.refl _) rfl rfl fun _ => id

theorem moves {source target : Stage V} (placed : Placed source.1) (moves : Moves V source target) : Placed target.1 :=
  @Moves.invariant V (fun stage => Placed stage.1) _ _ moves (fun _ _ => move) placed

theorem turnFlight (placed : Placed cache) {number : Nat} {work : Option (WorkEnd V)}
    (turn : cache.turnFlight? number work = some next) : Placed next := by
  obtain ⟨flight, present, ⟨queued, rfl⟩ | ⟨deadline, ending, working, _, rfl⟩⟩ := turnFlight?_eq_some_iff.mp turn
  · refine placed.modifyFlight number (fun _ => ⟨rfl, rfl, rfl⟩) (fun found there _ => ?_) (fun _ _ => nofun)
    obtain rfl := Option.some.inj (present.symm.trans there)
    simp [Flight.isRunning, queued]
  · rcases endFlight_cases cache number flight ending with
      ⟨_, outcome, same⟩ | ⟨result, middle, outcome, _, moves, flights, _, _, same⟩
    · rw [same]
      exact placed.modifyFlight number (fun _ => ⟨rfl, rfl, rfl⟩) (fun _ _ => nofun) (fun _ _ => nofun)
    · rw [same]
      exact (placed.moves moves).land (flights ▸ present) result outcome

theorem step {event : Event V} (placed : Placed cache) (step : cache.step? event = some next) : Placed next := by
  cases event with
  | begin key policy deadline => cases step; exact placed.moves (begin_moves cache key policy deadline)
  | flight number work => exact placed.turnFlight step
  | call number => exact placed.moves (turnCall?_moves step)
  | drop number => cases step; exact placed.moves (dropCall_moves cache number)
  | purge => cases step; exact placed.forget List.filter_sublist rfl rfl fun _ => id
  | remove key => cases step; exact placed.forget List.filter_sublist rfl rfl fun _ => id
  | pass instant => cases step; exact placed.forget (.refl _) rfl rfl fun _ => id
  | scope parent =>
    cases parent with
    | none => cases step; exact placed.forget (.refl _) rfl rfl fun _ => id
    | some parent => cases step; exact placed.forget (.refl _) rfl rfl fun _ => id
  | cancel token => cases step; exact placed.forget (.refl _) rfl rfl fun _ => Clock.isCancelled_cancel_of_isCancelled

end Placed

/-- Keys, slots and flights fit together whatever happens. -/
theorem Reachable.placed {rule : Rule V} {cache : Cache V} (reachable : Reachable rule cache) : Placed cache :=
  reachable.invariant (fun _ _ _ placed _ => Placed.step placed) Placed.empty

end HedgedForecast.Cache
