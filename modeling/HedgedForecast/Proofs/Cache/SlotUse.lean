import HedgedForecast.Proofs.Cache.Launches
import HedgedForecast.Proofs.Cache.Retention

/-! # What events make of slots

A call uses the slot of its key in one of seven ways, as the slot's entry, its flight and its last refresh say. A
flight that ends leaves its slot, and may store a value there. Nothing else changes what is in slots; and only
calls launch flights, at most one each, for the slot that they use.
-/

namespace HedgedForecast

variable {V : Type}

/-- The slot after the flight has left it, if it was there. -/
def Slot.without (found : Slot V) (number : Nat) : Slot V :=
  if found.flight == some number then { found with flight := none } else found

theorem Slot.without_eq (found : Slot V) (number : Nat) :
    found.without number = { found with flight := (found.without number).flight } := by
  unfold without
  split <;> rfl

@[simp] theorem Slot.without_entry (found : Slot V) (number : Nat) : (found.without number).entry = found.entry := by
  rw [without_eq]

theorem Slot.without_flight {found : Slot V} {number other : Nat}
    (installed : (found.without number).flight = some other) : found.flight = some other := by
  unfold without at installed
  split at installed
  · contradiction
  · exact installed

theorem Slot.without_self {found : Slot V} {number : Nat} (installed : found.flight = some number) :
    found.without number = { found with flight := none } := by
  rw [without, installed, if_pos (beq_self_eq_true _)]

namespace Cache

/-- For this reason a flight of the slot was launched between the two caches, or without a reason none, and no
flight of other slots. -/
inductive Launches (cache next : Cache V) (slot : Nat) : Option Trigger → Prop
  | nothing (size : next.flights.size = cache.flights.size) : Launches cache next slot none
  | one {flight : Flight V} {trigger : Trigger} (size : next.flights.size = cache.flights.size + 1)
      (present : next.flights[cache.flights.size]? = some flight) (own : flight.slot = slot)
      (reason : flight.trigger = trigger) : Launches cache next slot (some trigger)

/-- How a call under the policy uses the slot in which it finds that: why it launches a flight, if it does, and what
it leaves in the slot. -/
inductive Uses (cache : Cache V) (policy : Policy) (slot : Nat) (found : Slot V) : Option Trigger → Slot V → Prop
  | hit {entry : Entry V} (has : found.entry = some entry) (fresh : cache.clock.now < entry.expiresAt)
      (idle : entry.eagerDue cache.clock.now = true → entry.refreshing = true) :
      Uses cache policy slot found none found
  /-- A refresh is due, but there is a flight already. -/
  | marked {entry : Entry V} {flight : Nat} (has : found.entry = some entry)
      (fresh : cache.clock.now < entry.expiresAt) (due : entry.eagerDue cache.clock.now = true)
      (unclaimed : entry.refreshing = false) (live : cache.liveFlight? slot = some flight) :
      Uses cache policy slot found none { found with entry := some { entry with refreshing := true } }
  | eager {entry : Entry V} (has : found.entry = some entry) (fresh : cache.clock.now < entry.expiresAt)
      (due : entry.eagerDue cache.clock.now = true) (unclaimed : entry.refreshing = false)
      (vacant : cache.liveFlight? slot = none) :
      Uses cache policy slot found (some .eager)
        { found with entry := some { entry with refreshing := true }, flight := some cache.flights.size }
  | joined {flight : Nat} (expired : ∀ entry, found.entry = some entry → entry.expiresAt ≤ cache.clock.now)
      (live : cache.liveFlight? slot = some flight) : Uses cache policy slot found none found
  | throttled {entry : Entry V} {instant : Nat} (has : found.entry = some entry)
      (expired : entry.expiresAt ≤ cache.clock.now) (servable : cache.IsServable policy entry)
      (vacant : cache.liveFlight? slot = none) (refreshed : found.lastRefresh = some instant)
      (recent : cache.clock.now - instant < policy.throttle) : Uses cache policy slot found none found
  | stale {entry : Entry V} (has : found.entry = some entry) (expired : entry.expiresAt ≤ cache.clock.now)
      (servable : cache.IsServable policy entry) (vacant : cache.liveFlight? slot = none)
      (free : ∀ instant, found.lastRefresh = some instant → policy.throttle ≤ cache.clock.now - instant) :
      Uses cache policy slot found (some .stale)
        { found with lastRefresh := some cache.clock.now, flight := some cache.flights.size }
  | cold (nothing : ∀ entry, found.entry = some entry → ¬ cache.IsServable policy entry)
      (vacant : cache.liveFlight? slot = none) :
      Uses cache policy slot found (some .cold) { found with flight := some cache.flights.size }

/-- The next cache has that in the slot, and a flight was launched for this reason. -/
structure Leaves (cache next : Cache V) (slot : Nat) (trigger : Option Trigger) (later : Slot V) : Prop where
  present : next.slots[slot]? = some later
  launches : Launches cache next slot trigger

section Launching

variable {cache middle next : Cache V} {slot : Nat} {trigger : Option Trigger} {found later : Slot V}

theorem Launches.follow (launches : Launches cache middle slot trigger) (extended : Extends next middle)
    (size : next.flights.size = middle.flights.size) : Launches cache next slot trigger := by
  cases launches with
  | nothing same => exact .nothing (size.trans same)
  | one more present own reason =>
    obtain ⟨later, there, follows⟩ := extended.flights _ _ present
    exact .one (size.trans more) there (follows.slot.trans own) (follows.trigger.trans reason)

theorem Launches.of_flights (launches : Launches middle next slot trigger) (flights : middle.flights = cache.flights) :
    Launches cache next slot trigger := by
  cases launches with
  | nothing same => exact .nothing (same.trans (congrArg Array.size flights))
  | one more present own reason => exact .one (more.trans (by rw [flights])) (flights ▸ present) own reason

/-- With what is on record kept, a flight is an old one or the one that was launched. -/
theorem Launches.flight_cases (launches : Launches cache next slot trigger) (extended : Extends next cache)
    {number : Nat} {flight : Flight V} (present : next.flights[number]? = some flight) :
    (∃ earlier, cache.flights[number]? = some earlier ∧ flight.Follows earlier) ∨
      number = cache.flights.size ∧ flight.slot = slot ∧ trigger = some flight.trigger := by
  cases there : cache.flights[number]? with
  | some earlier =>
    obtain ⟨later, here, follows⟩ := extended.flights number earlier there
    obtain rfl := Option.some.inj (present.symm.trans here)
    exact .inl ⟨earlier, rfl, follows⟩
  | none =>
    have old := Array.getElem?_eq_none_iff.mp there
    obtain ⟨bound, _⟩ := Array.getElem?_eq_some_iff.mp present
    cases launches with
    | nothing size => omega
    | one size new own reason =>
      obtain rfl : number = cache.flights.size := by omega
      obtain rfl := Option.some.inj (present.symm.trans new)
      exact .inr ⟨rfl, own, congrArg some reason.symm⟩

theorem Leaves.refl (present : cache.slots[slot]? = some found) : Leaves cache cache slot none found :=
  ⟨present, .nothing rfl⟩

theorem Leaves.of_flights (leaves : Leaves middle next slot trigger later) (flights : middle.flights = cache.flights) :
    Leaves cache next slot trigger later :=
  ⟨leaves.present, leaves.launches.of_flights flights⟩

theorem Leaves.follow (leaves : Leaves cache middle slot trigger later) (slots : next.slots = middle.slots)
    (extended : Extends next middle) (size : next.flights.size = middle.flights.size) :
    Leaves cache next slot trigger later :=
  ⟨slots ▸ leaves.present, leaves.launches.follow extended size⟩

theorem Leaves.addCall (leaves : Leaves cache middle slot trigger later) (call : Call V) :
    Leaves cache (middle.addCall call).2 slot trigger later :=
  leaves.follow rfl (.addCall middle call) rfl

theorem leaves_launch (present : cache.slots[slot]? = some found) (key : String) (policy : Policy) (trigger : Trigger)
    (waiters : Nat) : Leaves cache (cache.launch key slot policy trigger waiters).2 slot (some trigger)
      { found with flight := some cache.flights.size } :=
  ⟨getElem?_modify_self (fun slot : Slot V => { slot with flight := some cache.flights.size }) present,
    .one (size_launch ..) Array.getElem?_push_size rfl rfl⟩

theorem leaves_modifySlot (present : cache.slots[slot]? = some found) (change : Slot V → Slot V) :
    Leaves cache (cache.modifySlot slot change) slot none (change found) :=
  ⟨getElem?_modify_self change present, .nothing rfl⟩

end Launching

/-- How a slot is used is a matter of time and flights alone. -/
theorem Uses.congr {cache middle : Cache V} {policy : Policy} {slot : Nat} {found later : Slot V}
    {trigger : Option Trigger} (uses : Uses middle policy slot found trigger later)
    (clock : middle.clock = cache.clock) (flights : middle.flights = cache.flights)
    (live : middle.liveFlight? slot = cache.liveFlight? slot) : Uses cache policy slot found trigger later := by
  have usable (entry : Entry V) : middle.IsServable policy entry ↔ cache.IsServable policy entry := by
    unfold IsServable
    rw [clock]
  cases uses with
  | hit has fresh idle => exact .hit has (clock ▸ fresh) (clock ▸ idle)
  | marked has fresh due unclaimed busy => exact .marked has (clock ▸ fresh) (clock ▸ due) unclaimed (live ▸ busy)
  | eager has fresh due unclaimed vacant =>
    rw [flights]
    exact .eager has (clock ▸ fresh) (clock ▸ due) unclaimed (live ▸ vacant)
  | joined expired busy => exact .joined (clock ▸ expired) (live ▸ busy)
  | throttled has expired servable vacant refreshed recent =>
    exact .throttled has (clock ▸ expired) ((usable _).mp servable) (live ▸ vacant) refreshed (clock ▸ recent)
  | stale has expired servable vacant free =>
    rw [flights, clock]
    exact .stale has (clock ▸ expired) ((usable _).mp servable) (live ▸ vacant) (clock ▸ free)
  | cold nothing vacant =>
    rw [flights]
    exact .cold (fun entry has servable => nothing entry has ((usable entry).mpr servable)) (live ▸ vacant)

/-- When the key was last called is nothing to how its slot is used. -/
theorem Uses.of_accessed {cache : Cache V} {policy : Policy} {slot access : Nat} {found later : Slot V}
    {trigger : Option Trigger} (uses : Uses cache policy slot { found with lastAccess := access } trigger later) :
    ∃ before, Uses cache policy slot found trigger before ∧ later = { before with lastAccess := access } := by
  cases uses with
  | hit has fresh idle => exact ⟨found, .hit has fresh idle, rfl⟩
  | marked has fresh due unclaimed busy => exact ⟨_, .marked has fresh due unclaimed busy, rfl⟩
  | eager has fresh due unclaimed vacant => exact ⟨_, .eager has fresh due unclaimed vacant, rfl⟩
  | joined expired busy => exact ⟨found, .joined expired busy, rfl⟩
  | throttled has expired servable vacant refreshed recent =>
    exact ⟨found, .throttled has expired servable vacant refreshed recent, rfl⟩
  | stale has expired servable vacant free => exact ⟨_, .stale has expired servable vacant free, rfl⟩
  | cold nothing vacant => exact ⟨_, .cold nothing vacant, rfl⟩

section Known

variable {cache : Cache V} {slot : Nat} {found : Slot V} {entry : Entry V}

/-- A refresh is started unless there is a flight; the entry is marked in any case. -/
theorem leaves_refreshEagerly (present : cache.slots[slot]? = some found) (has : found.entry = some entry)
    (key : String) (policy : Policy) :
    (∀ flight, cache.liveFlight? slot = some flight →
        Leaves cache (cache.refreshEagerly key slot policy) slot none
          { found with entry := some { entry with refreshing := true } }) ∧
      (cache.liveFlight? slot = none →
        Leaves cache (cache.refreshEagerly key slot policy) slot (some .eager)
          { found with entry := some { entry with refreshing := true }, flight := some cache.flights.size }) := by
  have amends : Amends fun slot : Slot V =>
      { slot with entry := slot.entry.map fun entry => { entry with refreshing := true } } :=
    fun _ => ⟨rfl, rfl⟩
  have marked := leaves_modifySlot present fun slot : Slot V =>
    { slot with entry := slot.entry.map fun entry => { entry with refreshing := true } }
  simp only [has, Option.map_some] at marked
  unfold refreshEagerly
  simp only [liveFlight?_modifySlot cache slot slot amends]
  constructor
  · intro flight live
    simp only [live, Option.isSome_some, if_true]
    exact marked
  · intro vacant
    simp only [vacant, Option.isSome_none, Bool.false_eq_true, if_false]
    exact (leaves_launch marked.present key policy .eager 0).of_flights rfl

theorem isThrottled_iff (present : cache.slots[slot]? = some found) (policy : Policy) :
    cache.isThrottled slot policy = true ↔
      ∃ instant, found.lastRefresh = some instant ∧ cache.clock.now - instant < policy.throttle := by
  unfold isThrottled
  simp only [present, Option.bind_some]
  cases found.lastRefresh <;> simp

theorem uses_beginHit {call : Call V} (present : cache.slots[call.slot]? = some found)
    (has : found.entry = some entry) (fresh : cache.clock.now < entry.expiresAt) :
    ∃ trigger later, Uses cache call.policy call.slot found trigger later ∧
      Leaves cache (cache.beginHit call entry).2 call.slot trigger later := by
  obtain ⟨marked, started⟩ := @leaves_refreshEagerly V (cache.count fun stats => { stats with hits := stats.hits + 1 })
    call.slot found entry present has call.key call.policy
  unfold beginHit
  simp only
  split
  · next refresh =>
    simp only [Bool.and_eq_true, Bool.not_eq_true'] at refresh
    obtain ⟨due, unclaimed⟩ := refresh
    cases live : cache.liveFlight? call.slot with
    | some flight =>
      exact ⟨_, _, .marked has fresh due unclaimed live, ((marked flight live).addCall _).of_flights rfl⟩
    | none =>
      exact ⟨_, _, .eager has fresh due unclaimed live, ((started live).addCall _).of_flights rfl⟩
  · next idle =>
    simp only [Bool.and_eq_true, Bool.not_eq_true', not_and, Bool.not_eq_false] at idle
    exact ⟨_, _, .hit has fresh idle, present, .nothing rfl⟩

/-- After the holder of a stale value has looked for a flight, no more happens to slots, nor are flights launched. -/
theorem beginStale_follows (cache : Cache V) (call : Call V) (entry : Entry V) :
    ∃ middle, middle = ((cache.count fun stats => { stats with staleHits := stats.staleHits + 1 }).staleFlight?
        call.key call.slot call.policy).2 ∧ (cache.beginStale call entry).2.slots = middle.slots ∧
      Extends (cache.beginStale call entry).2 middle ∧
      (cache.beginStale call entry).2.flights.size = middle.flights.size := by
  refine ⟨_, rfl, ?_⟩
  unfold beginStale
  simp only
  generalize staleFlight? _ _ _ _ = looked
  rcases looked with ⟨_ | flight, next⟩
  · exact ⟨rfl, .addCall .., rfl⟩
  · simp only
    split
    · have detached : Extends (next.detach flight) next :=
        .modifyFlight next flight fun _ _ => ⟨rfl, rfl, rfl, rfl, rfl, rfl, fun _ => rfl⟩
      have left := (Extends.leave (next.detach flight) flight).trans detached
      exact ⟨leave_slots .., (Extends.addCall ..).trans left, (leave_flights_size ..).trans (size_detach ..)⟩
    · have tightened : Extends { next with clock := (next.clock.childToken call.deadline.token).2 } next :=
        .clock next _ (Nat.le_refl _) fun _ => id
      exact ⟨rfl, (Extends.addCall ..).trans tightened, rfl⟩

theorem uses_staleFlight? (present : cache.slots[slot]? = some found) (has : found.entry = some entry)
    (expired : entry.expiresAt ≤ cache.clock.now) {policy : Policy} (servable : cache.IsServable policy entry)
    (key : String) :
    ∃ trigger later, Uses cache policy slot found trigger later ∧
      Leaves cache (cache.staleFlight? key slot policy).2 slot trigger later := by
  have throttling := isThrottled_iff present policy
  unfold staleFlight?
  cases live : cache.liveFlight? slot with
  | some flight =>
    refine ⟨_, _, .joined (fun other own => ?_) live, present, .nothing (size_join ..)⟩
    rw [has] at own
    exact Option.some.inj own ▸ expired
  | none =>
    simp only
    split
    · next throttled =>
      obtain ⟨instant, refreshed, recent⟩ := throttling.mp throttled
      exact ⟨_, _, .throttled has expired servable live refreshed recent, .refl present⟩
    · next free =>
      refine ⟨_, _, .stale has expired servable live fun instant refreshed => ?_, ?_⟩
      · by_contra recent
        exact free (throttling.mpr ⟨instant, refreshed, Nat.lt_of_not_le recent⟩)
      · have dated := leaves_modifySlot present fun slot : Slot V =>
          { slot with lastRefresh := some cache.clock.now }
        exact (leaves_launch dated.present key policy .stale 1).of_flights rfl

theorem uses_coldFlight (present : cache.slots[slot]? = some found) {policy : Policy}
    (nothing : ∀ entry, found.entry = some entry → ¬ cache.IsServable policy entry) (key : String) :
    ∃ trigger later, Uses cache policy slot found trigger later ∧
      Leaves cache (cache.coldFlight key slot policy).2 slot trigger later := by
  unfold coldFlight
  cases live : cache.liveFlight? slot with
  | some flight =>
    refine ⟨_, _, .joined (fun entry has => ?_) live, present, .nothing (size_join ..)⟩
    exact Nat.le_of_not_lt (not_or.mp (nothing entry has)).1
  | none => exact ⟨_, _, .cold nothing live, leaves_launch present key policy .cold 1⟩

theorem uses_beginStale {call : Call V} (present : cache.slots[call.slot]? = some found)
    (has : found.entry = some entry) (expired : entry.expiresAt ≤ cache.clock.now)
    (servable : cache.IsServable call.policy entry) :
    ∃ trigger later, Uses cache call.policy call.slot found trigger later ∧
      Leaves cache (cache.beginStale call entry).2 call.slot trigger later := by
  obtain ⟨middle, same, slots, extended, size⟩ := beginStale_follows cache call entry
  obtain ⟨trigger, later, uses, leaves⟩ := @uses_staleFlight? V
    (cache.count fun stats => { stats with staleHits := stats.staleHits + 1 }) call.slot found entry present has
    expired call.policy servable call.key
  rw [← same] at leaves
  exact ⟨trigger, later, uses.congr rfl rfl rfl, (leaves.follow slots extended size).of_flights rfl⟩

theorem uses_beginCold {call : Call V} (present : cache.slots[call.slot]? = some found)
    (nothing : ∀ entry, found.entry = some entry → ¬ cache.IsServable call.policy entry) :
    ∃ trigger later, Uses cache call.policy call.slot found trigger later ∧
      Leaves cache (cache.beginCold call).2 call.slot trigger later := by
  obtain ⟨trigger, later, uses, leaves⟩ := @uses_coldFlight V
    (cache.count fun stats => { stats with misses := stats.misses + 1 }) call.slot found present call.policy nothing
    call.key
  exact ⟨trigger, later, uses.congr rfl rfl rfl, (leaves.addCall _).of_flights rfl⟩

end Known

section Begin

variable {cache : Cache V} {key : String} {slot : Nat} {found : Slot V}

/-- What a call finds in the slot of its key, with its own number already in it. -/
theorem touch_slot (known : cache.keys.lookup key = some slot) (present : cache.slots[slot]? = some found) :
    (cache.touch key).2.slots[(cache.touch key).1]? = some { found with lastAccess := cache.tick } := by
  rw [touch_known known]
  exact getElem?_modify_self (fun old : Slot V => { old with lastAccess := cache.tick }) present

/-- A call on a key uses its slot and notes that it did. -/
theorem begin_uses (known : cache.keys.lookup key = some slot) (present : cache.slots[slot]? = some found)
    (policy : Policy) (deadline : Deadline) :
    ∃ trigger later, Uses cache policy slot found trigger later ∧
      Leaves cache (cache.begin key policy deadline).2 slot trigger { later with lastAccess := cache.tick } := by
  have own : (cache.touch key).1 = slot := by rw [touch_known known]
  obtain ⟨clock, flights, _⟩ := touch_frame cache key
  have live := liveFlight?_touch cache key
  have touched := touch_slot known present
  have entries {entry : Entry V} : cache.entryFor key = some entry ↔ found.entry = some entry := by
    rw [entryFor, known, Option.bind_some, entryOf, present, Option.bind_some]
  have usable (entry : Entry V) : (cache.touch key).2.IsServable policy entry ↔ cache.IsServable policy entry := by
    unfold IsServable
    rw [clock]
  suffices used : ∃ trigger later, Uses (cache.touch key).2 policy (cache.touch key).1
      { found with lastAccess := cache.tick } trigger later ∧
        Leaves (cache.touch key).2 (cache.begin key policy deadline).2 (cache.touch key).1 trigger later by
    rw [flightFor, known, own, Option.bind_some] at live
    obtain ⟨trigger, later, uses, leaves⟩ := used
    rw [own] at uses leaves
    obtain ⟨before, used, rfl⟩ := (uses.congr clock flights live).of_accessed
    exact ⟨trigger, before, used, leaves.of_flights flights⟩
  rcases begin_cases cache key policy deadline with
    ⟨entry, has, fresh, same⟩ | ⟨entry, has, expired, failSafe, servable, same⟩ | ⟨nothing, same⟩
  · rw [same]
    exact @uses_beginHit V _ _ entry (cache.opening key policy deadline) touched (entries.mp has) (clock ▸ fresh)
  · rw [same]
    exact @uses_beginStale V _ _ entry (cache.opening key policy deadline) touched (entries.mp has) (clock ▸ expired)
      ((usable entry).mpr (.inr ⟨failSafe, servable⟩))
  · rw [same]
    exact @uses_beginCold V _ _ (cache.opening key policy deadline) touched
      fun entry has servable => nothing entry (entries.mpr has) ((usable entry).mp servable)

/-- For a new key there is nothing to serve, whatever the policy says. -/
theorem not_isServable_of_absent (absent : cache.keys.lookup key = none) (policy : Policy) (entry : Entry V)
    (found : cache.entryFor key = some entry) : ¬ cache.IsServable policy entry := by
  rw [entryFor, absent] at found
  contradiction

/-- In the slot of a new key there is no flight to join. -/
theorem liveFlight?_touch_of_absent (absent : cache.keys.lookup key = none) :
    (cache.touch key).2.liveFlight? (cache.touch key).1 = none := by
  rw [liveFlight?_touch, flightFor, absent]
  rfl

end Begin

/-- Slots are as they were, no flight was launched, and no call has begun. -/
structure KeepsSlots (cache next : Cache V) : Prop where
  slots : next.slots = cache.slots
  flights : next.flights.size = cache.flights.size
  tick : next.tick = cache.tick

/-- What an event makes of slots. -/
inductive Reworks (cache next : Cache V) : Event V → Prop
  | quiet {event : Event V} (silent : event.asker = none) (kept : KeepsSlots cache next) : Reworks cache next event
  /-- A call uses the slot of its key. -/
  | asked {key : String} {policy : Policy} {deadline : Deadline} {slot : Nat} {found later : Slot V}
      {trigger : Option Trigger} (known : cache.keys.lookup key = some slot) (present : cache.slots[slot]? = some found)
      (uses : Uses cache policy slot found trigger later)
      (leaves : Leaves cache next slot trigger { later with lastAccess := cache.tick })
      (others : SlotsBut slot cache next) : Reworks cache next (.begin key policy deadline)
  /-- A call gives a new key a slot. -/
  | opened {key : String} {policy : Policy} {deadline : Deadline} (absent : cache.keys.lookup key = none)
      (leaves : Leaves cache next cache.slots.size (some .cold)
        { key, lastAccess := cache.tick, flight := some cache.flights.size })
      (others : SlotsBut cache.slots.size cache next) : Reworks cache next (.begin key policy deadline)
  /-- A flight ends and leaves its slot. -/
  | left {number : Nat} {work : Option (WorkEnd V)} {flight : Flight V} {found : Slot V}
      (present : cache.flights[number]? = some flight) (there : cache.slots[flight.slot]? = some found)
      (leaves : Leaves cache next flight.slot none (found.without number))
      (others : SlotsBut flight.slot cache next) : Reworks cache next (.flight number work)
  /-- A flight ends, stores its value in its slot and leaves it. -/
  | stored {number : Nat} {flight : Flight V} {found : Slot V} {value : V} (live : cache.Live number flight)
      (point : flight.policy.eagerPoint ≠ .undefined) (there : cache.slots[flight.slot]? = some found)
      (leaves : Leaves cache next flight.slot none { found with
        entry := some { value, storedAt := cache.clock.now, policy := flight.policy, flight := number }
        flight := none })
      (others : SlotsBut flight.slot cache next) : Reworks cache next (.flight number (some (.value value)))

section Events

variable {cache middle next : Cache V} {number : Nat}

theorem KeepsSlots.leave (kept : KeepsSlots cache middle) (number : Nat) : KeepsSlots cache (middle.leave number) := by
  refine ⟨(leave_slots ..).trans kept.slots, (leave_flights_size ..).trans kept.flights, ?_⟩
  obtain ⟨clock, _, same⟩ := middle.leave_eq number
  rw [same]
  exact kept.tick

theorem keepsSlots_turnCall (turn : cache.turnCall? number = some next) : KeepsSlots cache next := by
  have returned (answer : Except Failure V) : KeepsSlots cache (cache.returnCall number answer) := ⟨rfl, rfl, rfl⟩
  obtain ⟨call, flight, _, _, ending⟩ := turnCall?_ending turn
  cases ending with
  | left answer => exact (returned answer).leave flight
  | evicted answer =>
    have kept := (returned answer).leave flight
    exact ⟨kept.slots, kept.flights, kept.tick⟩
  | detached answer =>
    have detached : KeepsSlots cache ((cache.returnCall number answer).detach flight) := ⟨rfl, size_detach .., rfl⟩
    exact detached.leave flight

theorem keepsSlots_dropCall (cache : Cache V) (number : Nat) : KeepsSlots cache (cache.dropCall number) := by
  have gone : KeepsSlots cache (cache.modifyCall number fun call => { call with phase := .dropped }) := ⟨rfl, rfl, rfl⟩
  rcases dropCall_eq cache number with ⟨same, _⟩ | ⟨_, flight, _, _, left⟩
  · rw [same]
    exact ⟨rfl, rfl, rfl⟩
  · rw [left]
    exact gone.leave flight

theorem reworks_opened {key : String} (absent : cache.keys.lookup key = none) (policy : Policy) (deadline : Deadline) :
    Reworks cache (cache.begin key policy deadline).2 (.begin key policy deadline) := by
  have others := SlotsBut.begin cache key policy deadline
  have own := touch_absent_slot absent
  have flights := (touch_frame cache key).2.1
  have vacant := liveFlight?_touch_of_absent absent
  have made : (cache.touch key).2.slots[(cache.touch key).1]? = some { key, lastAccess := cache.tick } := by
    rw [touch_absent absent]
    exact Array.getElem?_push_size
  obtain ⟨trigger, later, uses, leaves⟩ := @uses_beginCold V (cache.touch key).2 { key, lastAccess := cache.tick }
    (cache.opening key policy deadline) made fun _ has => nomatch has
  rw [← begin_empty (not_isServable_of_absent absent policy)] at leaves
  cases uses with
  | hit has | marked has | eager has | throttled has | stale has => contradiction
  | joined _ live =>
    rw [show (cache.touch key).2.liveFlight? (cache.opening key policy deadline).slot = none from vacant] at live
    contradiction
  | cold =>
    have leaves := leaves.of_flights flights
    rw [flights] at leaves
    rw [own] at others
    refine .opened absent ?_ others
    exact own ▸ leaves

theorem Placed.reworks_begin (placed : Placed cache) (key : String) (policy : Policy) (deadline : Deadline) :
    Reworks cache (cache.begin key policy deadline).2 (.begin key policy deadline) := by
  cases known : cache.keys.lookup key with
  | none => exact reworks_opened known policy deadline
  | some slot =>
    have others := SlotsBut.begin cache key policy deadline
    obtain ⟨found, present, _⟩ := placed.slot_of_key key slot (mem_of_lookup known)
    obtain ⟨trigger, later, uses, leaves⟩ := begin_uses known present policy deadline
    rw [touch_known known] at others
    exact .asked known present uses leaves others

/-- A call that begins launches one flight at most. -/
theorem Placed.size_begin (placed : Placed cache) (key : String) (policy : Policy) (deadline : Deadline) :
    (cache.begin key policy deadline).2.flights.size ≤ cache.flights.size + 1 := by
  have most {slot : Nat} {trigger : Option Trigger}
      (launches : Launches cache (cache.begin key policy deadline).2 slot trigger) :
      (cache.begin key policy deadline).2.flights.size ≤ cache.flights.size + 1 := by
    cases launches with
    | nothing size => omega
    | one size => omega
  cases placed.reworks_begin key policy deadline with
  | quiet silent => contradiction
  | asked _ _ _ leaves => exact most leaves.launches
  | opened _ leaves => exact most leaves.launches

section Ending

variable {flight : Flight V} {found : Slot V} (there : cache.slots[flight.slot]? = some found)

include there

theorem uninstall_slot (number : Nat) :
    (cache.uninstall number flight).slots[flight.slot]? = some (found.without number) :=
  getElem?_modify_self (fun slot : Slot V => slot.without number) there

theorem store_slot (value : V) (number : Nat) :
    (cache.store number flight value).slots[flight.slot]? = some { found with
      entry := some { value, storedAt := cache.clock.now, policy := flight.policy, flight := number } } :=
  getElem?_modify_self _ there

/-- A flight leaves its slot and does no more there. -/
theorem reworks_left (present : cache.flights[number]? = some flight) (slots : middle.slots = cache.slots)
    (flights : middle.flights = cache.flights) (phase : FlightPhase V) (outcome : WorkOutcome)
    (work : Option (WorkEnd V)) :
    Reworks cache ((middle.uninstall number flight).close number phase outcome) (.flight number work) := by
  have own := uninstall_slot (slots ▸ there) number
  refine .left present there ⟨own, .nothing (Array.size_modify.trans (congrArg Array.size flights))⟩ ?_
  exact (SlotsBut.of_frame slots _).trans (.modifySlot middle flight.slot fun slot => slot.without number)

/-- A flight stores its value and leaves its slot, which has it until then. -/
theorem Placed.reworks_stored (placed : Placed cache) (live : cache.Live number flight)
    (point : flight.policy.eagerPoint ≠ .undefined) (value : V) (phase : FlightPhase V) (outcome : WorkOutcome) :
    Reworks cache (((cache.store number flight value).uninstall number flight).close number phase outcome)
      (.flight number (some (.value value))) := by
  obtain ⟨found', there', installed⟩ := placed.live number flight live
  obtain rfl := Option.some.inj (there.symm.trans there')
  have own := uninstall_slot (store_slot there value number) number
  refine .stored live point there ⟨own.trans (congrArg some (Slot.without_self installed)), ?_⟩ ?_
  · exact .nothing Array.size_modify
  · exact (SlotsBut.modifySlot cache flight.slot _).trans (.modifySlot _ flight.slot _)

end Ending

/-- A flight whose computation gives something has not been cancelled before. -/
theorem Reachable.live_of_done {rule : Rule V} (reachable : Reachable rule cache) {flight : Flight V}
    {deadline : Deadline} {work : Option (WorkEnd V)} {ended : WorkEnd V}
    (present : cache.flights[number]? = some flight) (working : flight.phase = .working deadline)
    (verdict : deadline.verdict cache.clock work = some (.done ended)) :
    work = some ended ∧ cache.Live number flight := by
  obtain ⟨_, absurd⟩ | ⟨_, _, absurd⟩ | ⟨uncancelled, _, result, done, same⟩ := Deadline.verdict_cases verdict
  · contradiction
  · contradiction
  · cases same
    refine ⟨done, present, by simp [Flight.isRunning, working], ?_⟩
    rw [← (reachable.regular present).own deadline working]
    exact uncancelled

theorem Reachable.reworks_ended {rule : Rule V} (reachable : Reachable rule cache) {flight : Flight V}
    {deadline : Deadline} {work : Option (WorkEnd V)} {ending : GuardEnd (WorkEnd V)}
    (present : cache.flights[number]? = some flight) (working : flight.phase = .working deadline)
    (verdict : deadline.verdict cache.clock work = some ending) :
    Reworks cache (cache.endFlight number flight ending) (.flight number work) := by
  obtain ⟨found, there, _⟩ := reachable.placed.slot_of_flight number flight present
  generalize ended : cache.endFlight number flight ending = next
  cases endFlight_landing ended with
  | failed => exact @reworks_left V cache (cache.count _) number flight found there present rfl rfl _ _ work
  | lost => exact .quiet rfl ⟨rfl, Array.size_modify, rfl⟩
  | passed => exact reworks_left there present rfl rfl _ _ work
  | @stored value _ _ named =>
    obtain ⟨rfl, live⟩ := reachable.live_of_done present working verdict
    exact reachable.placed.reworks_stored there live named value _ _

theorem Reachable.reworks {rule : Rule V} (reachable : Reachable rule cache) {event : Event V}
    (step : cache.step? event = some next) : Reworks cache next event := by
  cases event with
  | begin key policy deadline => cases step; exact reachable.placed.reworks_begin key policy deadline
  | flight number work =>
    obtain ⟨flight, present, ⟨_, rfl⟩ | ⟨deadline, ending, working, verdict, rfl⟩⟩ := turnFlight?_eq_some_iff.mp step
    · exact .quiet rfl ⟨rfl, Array.size_modify, rfl⟩
    · exact reachable.reworks_ended present working verdict
  | call number => exact .quiet rfl (keepsSlots_turnCall step)
  | drop number => cases step; exact .quiet rfl (keepsSlots_dropCall cache number)
  | purge => cases step; exact .quiet rfl ⟨rfl, rfl, rfl⟩
  | remove key => cases step; exact .quiet rfl ⟨rfl, rfl, rfl⟩
  | pass instant => cases step; exact .quiet rfl ⟨rfl, rfl, rfl⟩
  | scope parent => cases parent <;> cases step <;> exact .quiet rfl ⟨rfl, rfl, rfl⟩
  | cancel token => cases step; exact .quiet rfl ⟨rfl, rfl, rfl⟩

end Events

/-- What was in a slot, and what the event has made of it. -/
inductive Became (cache : Cache V) (slot : Nat) : Event V → Slot V → Prop
  | same {event : Event V} {found : Slot V} (present : cache.slots[slot]? = some found) : Became cache slot event found
  | used {key : String} {policy : Policy} {deadline : Deadline} {found later : Slot V} {trigger : Option Trigger}
      (known : cache.keys.lookup key = some slot) (present : cache.slots[slot]? = some found)
      (uses : Uses cache policy slot found trigger later) :
      Became cache slot (.begin key policy deadline) { later with lastAccess := cache.tick }
  | opened {key : String} {policy : Policy} {deadline : Deadline} (absent : cache.keys.lookup key = none)
      (new : slot = cache.slots.size) : Became cache slot (.begin key policy deadline)
        { key, lastAccess := cache.tick, flight := some cache.flights.size }
  | left {number : Nat} {work : Option (WorkEnd V)} {found : Slot V} (present : cache.slots[slot]? = some found) :
      Became cache slot (.flight number work) (found.without number)
  | stored {number : Nat} {flight : Flight V} {found : Slot V} {value : V} (live : cache.Live number flight)
      (point : flight.policy.eagerPoint ≠ .undefined) (present : cache.slots[slot]? = some found) :
      Became cache slot (.flight number (some (.value value))) { found with
        entry := some { value, storedAt := cache.clock.now, policy := flight.policy, flight := number }
        flight := none }

/-- With the other slots as they were, a slot is the one that was left or was there before. -/
theorem Leaves.slot_cases {cache next : Cache V} {slot place : Nat} {trigger : Option Trigger} {later found : Slot V}
    (leaves : Leaves cache next slot trigger later) (others : SlotsBut slot cache next)
    (present : next.slots[place]? = some found) :
    slot = place ∧ later = found ∨ slot ≠ place ∧ cache.slots[place]? = some found := by
  by_cases same : slot = place
  · subst same
    exact .inl ⟨rfl, Option.some.inj (leaves.present.symm.trans present)⟩
  · exact .inr ⟨same, (others place same).symm.trans present⟩

theorem Reworks.became {cache next : Cache V} {event : Event V} (reworks : Reworks cache next event) {slot : Nat}
    {later : Slot V} (present : next.slots[slot]? = some later) : Became cache slot event later := by
  cases reworks with
  | quiet _ kept => exact .same (kept.slots ▸ present)
  | asked known there uses leaves others =>
    obtain ⟨rfl, rfl⟩ | ⟨_, old⟩ := leaves.slot_cases others present
    · exact .used known there uses
    · exact .same old
  | opened absent leaves others =>
    obtain ⟨rfl, rfl⟩ | ⟨_, old⟩ := leaves.slot_cases others present
    · exact .opened absent rfl
    · exact .same old
  | left _ there leaves others =>
    obtain ⟨rfl, rfl⟩ | ⟨_, old⟩ := leaves.slot_cases others present
    · exact .left there
    · exact .same old
  | stored live point there leaves others =>
    obtain ⟨rfl, rfl⟩ | ⟨_, old⟩ := leaves.slot_cases others present
    · exact .stored live point there
    · exact .same old

/-- What events keep true of what is in slots is true of all slots. -/
theorem Reachable.forall_slots {rule : Rule V} {property : Cache V → Nat → Slot V → Prop}
    (kept : ∀ cache next event slot later, Reachable rule cache → cache.step? event = some next →
      (∀ slot found, cache.slots[slot]? = some found → property cache slot found) → Became cache slot event later →
      property next slot later)
    {cache : Cache V} (reachable : Reachable rule cache) :
    ∀ (slot : Nat) (found : Slot V), cache.slots[slot]? = some found → property cache slot found := by
  obtain ⟨maxEntries, run⟩ := reachable
  induction run with
  | nil => simp [empty]
  | @snoc middle target event run allowed step ih =>
    intro slot later present
    have reachable : Reachable rule middle := ⟨maxEntries, run⟩
    exact kept middle target event slot later reachable step ih ((reachable.reworks step).became present)

end Cache

end HedgedForecast
