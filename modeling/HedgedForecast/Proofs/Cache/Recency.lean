import HedgedForecast.Proofs.Cache.Counts
import HedgedForecast.Proofs.Cache.SlotUse
import Mathlib.Data.List.MinMax

/-! # Who makes room

The slot of a key has the number of the last call on the key, whatever the call found and whatever became of it. So
a full cache that gives a new key a slot drops the key that has not been called for longest among those without a
flight, and no other one; keys with a flight are never dropped for that. What stays is left as it is, entries,
flights and dates.
-/

namespace HedgedForecast.Cache

variable {V : Type} {rule : Rule V} {cache next : Cache V} {key : String} {slot : Nat}

theorem leave_tick (cache : Cache V) (number : Nat) : (cache.leave number).tick = cache.tick := by
  obtain ⟨_, _, same⟩ := cache.leave_eq number
  rw [same]
  rfl

theorem touch_tick (cache : Cache V) (key : String) : (cache.touch key).2.tick = cache.tick + 1 := by
  cases known : cache.keys.lookup key with
  | some slot => rw [touch_known known]; rfl
  | none =>
    rw [touch_absent known]
    rcases makeRoom_cases { cache with tick := cache.tick + 1 } with ⟨same, _⟩ | ⟨_, _, _, _, same⟩
    · rw [same]
    · rw [same]; rfl

/-- A call that begins takes the next number, whatever way it takes. -/
theorem begin_tick (cache : Cache V) (key : String) (policy : Policy) (deadline : Deadline) :
    (cache.begin key policy deadline).2.tick = cache.tick + 1 := by
  obtain ⟨change, _, strides⟩ := begin_strides cache key policy deadline
  rw [← touch_tick cache key]
  refine strides.relate (fun before after => after.tick = before.tick) (fun _ => rfl)
    (fun first second => second.trans first) fun stride => ?_
  cases stride with
  | leave flight => exact leave_tick ..
  | _ => rfl

theorem step_tick {event : Event V} (step : cache.step? event = some next) :
    next.tick = cache.tick + cache.begins event := by
  cases event with
  | begin key policy deadline => cases step; exact begin_tick ..
  | flight number work =>
    obtain ⟨flight, _, ⟨_, rfl⟩ | ⟨deadline, ending, _, _, rfl⟩⟩ := turnFlight?_eq_some_iff.mp step
    · rfl
    · exact endFlight_tick ..
  | call number => exact (keepsSlots_turnCall step).tick
  | drop number => cases step; exact (keepsSlots_dropCall cache number).tick
  | purge => cases step; rfl
  | remove key => cases step; rfl
  | pass instant => cases step; rfl
  | scope parent => cases parent <;> cases step <;> rfl
  | cancel token => cases step; rfl

/-- The next call's number is its place among the calls. -/
theorem Reachable.tick_eq (reachable : Reachable rule cache) : cache.tick = cache.calls.size := by
  obtain ⟨maxEntries, run⟩ := reachable
  induction run with
  | nil => rfl
  | @snoc middle target event run _ step ih =>
    have reachable : Reachable rule middle := ⟨maxEntries, run⟩
    rw [step_tick step, (reachable.placed.booked reachable.recorded step).calls, ih]

/-- The call of that number is the last one on the key. -/
structure LastCall (cache : Cache V) (key : String) (number : Nat) : Prop where
  present : ∃ call, cache.calls[number]? = some call ∧ call.key = key
  last : ∀ (other : Nat) (call : Call V), cache.calls[other]? = some call → call.key = key → other ≤ number

/-- The slots of keys have the numbers of the last calls on them. -/
def Stamped (cache : Cache V) : Prop :=
  ∀ (key : String) (slot : Nat) (found : Slot V), (key, slot) ∈ cache.keys → cache.slots[slot]? = some found →
    LastCall cache key found.lastAccess

/-- The last call on a key stays so until there is another call on it. -/
theorem LastCall.keep {number : Nat} (last : LastCall cache key number) (extended : Extends next cache)
    (old : ∀ (other : Nat) (call : Call V), next.calls[other]? = some call → call.key = key →
      ∃ earlier, cache.calls[other]? = some earlier ∧ earlier.key = key) : LastCall next key number := by
  constructor
  · obtain ⟨call, there, named⟩ := last.present
    obtain ⟨later, here, follows⟩ := extended.calls number call there
    exact ⟨later, here, follows.key.trans named⟩
  · intro other call there named
    obtain ⟨earlier, here, named'⟩ := old other call there named
    exact last.last other earlier here named'

/-- A call that begins is the last one on its key. -/
theorem lastCall_begin (cache : Cache V) (key : String) (policy : Policy) (deadline : Deadline) :
    LastCall (cache.begin key policy deadline).2 key cache.calls.size := by
  obtain ⟨phase, _, calls, _⟩ := begin_opens cache key policy deadline
  constructor
  · rw [calls]
    exact ⟨_, Array.getElem?_push_size, rfl⟩
  · intro other call there _
    obtain ⟨bound, _⟩ := Array.getElem?_eq_some_iff.mp there
    rw [calls, Array.size_push] at bound
    exact Nat.le_of_lt_succ bound

theorem LastCall.begin_of_ne {number : Nat} {other : String} (last : LastCall cache other number)
    (distinct : other ≠ key) (policy : Policy) (deadline : Deadline) :
    LastCall (cache.begin key policy deadline).2 other number := by
  obtain ⟨phase, _, calls, _⟩ := begin_opens cache key policy deadline
  refine last.keep (Extends.moves (begin_moves cache key policy deadline)) fun place call there named => ?_
  rw [calls] at there
  rcases getElem?_push_cases there with ⟨_, old⟩ | ⟨_, rfl⟩
  · exact ⟨call, old, named⟩
  · exact absurd named.symm distinct

theorem calls_of_silent {event : Event V} (step : cache.step? event = some next) (silent : event.asker = none)
    {number : Nat} {call : Call V} (present : next.calls[number]? = some call) :
    ∃ earlier, cache.calls[number]? = some earlier ∧ call.key = earlier.key := by
  cases step_cameFrom step present with
  | same there => exact ⟨call, there, rfl⟩
  | answered there _ same => exact ⟨_, there, by rw [same]⟩
  | dropped there same => exact ⟨_, there, by rw [same]⟩
  | begun => contradiction

/-- As long as no call begins, slots and keys keep their numbers. -/
theorem Stamped.keep {event : Event V} (stamped : Stamped cache) (step : cache.step? event = some next)
    (silent : event.asker = none)
    (access : ∀ (slot : Nat) (found : Slot V), next.slots[slot]? = some found →
      ∃ earlier, cache.slots[slot]? = some earlier ∧ found.lastAccess = earlier.lastAccess) : Stamped next := by
  have old : ¬ Inserts cache event := by
    rintro ⟨_, _, _, rfl, _⟩
    contradiction
  intro key slot found member present
  obtain ⟨earlier, there, same⟩ := access slot found present
  rw [same]
  refine (stamped key slot earlier ((step_keys step old).subset member) there).keep (Extends.step step) ?_
  intro other call here named
  obtain ⟨before, there', same'⟩ := calls_of_silent step silent here
  exact ⟨before, there', same'.symm.trans named⟩

/-- A call gives the slot of its key its own number, and the other slots keep theirs. -/
theorem Stamped.begin (stamped : Stamped cache) (reachable : Reachable rule cache) {policy : Policy}
    {deadline : Deadline} {later : Slot V} {trigger : Option Trigger}
    (leaves : Leaves cache (cache.begin key policy deadline).2 slot trigger later)
    (stamp : later.lastAccess = cache.tick) (others : SlotsBut slot cache (cache.begin key policy deadline).2)
    (keys : ∀ (other : String) (own : Nat), (other, own) ∈ (cache.begin key policy deadline).2.keys →
      other = key ∧ own = slot ∨ other ≠ key ∧ own ≠ slot ∧ (other, own) ∈ cache.keys) :
    Stamped (cache.begin key policy deadline).2 := by
  intro other own found member present
  obtain ⟨rfl, rfl⟩ | ⟨distinct, elsewhere, known⟩ := keys other own member
  · obtain rfl := Option.some.inj (leaves.present.symm.trans present)
    rw [stamp, reachable.tick_eq]
    exact lastCall_begin ..
  · rw [others own elsewhere.symm] at present
    exact (stamped other own found known present).begin_of_ne distinct policy deadline

theorem Stamped.step (stamped : Stamped cache) (reachable : Reachable rule cache) {event : Event V}
    (step : cache.step? event = some next) : Stamped next := by
  have placed := reachable.placed
  cases reachable.reworks step with
  | quiet silent kept =>
    exact stamped.keep step silent fun slot found present => ⟨found, kept.slots ▸ present, rfl⟩
  | @asked key policy deadline slot found later trigger known present uses leaves others =>
    cases step
    refine stamped.begin reachable leaves rfl others fun other own member => ?_
    rw [begin_keys, touch_known known] at member
    by_cases same : other = key
    · subst same
      obtain rfl := Option.some.inj ((placed.lookup_of_mem member).symm.trans known)
      exact .inl ⟨rfl, rfl⟩
    · refine .inr ⟨same, ?_, member⟩
      rintro rfl
      obtain ⟨found', present', named'⟩ := placed.slot_of_key other own member
      obtain ⟨found'', present'', named⟩ := placed.slot_of_key key own (mem_of_lookup known)
      obtain rfl := Option.some.inj (present'.symm.trans present'')
      exact same (named'.symm.trans named)
  | @opened key policy deadline absent leaves others =>
    cases step
    refine stamped.begin reachable leaves rfl others fun other own member => ?_
    rw [begin_keys_of_absent absent, touch_absent_slot absent, List.mem_append, List.mem_singleton] at member
    rcases member with old | new
    · have known := makeRoom_keys_subset cache old
      refine .inr ⟨?_, Nat.ne_of_lt (placed.slot_lt known), known⟩
      rintro rfl
      rw [placed.lookup_of_mem known] at absent
      contradiction
    · cases new
      exact .inl ⟨rfl, rfl⟩
  | left present there leaves others =>
    refine stamped.keep step rfl fun place after here => ?_
    obtain ⟨rfl, rfl⟩ | ⟨_, old⟩ := leaves.slot_cases others here
    · exact ⟨_, there, by rw [Slot.without_eq]⟩
    · exact ⟨after, old, rfl⟩
  | stored live point there leaves others =>
    refine stamped.keep step rfl fun place after here => ?_
    obtain ⟨rfl, rfl⟩ | ⟨_, old⟩ := leaves.slot_cases others here
    · exact ⟨_, there, rfl⟩
    · exact ⟨after, old, rfl⟩

/-- The slots of keys have the numbers of the last calls on them, whatever happens. -/
theorem Reachable.stamped (reachable : Reachable rule cache) : Stamped cache := by
  obtain ⟨maxEntries, run⟩ := reachable
  induction run with
  | nil => simp [Stamped, empty]
  | snoc run _ step ih => exact ih.step ⟨maxEntries, run⟩ step

theorem victim?_eq_argmin (cache : Cache V) :
    cache.victim? =
      List.argmin (fun key => cache.lastAccessOf key.2) (cache.keys.filter fun key => cache.isIdle key.2) := by
  have same : cache.lessRecent =
      List.argAux fun key other => cache.lastAccessOf key.2 < cache.lastAccessOf other.2 := by
    funext best key
    cases best <;> rfl
  rw [victim?, same]
  rfl

/-- The key has no flight, and its last call came before that on any other key without a flight. -/
structure LeastRecent (cache : Cache V) (key : String) (slot : Nat) : Prop where
  known : (key, slot) ∈ cache.keys
  idle : cache.isIdle slot = true
  before : ∀ (other : String) (own : Nat), (other, own) ∈ cache.keys → cache.isIdle own = true → other ≠ key →
    ∃ m n, LastCall cache key m ∧ LastCall cache other n ∧ m < n

theorem LastCall.unique_key {other : String} {number : Nat} (last : LastCall cache key number)
    (last' : LastCall cache other number) : key = other := by
  obtain ⟨call, present, named⟩ := last.present
  obtain ⟨call', present', named'⟩ := last'.present
  obtain rfl := Option.some.inj (present.symm.trans present')
  exact named.symm.trans named'

theorem Reachable.leastRecent (reachable : Reachable rule cache) (victim : cache.victim? = some (key, slot)) :
    LeastRecent cache key slot := by
  obtain ⟨known, idle⟩ := victim?_spec victim
  have placed := reachable.placed
  refine ⟨known, idle, fun other own member free distinct => ?_⟩
  obtain ⟨found, present, _⟩ := placed.slot_of_key key slot known
  obtain ⟨found', present', _⟩ := placed.slot_of_key other own member
  have last := reachable.stamped key slot found known present
  have last' := reachable.stamped other own found' member present'
  have candidate : (other, own) ∈ cache.keys.filter fun key => cache.isIdle key.2 := List.mem_filter.mpr ⟨member, free⟩
  rw [victim?_eq_argmin] at victim
  have least := List.le_of_mem_argmin candidate victim
  simp only [lastAccessOf, present, present'] at least
  refine ⟨_, _, last, last', Nat.lt_of_le_of_ne least fun same => distinct ?_⟩
  exact (last.unique_key (same ▸ last')).symm

theorem victim?_eq_none : cache.victim? = none ↔ ∀ key slot, (key, slot) ∈ cache.keys → cache.isIdle slot = false := by
  rw [victim?_eq_argmin, List.argmin_eq_none, List.filter_eq_nil_iff]
  simp

/-- Dropping a key takes one item out of the keys. -/
theorem Placed.dropKey_keys (placed : Placed cache) (member : (key, slot) ∈ cache.keys) :
    ∃ before after, cache.keys = before ++ (key, slot) :: after ∧ (cache.dropKey key).keys = before ++ after := by
  obtain ⟨before, after, same⟩ := List.append_of_mem member
  refine ⟨before, after, same, ?_⟩
  have others : ∀ pair ∈ before ++ after, (pair.1 != key) = true := by
    have nodup := placed.keys_nodup
    rw [same, List.map_append, List.map_cons, List.nodup_middle, ← List.map_append, List.nodup_cons] at nodup
    intro pair there
    rw [bne_iff_ne]
    intro own
    have listed : pair.1 ∈ (before ++ after).map Prod.fst := List.mem_map_of_mem there
    exact nodup.1 (own ▸ listed)
  have dropped : (cache.dropKey key).keys = (before ++ after).filter (·.1 != key) := by
    simp [dropKey, same]
  rw [dropped]
  exact List.filter_eq_self.mpr others

theorem Placed.makeRoom_keys (placed : Placed cache) :
    (cache.maxEntries ≤ cache.size ∧ ∃ key slot before after, cache.victim? = some (key, slot) ∧
        cache.keys = before ++ (key, slot) :: after ∧ cache.makeRoom.keys = before ++ after) ∨
      (cache.size < cache.maxEntries ∨ cache.victim? = none) ∧ cache.makeRoom.keys = cache.keys := by
  rcases makeRoom_cases cache with ⟨same, room⟩ | ⟨key, slot, full, victim, same⟩
  · exact .inr ⟨room, congrArg Cache.keys same⟩
  · obtain ⟨before, after, split, dropped⟩ := placed.dropKey_keys (victim?_spec victim).1
    exact .inl ⟨full, key, slot, before, after, victim, split, (congrArg Cache.keys same).trans dropped⟩

/-- What a call on a new key does to the other keys. -/
structure Admits (cache next : Cache V) (key : String) : Prop where
  /-- A full cache drops one key, the least recently called one without a flight. -/
  full : cache.maxEntries ≤ cache.size →
    (∃ other slot, (other, slot) ∈ cache.keys ∧ cache.isIdle slot = true) →
    ∃ victim slot before after, LeastRecent cache victim slot ∧ cache.keys = before ++ (victim, slot) :: after ∧
      next.keys = before ++ after ++ [(key, cache.slots.size)]
  /-- With room for another key or nothing but keys with flights it drops none. -/
  spare : cache.size < cache.maxEntries ∨ (∀ other slot, (other, slot) ∈ cache.keys → cache.isIdle slot = false) →
    next.keys = cache.keys ++ [(key, cache.slots.size)]
  /-- Keys with a flight stay. -/
  busy : ∀ other slot, (other, slot) ∈ cache.keys → cache.isIdle slot = false → (other, slot) ∈ next.keys
  /-- Keys that stay keep their slots, with all that is in them. -/
  slots : ∀ (other : String) (slot : Nat), (other, slot) ∈ next.keys → other ≠ key →
    (other, slot) ∈ cache.keys ∧ next.slots[slot]? = cache.slots[slot]?
  flights : ∀ (number : Nat) (flight : Flight V), cache.flights[number]? = some flight →
    next.flights[number]? = some flight
  scopes : ∀ token, next.clock.isCancelled token = cache.clock.isCancelled token

theorem beginCold_clock (cache : Cache V) (call : Call V) (vacant : cache.liveFlight? call.slot = none) :
    (cache.beginCold call).2.clock = cache.clock.freshToken.2 := by
  rw [beginCold_eq_of_vacant vacant]
  rfl

/-- A call on a new key launches a flight, under a scope that is new, and leaves the others alone. -/
theorem begin_frame_of_absent (absent : cache.keys.lookup key = none) (policy : Policy) (deadline : Deadline) :
    (∃ flight, (cache.begin key policy deadline).2.flights = cache.flights.push flight) ∧
      (cache.begin key policy deadline).2.clock = cache.clock.freshToken.2 := by
  obtain ⟨clock, flights, _⟩ := touch_frame cache key
  have vacant := liveFlight?_touch_of_absent absent
  obtain ⟨⟨flight, launched, _⟩, _⟩ := beginCold_of_vacant _ (cache.opening key policy deadline) vacant
  rw [begin_empty (not_isServable_of_absent absent policy), ← flights, ← clock]
  exact ⟨⟨flight, launched⟩, beginCold_clock _ (cache.opening key policy deadline) vacant⟩

theorem admits_of_absent (reachable : Reachable rule cache) (absent : cache.keys.lookup key = none) (policy : Policy)
    (deadline : Deadline) : Admits cache (cache.begin key policy deadline).2 key := by
  have placed := reachable.placed
  have keys := begin_keys_of_absent absent policy deadline
  rw [touch_absent_slot absent] at keys
  obtain ⟨⟨launched, flights⟩, clock⟩ := begin_frame_of_absent absent policy deadline
  constructor
  · intro full ⟨other, slot, member, idle⟩
    rcases placed.makeRoom_keys with ⟨_, victim, own, before, after, chosen, same, dropped⟩ | ⟨room | none, _⟩
    · exact ⟨victim, own, before, after, reachable.leastRecent chosen, same, by rw [keys, dropped]⟩
    · exact absurd full (Nat.not_le.mpr room)
    · rw [victim?_eq_none.mp none other slot member] at idle
      contradiction
  · intro spare
    rcases placed.makeRoom_keys with ⟨full, victim, own, _, _, chosen, _⟩ | ⟨_, same⟩
    · rcases spare with room | busy
      · exact absurd full (Nat.not_le.mpr room)
      · rw [victim?_eq_none.mpr busy] at chosen
        contradiction
    · rw [keys, same]
  · intro other slot member busy
    rw [keys]
    rcases placed.lookup_makeRoom (placed.lookup_of_mem member) with kept | ⟨_, _, victim⟩
    · exact List.mem_append_left _ (mem_of_lookup kept)
    · rw [(victim?_spec victim).2] at busy
      contradiction
  · intro other slot member distinct
    rw [keys, List.mem_append, List.mem_singleton] at member
    rcases member with old | new
    · have known := makeRoom_keys_subset cache old
      refine ⟨known, SlotsBut.begin cache key policy deadline slot ?_⟩
      rw [touch_absent_slot absent]
      exact (Nat.ne_of_lt (placed.slot_lt known)).symm
    · exact absurd (Prod.mk.inj new).1 distinct
  · intro number flight present
    rw [flights]
    exact getElem?_push_of_some _ present
  · intro token
    rw [clock]
    rfl

/-- Two values are stored, and the older one is asked for again and refreshed. -/
def revisiting : List (Event Nat) :=
  [.scope none, .begin "Oslo" lenient ⟨5000, ⟨[0]⟩⟩, .flight 0 none, .flight 0 (some (.value 1)), .call 0,
    .begin "Rome" lenient ⟨5000, ⟨[0]⟩⟩, .flight 1 none, .flight 1 (some (.value 2)), .call 1,
    .begin "Oslo" lenient ⟨5000, ⟨[0]⟩⟩, .flight 2 none, .flight 2 (some (.value 3)), .call 2]

def revisited : Cache Nat := (revisiting.foldlM step? (empty 2)).getD (empty 2)

theorem admits_revisited :
    Reachable Lawful revisited ∧ revisited.keys = [("Oslo", 0), ("Rome", 1)] ∧
      revisited.keys.lookup "Bern" = none ∧
      (revisited.begin "Bern" lenient ⟨5000, ⟨[0]⟩⟩).2.keys = [("Oslo", 0), ("Bern", 2)] ∧
      Admits revisited (revisited.begin "Bern" lenient ⟨5000, ⟨[0]⟩⟩).2 "Bern" := by
  have run : Run Lawful (empty 2) revisited :=
    .of_events (by simp [revisiting, Lawful]) (rfl : revisiting.foldlM step? (empty 2) = some revisited)
  have reachable : Reachable Lawful revisited := ⟨2, run⟩
  exact ⟨reachable, rfl, rfl, rfl, admits_of_absent reachable rfl lenient ⟨5000, ⟨[0]⟩⟩⟩

end HedgedForecast.Cache
