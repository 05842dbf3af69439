import HedgedForecast.Proofs.Cache.Changes

/-! # What becomes of keys

A key keeps its slot until it is dropped, and there are four ways to be dropped: a full cache makes room for
another key, the key is removed, or nothing that could be served is left in its idle slot when expired keys are
purged or a caller sees its computation fail. All else that happens leaves the keys as they are.
-/

namespace HedgedForecast.Cache

variable {V : Type}

/-- A call settles which keys there are by finding its slot, whatever way it takes then. -/
theorem begin_keys (cache : Cache V) (key : String) (policy : Policy) (deadline : Deadline) :
    (cache.begin key policy deadline).2.keys = (cache.touch key).2.keys := by
  obtain ⟨_, _, strides⟩ := begin_strides cache key policy deadline
  exact strides.keys

/-- All slots but one are the same. -/
def SlotsBut (slot : Nat) (cache next : Cache V) : Prop :=
  ∀ other, slot ≠ other → next.slots[other]? = cache.slots[other]?

namespace SlotsBut

theorem of_frame {cache next : Cache V} (slots : next.slots = cache.slots) (slot : Nat) : SlotsBut slot cache next :=
  fun other _ => by rw [slots]

theorem trans {cache middle next : Cache V} {slot : Nat} (first : SlotsBut slot cache middle)
    (second : SlotsBut slot middle next) : SlotsBut slot cache next :=
  fun other distinct => (second other distinct).trans (first other distinct)

theorem modifySlot (cache : Cache V) (slot : Nat) (change : Slot V → Slot V) :
    SlotsBut slot cache (cache.modifySlot slot change) :=
  fun _ distinct => getElem?_modify_of_ne _ change distinct

theorem launch (cache : Cache V) (key : String) (slot : Nat) (policy : Policy) (trigger : Trigger) (waiters : Nat) :
    SlotsBut slot cache (cache.launch key slot policy trigger waiters).2 :=
  modifySlot cache slot fun slot => { slot with flight := some cache.flights.size }

theorem leave (cache : Cache V) (number slot : Nat) : SlotsBut slot cache (cache.leave number) := by
  obtain ⟨clock, _, same⟩ := cache.leave_eq number
  rw [same]
  exact of_frame rfl slot

theorem stride {key : String} {slot : Nat} {policy : Policy} {before after : Stage V}
    (stride : Stride key slot policy before after) : SlotsBut slot before.1 after.1 := by
  cases stride with
  | mark => exact modifySlot _ slot _
  | date => exact modifySlot _ slot _
  | launch => exact launch _ key slot policy _ _
  | leave flight => exact leave _ flight slot
  | _ => exact of_frame rfl slot

theorem touch (cache : Cache V) (key : String) : SlotsBut (cache.touch key).1 cache (cache.touch key).2 := by
  cases known : cache.keys.lookup key with
  | some slot =>
    rw [touch_known known]
    exact modifySlot { cache with tick := cache.tick + 1 } slot _
  | none =>
    obtain ⟨_, slots, _⟩ := makeRoom_frame { cache with tick := cache.tick + 1 }
    rw [touch_absent known]
    intro other distinct
    simp only [slots] at distinct ⊢
    rw [Array.getElem?_push, if_neg distinct.symm]

/-- A call that begins changes no slot but that of its key. -/
theorem begin (cache : Cache V) (key : String) (policy : Policy) (deadline : Deadline) :
    SlotsBut (cache.touch key).1 cache (cache.begin key policy deadline).2 := by
  obtain ⟨change, _, strides⟩ := begin_strides cache key policy deadline
  have after : SlotsBut (cache.touch key).1 ((cache.touch key).2.count change) (cache.begin key policy deadline).2 :=
    strides.relate (SlotsBut (cache.touch key).1) (fun _ => of_frame rfl _) .trans .stride
  exact (touch cache key).trans after

end SlotsBut

/-- The event drops the key with its slot. -/
inductive Drops (cache : Cache V) (key : String) (slot : Nat) : Event V → Prop
  | evicted {other : String} {policy : Policy} {deadline : Deadline} (absent : cache.keys.lookup other = none)
      (full : cache.maxEntries ≤ cache.keys.length) (victim : cache.victim? = some (key, slot)) :
      Drops cache key slot (.begin other policy deadline)
  | removed : Drops cache key slot (.remove key)
  | purged (idle : cache.isIdle slot = true) (spent : cache.isSpent slot = true) : Drops cache key slot .purge
  | failed {number : Nat} (idle : cache.isIdle slot = true) (spent : cache.isSpent slot = true) :
      Drops cache key slot (.call number)

theorem lookup_dropKey_self (cache : Cache V) (key : String) : (cache.dropKey key).keys.lookup key = none := by
  rw [List.lookup_eq_none_iff]
  intro pair member
  have other := (List.mem_filter.mp member).2
  simp only [bne_iff_ne] at other
  simpa using other.symm

variable {cache next : Cache V} {key : String} {slot : Nat}

theorem lookup_dropKey_of_ne (known : cache.keys.lookup key = some slot) {other : String} (distinct : key ≠ other) :
    (cache.dropKey other).keys.lookup key = some slot :=
  lookup_filter_of_pos _ known (bne_iff_ne.mpr distinct)

/-- Making room drops a key only if the cache is full and the key is the victim. -/
theorem Placed.lookup_makeRoom (placed : Placed cache) (known : cache.keys.lookup key = some slot) :
    cache.makeRoom.keys.lookup key = some slot ∨
      cache.makeRoom.keys.lookup key = none ∧ cache.maxEntries ≤ cache.keys.length ∧
        cache.victim? = some (key, slot) := by
  rcases makeRoom_cases cache with ⟨same, _⟩ | ⟨other, own, full, victim, same⟩
  · rw [same]
    exact .inl known
  · rw [same]
    by_cases distinct : key = other
    · subst distinct
      cases placed.only (mem_of_lookup known) (victim?_spec victim).1 rfl
      exact .inr ⟨lookup_dropKey_self cache key, full, victim⟩
    · exact .inl (lookup_dropKey_of_ne known distinct)

/-- A call on another key drops a key only to make room. -/
theorem Placed.lookup_touch (placed : Placed cache) (known : cache.keys.lookup key = some slot) (other : String) :
    (cache.touch other).2.keys.lookup key = some slot ∨
      (cache.touch other).2.keys.lookup key = none ∧ cache.keys.lookup other = none ∧
        cache.maxEntries ≤ cache.keys.length ∧ cache.victim? = some (key, slot) := by
  cases there : cache.keys.lookup other with
  | some own =>
    rw [touch_known there]
    exact .inl known
  | none =>
    have distinct : (key == other) = false := by
      rw [beq_eq_false_iff_ne]
      rintro rfl
      rw [known] at there
      contradiction
    let ticked : Cache V := { cache with tick := cache.tick + 1 }
    have placed' : Placed ticked := placed.forget (.refl _) rfl rfl fun _ => id
    have same : (cache.touch other).2.keys.lookup key = ticked.makeRoom.keys.lookup key := by
      rw [touch_absent there]
      simp [List.lookup_append, List.lookup_cons, distinct, ticked]
    rw [same]
    rcases placed'.lookup_makeRoom known with kept | ⟨gone, full, victim⟩
    · exact .inl kept
    · exact .inr ⟨gone, rfl, full, victim⟩

theorem isIdle_congr (slots : next.slots = cache.slots) (slot : Nat) : next.isIdle slot = cache.isIdle slot := by
  simp only [isIdle, slots]

theorem isSpent_congr (slots : next.slots = cache.slots) (now : next.clock.now = cache.clock.now) (slot : Nat) :
    next.isSpent slot = cache.isSpent slot := by
  simp only [isSpent, entryOf, slots, now]

theorem leave_slots (cache : Cache V) (number : Nat) : (cache.leave number).slots = cache.slots := by
  obtain ⟨clock, _, same⟩ := cache.leave_eq number
  rw [same]
  rfl

/-- A call that ends drops no key but its own, and only when it sees its computation fail. -/
theorem lookup_turnCall (known : cache.keys.lookup key = some slot) {number : Nat}
    (turn : cache.turnCall? number = some next) :
    next.keys.lookup key = some slot ∨
      next.keys.lookup key = none ∧ cache.isIdle slot = true ∧ cache.isSpent slot = true := by
  obtain ⟨call, flight, _, _, ending⟩ := turnCall?_ending turn
  have left (answer : Except Failure V) :
      ((cache.returnCall number answer).leave flight).keys.lookup key = some slot := by
    rw [leave_keys]
    exact known
  cases ending with
  | left answer => exact .inl (left answer)
  | evicted answer evictable =>
    by_cases same : key = call.key
    · subst same
      obtain rfl := Option.some.inj ((left answer).symm.trans evictable.known)
      have slots : ((cache.returnCall number answer).leave flight).slots = cache.slots := leave_slots ..
      refine .inr ⟨lookup_dropKey_self _ call.key, (isIdle_congr slots call.slot).symm.trans evictable.idle, ?_⟩
      exact (isSpent_congr slots (leave_clock_now _ flight) call.slot).symm.trans evictable.spent
    · exact .inl (lookup_dropKey_of_ne (left answer) same)
  | detached answer => exact .inl ((congrArg _ (leave_keys ..)).trans known)

/-- A purge drops the keys whose slots are idle and spent. -/
theorem Placed.lookup_purge_cases (placed : Placed cache) (known : cache.keys.lookup key = some slot) :
    cache.purge.2.keys.lookup key = some slot ∨
      cache.purge.2.keys.lookup key = none ∧ cache.isIdle slot = true ∧ cache.isSpent slot = true := by
  by_cases dropped : cache.isIdle slot = true ∧ cache.isSpent slot = true
  · refine .inr ⟨List.lookup_eq_none_iff.mpr fun pair member => bne_iff_ne.mpr fun same => ?_, dropped⟩
    obtain ⟨old, kept⟩ := List.mem_filter.mp member
    obtain rfl := placed.only (mem_of_lookup known) old same.symm
    simp [dropped.1, dropped.2] at kept
  · refine .inl (lookup_filter_of_pos _ known ?_)
    rw [← Bool.and_eq_true, Bool.not_eq_true] at dropped
    rw [dropped, Bool.not_false]

/-- A key keeps its slot unless it is dropped, and what drops it is known. -/
theorem Placed.lookup_step (placed : Placed cache) (known : cache.keys.lookup key = some slot) {event : Event V}
    (step : cache.step? event = some next) :
    next.keys.lookup key = some slot ∨ next.keys.lookup key = none ∧ cache.Drops key slot event := by
  cases event with
  | begin other policy deadline =>
    cases step
    rw [begin_keys]
    rcases placed.lookup_touch known other with kept | ⟨gone, absent, full, victim⟩
    · exact .inl kept
    · exact .inr ⟨gone, .evicted absent full victim⟩
  | flight number work =>
    obtain ⟨flight, _, ⟨_, rfl⟩ | ⟨deadline, ending, _, _, rfl⟩⟩ := turnFlight?_eq_some_iff.mp step
    · exact .inl known
    · rw [endFlight_keys]
      exact .inl known
  | call number =>
    rcases lookup_turnCall known step with kept | ⟨gone, idle, spent⟩
    · exact .inl kept
    · exact .inr ⟨gone, .failed idle spent⟩
  | drop number =>
    cases step
    rcases dropCall_eq cache number with ⟨same, _⟩ | ⟨_, flight, _, _, left⟩
    · rw [same]
      exact .inl known
    · rw [left, leave_keys]
      exact .inl known
  | purge =>
    cases step
    rcases placed.lookup_purge_cases known with kept | ⟨gone, idle, spent⟩
    · exact .inl kept
    · exact .inr ⟨gone, .purged idle spent⟩
  | remove other =>
    cases step
    by_cases same : key = other
    · subst same
      exact .inr ⟨lookup_dropKey_self cache key, .removed⟩
    · exact .inl (lookup_dropKey_of_ne known same)
  | pass instant => cases step; exact .inl known
  | scope parent => cases parent <;> cases step <;> exact .inl known
  | cancel token => cases step; exact .inl known

/-- A key whose slot has a flight is dropped only by being removed. -/
theorem Placed.lookup_step_of_busy (placed : Placed cache) (known : cache.keys.lookup key = some slot)
    (busy : cache.isIdle slot = false) {event : Event V} (step : cache.step? event = some next) :
    next.keys.lookup key = some slot ∨ event = .remove key := by
  rcases placed.lookup_step known step with kept | ⟨_, dropped⟩
  · exact .inl kept
  · cases dropped with
    | removed => exact .inr rfl
    | evicted _ _ victim =>
      rw [(victim?_spec victim).2] at busy
      contradiction
    | purged idle =>
      rw [idle] at busy
      contradiction
    | failed idle =>
      rw [idle] at busy
      contradiction

theorem Placed.lookup_of_mem (placed : Placed cache) (present : (key, slot) ∈ cache.keys) :
    cache.keys.lookup key = some slot := by
  cases known : cache.keys.lookup key with
  | none => simpa using List.lookup_eq_none_iff.mp known _ present
  | some other => rw [(Prod.mk.inj (placed.only present (mem_of_lookup known) rfl)).2]

theorem begin_keys_of_absent (absent : cache.keys.lookup key = none) (policy : Policy) (deadline : Deadline) :
    (cache.begin key policy deadline).2.keys = cache.makeRoom.keys ++ [(key, (cache.touch key).1)] := by
  have room : { cache with tick := cache.tick + 1 }.makeRoom.keys = cache.makeRoom.keys := by
    have victim : { cache with tick := cache.tick + 1 }.victim? = cache.victim? := rfl
    unfold makeRoom
    rw [victim]
    split
    · cases cache.victim? <;> rfl
    · rfl
  rw [begin_keys, touch_absent absent]
  exact congrArg (· ++ _) room

theorem touch_absent_slot (absent : cache.keys.lookup key = none) : (cache.touch key).1 = cache.slots.size := by
  rw [touch_absent absent]
  exact congrArg Array.size (makeRoom_frame _).2.1

theorem makeRoom_keys_subset (cache : Cache V) : cache.makeRoom.keys ⊆ cache.keys := by
  rcases makeRoom_cases cache with ⟨same, _⟩ | ⟨key, slot, _, _, same⟩
  · rw [same]
    exact List.Subset.refl _
  · rw [same]
    exact List.filter_subset_self _

/-- A call that ends adds no key. -/
theorem turnCall?_keys {number : Nat} (turn : cache.turnCall? number = some next) : next.keys.Sublist cache.keys := by
  have left (middle : Cache V) (keys : middle.keys = cache.keys) (flight : Nat) :
      (middle.leave flight).keys.Sublist cache.keys := by
    rw [leave_keys, keys]
  obtain ⟨call, flight, _, _, ending⟩ := turnCall?_ending turn
  cases ending with
  | left answer => exact left (cache.returnCall number answer) rfl flight
  | evicted answer => exact List.filter_sublist.trans (left (cache.returnCall number answer) rfl flight)
  | detached answer => exact left ((cache.returnCall number answer).detach flight) rfl flight

/-- The event is a call on a key that is new. -/
def Inserts (cache : Cache V) (event : Event V) : Prop :=
  ∃ key policy deadline, event = .begin key policy deadline ∧ cache.keys.lookup key = none

/-- Only calls on new keys add keys. -/
theorem step_keys {event : Event V} (step : cache.step? event = some next) (old : ¬ Inserts cache event) :
    next.keys.Sublist cache.keys := by
  cases event with
  | begin key policy deadline =>
    cases step
    cases known : cache.keys.lookup key with
    | none => exact absurd ⟨key, policy, deadline, rfl, known⟩ old
    | some slot =>
      rw [begin_keys, touch_known known]
      exact .refl _
  | flight number work =>
    obtain ⟨flight, _, ⟨_, rfl⟩ | ⟨deadline, ending, _, _, rfl⟩⟩ := turnFlight?_eq_some_iff.mp step
    · exact .refl _
    · rw [endFlight_keys]
  | call number => exact turnCall?_keys step
  | drop number =>
    cases step
    rcases dropCall_eq cache number with ⟨same, _⟩ | ⟨_, flight, _, _, left⟩
    · rw [same]
    · rw [left, leave_keys]
      exact .refl _
  | purge => cases step; exact List.filter_sublist
  | remove key => cases step; exact List.filter_sublist
  | pass instant => cases step; exact .refl _
  | scope parent => cases parent <;> cases step <;> exact .refl _
  | cancel token => cases step; exact .refl _

end HedgedForecast.Cache
