import HedgedForecast.Proofs.Cache.Keys

/-! # How many keys there are

A new key adds one, unless the cache is full and another key without a flight can be dropped for it; nothing
else adds any. So there are never more keys than the cache is meant for, or than once had a flight at the same
time. But a full cache drops one key at most for a new one: when more keys than it is meant for had a flight and
these have ended, the surplus stays, however many keys are new after that. Only keys that are removed or have
nothing to serve give it back.
-/

namespace HedgedForecast.Cache

variable {V : Type}

/-- How many keys have a flight. -/
def busy (cache : Cache V) : Nat :=
  cache.keys.countP fun key => !cache.isIdle key.2

/-- Whether the flight of a slot is still to end. -/
def isComputing (cache : Cache V) (slot : Nat) : Bool :=
  match cache.slots[slot]? with
  | some found => (found.flight.bind (cache.flights[·]?)).any Flight.isRunning
  | none => false

/-- For how many keys a computation is in progress. -/
def computing (cache : Cache V) : Nat :=
  cache.keys.countP fun key => cache.isComputing key.2

variable {rule : Rule V} {cache next : Cache V} {key : String} {policy : Policy} {deadline : Deadline}

theorem isSome_foldl_lessRecent (cache : Cache V) (keys : List (String × Nat)) {best : Option (String × Nat)}
    (some : best.isSome = true) : (keys.foldl cache.lessRecent best).isSome = true := by
  induction keys generalizing best with
  | nil => exact some
  | cons key keys ih =>
    apply ih
    cases best with
    | none => rfl
    | some other => simp only [lessRecent]; split <;> rfl

/-- A cache has no victim only if all of its keys have flights. -/
theorem victim?_eq_none_iff : cache.victim? = none ↔ cache.busy = cache.size := by
  rw [busy, size, List.countP_eq_length]
  constructor
  · intro none key member
    cases idle : cache.isIdle key.2 with
    | false => rfl
    | true =>
      have candidate : key ∈ cache.keys.filter fun key => cache.isIdle key.2 := List.mem_filter.mpr ⟨member, idle⟩
      rw [victim?] at none
      cases candidates : cache.keys.filter fun key => cache.isIdle key.2 with
      | nil => simp [candidates] at candidate
      | cons first rest =>
        rw [candidates, List.foldl_cons] at none
        have found : (rest.foldl cache.lessRecent (cache.lessRecent .none first)).isSome = true :=
          isSome_foldl_lessRecent cache rest rfl
        rw [none] at found
        contradiction
  · intro busy
    have candidates : (cache.keys.filter fun key => cache.isIdle key.2) = [] := by
      rw [List.filter_eq_nil_iff]
      intro key member
      simpa using busy key member
    rw [victim?, candidates]
    rfl

/-- Dropping a key makes one less. -/
theorem Placed.size_dropKey (placed : Placed cache) {slot : Nat} (present : (key, slot) ∈ cache.keys) :
    (cache.dropKey key).size + 1 = cache.size := by
  have one : cache.keys.countP (fun pair => pair.1 == key) = 1 := by
    have counted := List.count_eq_one_of_mem placed.keys_nodup (List.mem_map_of_mem (f := Prod.fst) present)
    rw [List.count, List.countP_map] at counted
    exact counted
  have split := List.length_eq_countP_add_countP (fun pair : String × Nat => pair.1 == key) (l := cache.keys)
  have rest : (cache.dropKey key).size = cache.keys.countP fun pair => !(pair.1 == key) := by
    rw [size, dropKey, List.countP_eq_length_filter]
    rfl
  simp only [decide_not, Bool.decide_eq_true] at split
  rw [rest, size]
  omega

/-- Dropping a key without a flight leaves those with one. -/
theorem Placed.busy_dropKey (placed : Placed cache) {slot : Nat} (present : (key, slot) ∈ cache.keys)
    (idle : cache.isIdle slot = true) : (cache.dropKey key).busy = cache.busy := by
  have same : (cache.dropKey key).busy = (cache.keys.filter (·.1 != key)).countP fun key => !cache.isIdle key.2 := rfl
  rw [same, List.countP_filter, Cache.busy]
  apply List.countP_congr
  intro pair member
  by_cases own : pair.1 = key
  · have only := placed.only present member own
    simp [only, idle]
  · simp [own]

/-- Making room in a full cache drops a key if there is one without a flight, and no key with one. -/
theorem Placed.makeRoom_counts (placed : Placed cache) :
    cache.makeRoom.busy = cache.busy ∧
      cache.makeRoom.size + (if cache.maxEntries ≤ cache.size ∧ cache.busy ≠ cache.size then 1 else 0) =
        cache.size := by
  rcases makeRoom_cases cache with ⟨same, room⟩ | ⟨key, slot, full, victim, same⟩
  · have kept : ¬ (cache.maxEntries ≤ cache.size ∧ cache.busy ≠ cache.size) := by
      rintro ⟨full, spare⟩
      rcases room with room | crowded
      · exact absurd full (Nat.not_le.mpr room)
      · exact spare (victim?_eq_none_iff.mp crowded)
    rw [same, if_neg kept]
    exact ⟨rfl, rfl⟩
  · obtain ⟨present, idle⟩ := victim?_spec victim
    have spare : cache.busy ≠ cache.size := by
      intro crowded
      rw [victim?_eq_none_iff.mpr crowded] at victim
      contradiction
    rw [same, if_pos ⟨full, spare⟩]
    exact ⟨placed.busy_dropKey present idle, placed.size_dropKey present⟩

theorem isIdle_launch (cache : Cache V) (key : String) {slot : Nat} (policy : Policy) (trigger : Trigger)
    (waiters : Nat) {own : Slot V} (there : cache.slots[slot]? = some own) :
    (cache.launch key slot policy trigger waiters).2.isIdle slot = false := by
  have installed : (cache.launch key slot policy trigger waiters).2.slots[slot]? = some _ :=
    getElem?_modify_self (fun slot : Slot V => { slot with flight := some cache.flights.size }) there
  rw [isIdle, installed]
  rfl

/-- A call that finds nothing and no flight leaves its slot with one. -/
theorem isIdle_beginCold (cache : Cache V) (call : Call V) (vacant : cache.liveFlight? call.slot = none)
    {own : Slot V} (there : cache.slots[call.slot]? = some own) :
    (cache.beginCold call).2.isIdle call.slot = false := by
  rw [beginCold_eq_of_vacant vacant]
  exact isIdle_launch (cache.count _) call.key call.policy .cold 1 there

/-- A call on a new key leaves the slot of the key with a flight. -/
theorem isIdle_begin_of_absent (absent : cache.keys.lookup key = none) (policy : Policy) (deadline : Deadline) :
    (cache.begin key policy deadline).2.isIdle (cache.touch key).1 = false := by
  have nothing : ∀ entry, cache.entryFor key = some entry → ¬ cache.IsServable policy entry := by
    intro entry found
    rw [entryFor, absent] at found
    contradiction
  have vacant : (cache.touch key).2.liveFlight? (cache.touch key).1 = none := by
    rw [liveFlight?_touch, flightFor, absent]
    rfl
  obtain ⟨own, there⟩ : ∃ own, (cache.touch key).2.slots[(cache.touch key).1]? = some own := by
    rw [touch_absent absent]
    exact ⟨_, Array.getElem?_push_size⟩
  rw [begin_empty nothing]
  exact isIdle_beginCold _ (cache.opening key policy deadline) vacant there

theorem Placed.slot_lt (placed : Placed cache) {pair : String × Nat} (member : pair ∈ cache.keys) :
    pair.2 < cache.slots.size := by
  obtain ⟨found, present, _⟩ := placed.slot_of_key pair.1 pair.2 member
  exact (Array.getElem?_eq_some_iff.mp present).1

/-- A new key is one more with a flight, and one more at all unless another could be dropped for it. -/
theorem Placed.begin_counts (placed : Placed cache) (absent : cache.keys.lookup key = none) (policy : Policy)
    (deadline : Deadline) :
    (cache.begin key policy deadline).2.busy = cache.busy + 1 ∧
      (cache.begin key policy deadline).2.size =
        if cache.maxEntries ≤ cache.size ∧ cache.busy ≠ cache.size then cache.size else cache.size + 1 := by
  have keys := begin_keys_of_absent absent policy deadline
  obtain ⟨same, room⟩ := placed.makeRoom_counts
  constructor
  · have others : cache.makeRoom.keys.countP (fun pair => !(cache.begin key policy deadline).2.isIdle pair.2) =
        cache.makeRoom.keys.countP fun pair => !cache.makeRoom.isIdle pair.2 := by
      apply List.countP_congr
      intro pair member
      have bound := placed.slot_lt (makeRoom_keys_subset cache member)
      have distinct : (cache.touch key).1 ≠ pair.2 := by
        rw [touch_absent_slot absent]
        omega
      simp only [isIdle, SlotsBut.begin cache key policy deadline pair.2 distinct, (makeRoom_frame cache).2.1]
    rw [Cache.busy, keys, List.countP_append, others, ← same, Cache.busy]
    simp [isIdle_begin_of_absent absent policy deadline]
  · have added : (cache.begin key policy deadline).2.size = cache.makeRoom.size + 1 := by
      rw [Cache.size, keys, List.length_append]
      rfl
    by_cases spare : cache.maxEntries ≤ cache.size ∧ cache.busy ≠ cache.size
    · rw [if_pos spare] at room ⊢
      omega
    · rw [if_neg spare] at room ⊢
      omega

theorem leave_maxEntries (cache : Cache V) (number : Nat) : (cache.leave number).maxEntries = cache.maxEntries := by
  obtain ⟨clock, _, same⟩ := cache.leave_eq number
  rw [same]
  rfl

theorem Move.maxEntries {before after : Stage V} (move : Move before after) :
    after.1.maxEntries = before.1.maxEntries := by
  cases move with
  | leave flight => exact leave_maxEntries _ flight
  | _ => rfl

theorem Moves.maxEntries {before after : Stage V} (moves : Moves V before after) :
    after.1.maxEntries = before.1.maxEntries :=
  @Moves.invariant V (fun stage => stage.1.maxEntries = before.1.maxEntries) _ _ moves
    (fun _ _ same move => move.maxEntries.trans same) rfl

theorem endFlight_maxEntries (cache : Cache V) (number : Nat) (flight : Flight V) (ending : GuardEnd (WorkEnd V)) :
    (cache.endFlight number flight ending).maxEntries = cache.maxEntries := by
  rcases endFlight_cases cache number flight ending with
    ⟨_, outcome, same⟩ | ⟨result, middle, outcome, _, moves, _, _, _, same⟩
  · rw [same]
    rfl
  · rw [same]
    exact moves.maxEntries

theorem step_maxEntries {event : Event V} (step : cache.step? event = some next) :
    next.maxEntries = cache.maxEntries := by
  cases event with
  | begin key policy deadline => cases step; exact (begin_moves cache key policy deadline).maxEntries
  | flight number work =>
    obtain ⟨flight, _, ⟨_, rfl⟩ | ⟨deadline, ending, _, _, rfl⟩⟩ := turnFlight?_eq_some_iff.mp step
    · rfl
    · exact endFlight_maxEntries ..
  | call number => exact (turnCall?_moves step).maxEntries
  | drop number => cases step; exact (dropCall_moves cache number).maxEntries
  | purge => cases step; rfl
  | remove key => cases step; rfl
  | pass instant => cases step; rfl
  | scope parent => cases parent <;> cases step <;> rfl
  | cancel token => cases step; rfl

/-- Only calls on new keys add keys. -/
theorem step_size {event : Event V} (step : cache.step? event = some next) (old : ¬ Inserts cache event) :
    next.size ≤ cache.size :=
  (step_keys step old).length_le

/-- The cache was as full as it is meant to be, or fuller only because as many keys had a flight at once. -/
def Crowded (rule : Rule V) (cache : Cache V) : Prop :=
  ∃ before, Reachable rule before ∧ Run rule before cache ∧ cache.size ≤ before.busy

theorem Reachable.size_le (reachable : Reachable rule cache) : cache.size ≤ cache.maxEntries ∨ Crowded rule cache := by
  obtain ⟨maxEntries, run⟩ := reachable
  induction run with
  | nil => exact .inl (Nat.zero_le _)
  | @snoc middle target event run allowed step ih =>
    have reached : Reachable rule target := ⟨maxEntries, .snoc run allowed step⟩
    have same := step_maxEntries step
    have kept (fewer : target.size ≤ middle.size) : target.size ≤ target.maxEntries ∨ Crowded rule target := by
      rcases ih with within | ⟨before, reached', run', peak⟩
      · left
        omega
      · exact .inr ⟨before, reached', .snoc run' allowed step, Nat.le_trans fewer peak⟩
    by_cases new : Inserts middle event
    · obtain ⟨key, policy, deadline, rfl, absent⟩ := new
      cases step
      obtain ⟨busy, size⟩ := (Reachable.placed ⟨maxEntries, run⟩).begin_counts absent policy deadline
      by_cases spare : middle.maxEntries ≤ middle.size ∧ middle.busy ≠ middle.size
      · rw [if_pos spare] at size
        exact kept (Nat.le_of_eq size)
      · rw [if_neg spare] at size
        by_cases room : middle.size < middle.maxEntries
        · left
          omega
        · have all : middle.busy = middle.size := by
            by_contra some
            exact spare ⟨Nat.le_of_not_lt room, some⟩
          exact .inr ⟨_, reached, .nil, by omega⟩
    · exact kept (step_size step new)

/-- Unless it was lost, the flight of a slot is still to end. -/
theorem Placed.isComputing_eq (placed : Placed cache) (aloft : ∀ flight ∈ cache.flights, flight.phase ≠ .lost)
    (slot : Nat) : cache.isComputing slot = !cache.isIdle slot := by
  unfold isComputing isIdle
  cases present : cache.slots[slot]? with
  | none => rfl
  | some found =>
    cases installed : found.flight with
    | none => simp only [installed, Option.bind_none, Option.any_none, Option.isNone_none, Bool.not_true]
    | some number =>
      obtain ⟨flight, there, _, unlanded⟩ := placed.installed slot found number present installed
      have unlost := aloft flight (Array.mem_of_getElem? there)
      simp only [installed, Option.bind_some, there, Option.any_some, Option.isNone_some, Bool.not_false]
      cases phase : flight.phase with
      | queued => simp [Flight.isRunning, phase]
      | working deadline => simp [Flight.isRunning, phase]
      | landed result => simp [Flight.hasLanded, phase] at unlanded
      | lost => exact absurd phase unlost

theorem Placed.busy_eq_computing (placed : Placed cache) (aloft : ∀ flight ∈ cache.flights, flight.phase ≠ .lost) :
    cache.busy = cache.computing := by
  apply List.countP_congr
  intro pair _
  rw [placed.isComputing_eq aloft]

/-- A call that begins loses no flight. -/
theorem begin_aloft (aloft : ∀ flight ∈ cache.flights, flight.phase ≠ .lost) (key : String) (policy : Policy)
    (deadline : Deadline) : ∀ flight ∈ (cache.begin key policy deadline).2.flights, flight.phase ≠ .lost := by
  intro flight member
  obtain ⟨number, present⟩ := Array.mem_iff_getElem?.mp member
  have alters := Alters.begin cache key policy deadline
  cases there : cache.flights[number]? with
  | none =>
    obtain ⟨_, _, _, launched⟩ := alters.launched number flight there present
    rw [launched.phase]
    nofun
  | some earlier =>
    obtain ⟨later, here, rebooked⟩ := alters.kept number earlier there
    obtain rfl := Option.some.inj (present.symm.trans here)
    rw [rebooked.same]
    exact aloft earlier (Array.mem_of_getElem? there)

/-- How many keys there are, and when a new one leaves the cache within its bound and the keys in use. -/
structure Sized (rule : Rule V) (cache : Cache V) : Prop where
  /-- A new key is one more with a flight, and one more at all unless another could be dropped for it. -/
  counts : ∀ key policy deadline, cache.keys.lookup key = none →
    (cache.begin key policy deadline).2.busy = cache.busy + 1 ∧
      (cache.begin key policy deadline).2.size =
        if cache.maxEntries ≤ cache.size ∧ cache.busy ≠ cache.size then cache.size else cache.size + 1
  /-- After a new key the cache is within its bound and the keys with a flight only if it had at most one key
  too many before. -/
  within_iff : ∀ key policy deadline, cache.keys.lookup key = none →
    ((cache.begin key policy deadline).2.size ≤
        (cache.begin key policy deadline).2.maxEntries + (cache.begin key policy deadline).2.busy ↔
      cache.size ≤ cache.maxEntries + cache.busy + 1)
  /-- The same for computations in progress, as long as none was lost. -/
  within_computing_iff : ∀ key policy deadline, cache.keys.lookup key = none →
    (∀ flight ∈ cache.flights, flight.phase ≠ .lost) →
    ((cache.begin key policy deadline).2.size ≤
        (cache.begin key policy deadline).2.maxEntries + (cache.begin key policy deadline).2.computing ↔
      cache.size ≤ cache.maxEntries + cache.computing + 1)
  /-- Nothing else adds a key. -/
  others : ∀ event next, cache.step? event = some next → ¬ Inserts cache event → next.size ≤ cache.size
  /-- There are never more keys than the cache is meant for or than once had a flight at the same time. -/
  peak : cache.size ≤ cache.maxEntries ∨ Crowded rule cache

theorem Placed.within_iff (placed : Placed cache) (absent : cache.keys.lookup key = none) (policy : Policy)
    (deadline : Deadline) :
    (cache.begin key policy deadline).2.size ≤
        (cache.begin key policy deadline).2.maxEntries + (cache.begin key policy deadline).2.busy ↔
      cache.size ≤ cache.maxEntries + cache.busy + 1 := by
  obtain ⟨busy, size⟩ := placed.begin_counts absent policy deadline
  have same : (cache.begin key policy deadline).2.maxEntries = cache.maxEntries :=
    (begin_moves cache key policy deadline).maxEntries
  rw [size, busy, same]
  split
  · omega
  · next crowded =>
    have few : cache.size < cache.maxEntries ∨ cache.busy = cache.size := by
      by_contra neither
      obtain ⟨full, spare⟩ := not_or.mp neither
      exact crowded ⟨Nat.le_of_not_lt full, spare⟩
    omega

theorem sized_of_reachable (reachable : Reachable rule cache) : Sized rule cache := by
  have placed := reachable.placed
  constructor
  · intro key policy deadline absent
    exact placed.begin_counts absent policy deadline
  · intro key policy deadline absent
    exact placed.within_iff absent policy deadline
  · intro key policy deadline absent aloft
    have placed' : Placed (cache.begin key policy deadline).2 := placed.moves (begin_moves ..)
    rw [← placed.busy_eq_computing aloft, ← placed'.busy_eq_computing (begin_aloft aloft key policy deadline)]
    exact placed.within_iff absent policy deadline
  · intro event next step old
    exact step_size step old
  · exact reachable.size_le

/-- A cache for one key has to do with three at the same time, and their computations end. -/
def rush : List (Event Nat) :=
  [.scope none, .begin "Oslo" lenient ⟨5000, ⟨[0]⟩⟩, .begin "Rome" lenient ⟨5000, ⟨[0]⟩⟩,
    .begin "Bern" lenient ⟨5000, ⟨[0]⟩⟩, .flight 0 none, .flight 1 none, .flight 2 none, .flight 0 (some (.value 1)),
    .flight 1 (some (.value 2)), .flight 2 (some (.value 3)), .call 0, .call 1, .call 2]

def rushed : Cache Nat := (rush.foldlM step? (empty 1)).getD (empty 1)

theorem reachable_rushed : Reachable Lawful rushed :=
  ⟨1, .of_events (by simp [rush, Lawful]) (rfl : rush.foldlM step? (empty 1) = some rushed)⟩

theorem sized_rushed : rushed.size = 3 ∧ rushed.maxEntries = 1 ∧ rushed.computing = 0 ∧ Sized Lawful rushed :=
  ⟨rfl, rfl, rfl, sized_of_reachable reachable_rushed⟩

/-- So a new key need not bring a cache back within its bound, even when no computation is left in progress. -/
theorem not_within_rushed :
    ¬ ∀ (cache : Cache Nat) (key : String) (policy : Policy) (deadline : Deadline), Reachable Lawful cache →
      cache.keys.lookup key = none →
      (cache.begin key policy deadline).2.size ≤
        (cache.begin key policy deadline).2.maxEntries + (cache.begin key policy deadline).2.computing := by
  intro within
  have bound := within rushed "Lima" lenient ⟨5000, ⟨[0]⟩⟩ reachable_rushed rfl
  exact absurd bound (by decide)

end HedgedForecast.Cache
