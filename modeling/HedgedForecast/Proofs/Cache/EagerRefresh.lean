import HedgedForecast.Proofs.Cache.EagerPoints
import HedgedForecast.Proofs.Cache.Provenance
import HedgedForecast.Proofs.Cache.SlotUse
import HedgedForecast.Proofs.Cache.Totals

/-! # Every value is refreshed once

The first call that finds a value fresh but past its eager point starts a refresh of it in the background, and no
other call that finds the value fresh starts one, however many there are and whatever becomes of the refresh. A
refresh that is due cannot be lost to a flight that is there already: beside a flight that is not cancelled there
is no fresh value but one for which a refresh was started.
-/

namespace HedgedForecast

/-- Between its two bounds a threshold names a point, unless the policy names none at all. -/
theorem Policy.eagerPoint_of_between {policy : Policy} (fresh : policy.ttl ≠ 0) (above : 0.0 < policy.eagerThreshold)
    (below : policy.eagerThreshold < 1.0) (named : policy.eagerPoint ≠ .undefined) :
    ∃ nanoseconds, nanosecondsOf? (policy.eagerThreshold * secondsOf policy.ttl) = some nanoseconds ∧
      policy.eagerPoint = .after nanoseconds := by
  rw [eagerPoint_eq_match fresh (Double.not_le_of_lt above) (Double.not_le_of_lt below)] at named ⊢
  cases point : nanosecondsOf? (policy.eagerThreshold * secondsOf policy.ttl) with
  | none => simp [point] at named
  | some nanoseconds => exact ⟨nanoseconds, rfl, rfl⟩

variable {V : Type}

theorem Entry.eagerDue_iff {entry : Entry V} {nanoseconds : Nat} (point : entry.policy.eagerPoint = .after nanoseconds)
    (now : Nat) : entry.eagerDue now = true ↔ entry.storedAt * 1000000 + nanoseconds ≤ now * 1000000 := by
  simp only [eagerDue, point, decide_eq_true_eq]

/-- A value that is fresh beside a flight is one for which a refresh was started. -/
def Slot.IsClaimed (found : Slot V) (now : Nat) : Prop :=
  ∀ flight entry, found.flight = some flight → found.entry = some entry → now < entry.expiresAt →
    entry.refreshing = true

namespace Cache

variable {rule : Rule V} {cache next : Cache V} {slot flight : Nat} {found later : Slot V} {entry : Entry V}

/-- A value is stored by the flight that its slot has, which leaves the slot then; and where a value is fresh, only
a refresh of it launches another flight. -/
theorem Reachable.isClaimed (reachable : Reachable rule cache) (present : cache.slots[slot]? = some found) :
    found.IsClaimed cache.clock.now := by
  refine @Reachable.forall_slots V rule (fun cache _ found => found.IsClaimed cache.clock.now) ?_ cache reachable slot
    found present
  intro cache next event slot later _ step all became flight entry installed has fresh
  have fresh : cache.clock.now < entry.expiresAt := Nat.lt_of_le_of_lt (Extends.step step).now fresh
  cases became with
  | same present => exact all slot later present flight entry installed has fresh
  | used _ present uses =>
    cases uses with
    | hit => exact all slot _ present flight entry installed has fresh
    | marked => exact Option.some.inj has ▸ rfl
    | eager => exact Option.some.inj has ▸ rfl
    | joined => exact all slot _ present flight entry installed has fresh
    | throttled => exact all slot _ present flight entry installed has fresh
    | stale own expired =>
      obtain rfl := Option.some.inj (own.symm.trans has)
      exact absurd fresh (Nat.not_lt.mpr expired)
    | cold nothing => exact absurd (.inl fresh) (nothing entry has)
  | opened => contradiction
  | left present =>
    rw [Slot.without_entry] at has
    exact all slot _ present flight entry (Slot.without_flight installed) has fresh
  | stored => contradiction

/-- What is stored is stored under a policy that does not name an eager point in vain. -/
theorem Reachable.eagerPoint_ne (reachable : Reachable rule cache) (present : cache.slots[slot]? = some found)
    (has : found.entry = some entry) : entry.policy.eagerPoint ≠ .undefined := by
  refine @Reachable.forall_slots V rule
    (fun _ _ found => ∀ entry, found.entry = some entry → entry.policy.eagerPoint ≠ .undefined) ?_ cache reachable slot
    found present entry has
  intro cache next event slot later _ _ all became entry has
  cases became with
  | same present => exact all slot later present entry has
  | used _ present uses =>
    cases uses with
    | marked own =>
      have named := all slot _ present _ own
      exact Option.some.inj has ▸ named
    | eager own =>
      have named := all slot _ present _ own
      exact Option.some.inj has ▸ named
    | _ => exact all slot _ present entry has
  | opened => contradiction
  | left present => exact all slot _ present entry (Slot.without_entry .. ▸ has)
  | stored _ point => exact Option.some.inj has ▸ point

/-- The entry that a call finds fresh. -/
def hit? (cache : Cache V) : Event V → Option (Entry V)
  | .begin key _ _ => (cache.entryFor key).filter fun entry => cache.clock.now < entry.expiresAt
  | _ => none

/-- Whether a call finds the value of the flight fresh, but past its eager point. -/
def dueHits (flight : Nat) (cache : Cache V) (event : Event V) : Nat :=
  match cache.hit? event with
  | some entry => if entry.flight = flight ∧ entry.eagerDue cache.clock.now = true then 1 else 0
  | none => 0

/-- How many flights are launched by a call that finds the value of the flight fresh. -/
def refreshes (flight : Nat) (cache : Cache V) (event : Event V) : Nat :=
  match cache.hit? event with
  | some entry =>
    if entry.flight = flight then
      ((cache.step? event).map fun next => next.flights.size - cache.flights.size).getD 0
    else 0
  | none => 0

theorem hit?_eq_some_iff {key : String} {policy : Policy} {deadline : Deadline} :
    cache.hit? (.begin key policy deadline) = some entry ↔
      cache.entryFor key = some entry ∧ cache.clock.now < entry.expiresAt := by
  simp only [hit?, Option.filter_eq_some_iff, decide_eq_true_eq]

theorem entryFor_of_lookup {key : String} (known : cache.keys.lookup key = some slot)
    (present : cache.slots[slot]? = some found) : cache.entryFor key = found.entry := by
  rw [entryFor, known, Option.bind_some, entryOf, present, Option.bind_some]

/-- How a call that finds a fresh value uses its slot: it starts a refresh if one is due and was not started. -/
theorem Uses.of_hit {policy : Policy} {trigger : Option Trigger} (uses : Uses cache policy slot found trigger later)
    (present : cache.slots[slot]? = some found) (claimed : found.IsClaimed cache.clock.now)
    (has : found.entry = some entry) (fresh : cache.clock.now < entry.expiresAt) :
    (entry.eagerDue cache.clock.now = true → entry.refreshing = true) ∧ trigger = none ∧ later.entry = some entry ∨
      entry.eagerDue cache.clock.now = true ∧ entry.refreshing = false ∧ trigger = some .eager ∧
        later.entry = some { entry with refreshing := true } := by
  cases uses with
  | hit own _ idle =>
    obtain rfl := Option.some.inj (own.symm.trans has)
    exact .inl ⟨idle, rfl, has⟩
  | marked own _ _ unclaimed live =>
    obtain rfl := Option.some.inj (own.symm.trans has)
    obtain ⟨found', _, present', installed, _⟩ := liveFlight?_eq_some_iff.mp live
    obtain rfl := Option.some.inj (present.symm.trans present')
    rw [claimed _ _ installed has fresh] at unclaimed
    contradiction
  | eager own _ due unclaimed =>
    obtain rfl := Option.some.inj (own.symm.trans has)
    exact .inr ⟨due, unclaimed, rfl, rfl⟩
  | joined expired => exact absurd fresh (Nat.not_lt.mpr (expired entry has))
  | throttled own expired =>
    obtain rfl := Option.some.inj (own.symm.trans has)
    exact absurd fresh (Nat.not_lt.mpr expired)
  | stale own expired =>
    obtain rfl := Option.some.inj (own.symm.trans has)
    exact absurd fresh (Nat.not_lt.mpr expired)
  | cold nothing => exact absurd (.inl fresh) (nothing entry has)

/-- A call that finds no fresh value marks none. -/
theorem Uses.entry_of_expired {policy : Policy} {trigger : Option Trigger}
    (uses : Uses cache policy slot found trigger later)
    (expired : ∀ entry, found.entry = some entry → entry.expiresAt ≤ cache.clock.now) :
    later.entry = found.entry := by
  cases uses with
  | marked own fresh => exact absurd fresh (Nat.not_lt.mpr (expired _ own))
  | eager own fresh => exact absurd fresh (Nat.not_lt.mpr (expired _ own))
  | _ => rfl

theorem dueHits_of_hit {event : Event V} (hit : cache.hit? event = some entry) (flight : Nat) :
    dueHits flight cache event = if entry.flight = flight ∧ entry.eagerDue cache.clock.now = true then 1 else 0 := by
  rw [dueHits, hit]

theorem refreshes_of_hit {event : Event V} (hit : cache.hit? event = some entry) (step : cache.step? event = some next)
    (flight : Nat) :
    refreshes flight cache event = if entry.flight = flight then next.flights.size - cache.flights.size else 0 := by
  rw [refreshes, hit, step]
  rfl

theorem weights_of_no_hit {event : Event V} (none : cache.hit? event = none) (flight : Nat) :
    dueHits flight cache event = 0 ∧ refreshes flight cache event = 0 := by
  simp only [dueHits, refreshes, none, and_self]

/-- After these events the calls that found the value of the flight fresh have launched one flight if one of them
found the value past its eager point, and otherwise none; and where the value is stored, this shows. -/
structure Claims (source : Cache V) (flight : Nat) (events : List (Event V)) (cache : Cache V) : Prop where
  launched : total (refreshes flight) source events = if 0 < total (dueHits flight) source events then 1 else 0
  marked : ∀ (slot : Nat) (found : Slot V) (entry : Entry V), cache.slots[slot]? = some found →
    found.entry = some entry → entry.flight = flight →
    (entry.refreshing = true ↔ 0 < total (dueHits flight) source events)
  landed : 0 < total (dueHits flight) source events →
    ∃ found result, cache.flights[flight]? = some found ∧ found.phase = .landed result

section Claims

variable {source : Cache V} {events : List (Event V)} {event : Event V}

/-- It is enough to look at what the event is booked for and at what it makes of entries. -/
theorem Claims.snoc (claims : Claims source flight events cache) (steps : events.foldlM step? source = some cache)
    (step : cache.step? event = some next)
    (launched : refreshes flight cache event =
      if total (dueHits flight) source events = 0 ∧ dueHits flight cache event ≠ 0 then 1 else 0)
    (marked : ∀ (slot : Nat) (found : Slot V) (entry : Entry V), next.slots[slot]? = some found →
      found.entry = some entry → entry.flight = flight →
      (entry.refreshing = true ↔ 0 < total (dueHits flight) source events + dueHits flight cache event))
    (landed : dueHits flight cache event ≠ 0 →
      ∃ found result, cache.flights[flight]? = some found ∧ found.phase = .landed result) :
    Claims source flight (events ++ [event]) next := by
  have before := claims.launched
  constructor
  · rw [total_snoc _ steps step, total_snoc _ steps step, before, launched]
    split <;> split <;> split <;> omega
  · rw [total_snoc _ steps step]
    exact marked
  · rw [total_snoc _ steps step]
    intro positive
    have there : ∃ found result, cache.flights[flight]? = some found ∧ found.phase = .landed result := by
      by_cases due : dueHits flight cache event = 0
      · exact claims.landed (by omega)
      · exact landed due
    obtain ⟨found, result, present, phase⟩ := there
    obtain ⟨later, here, kept⟩ := step_landed step present phase
    rw [kept.same] at here
    exact ⟨_, result, here, phase⟩

/-- An event that is no hit only has to leave entries alone. -/
theorem Claims.snoc_of_no_hit (claims : Claims source flight events cache)
    (steps : events.foldlM step? source = some cache) (step : cache.step? event = some next)
    (none : cache.hit? event = none)
    (entries : ∀ (slot : Nat) (found : Slot V) (entry : Entry V), next.slots[slot]? = some found →
      found.entry = some entry → entry.flight = flight →
      ∃ earlier, cache.slots[slot]? = some earlier ∧ earlier.entry = some entry) :
    Claims source flight (events ++ [event]) next := by
  obtain ⟨due, refresh⟩ := weights_of_no_hit none flight
  refine claims.snoc steps step ?_ (fun slot found entry present has own => ?_) fun positive => absurd due positive
  · rw [refresh, due, if_neg fun first => first.2 rfl]
  · obtain ⟨earlier, there, had⟩ := entries slot found entry present has own
    rw [due]
    exact claims.marked slot earlier entry there had own

/-- What a slot holds was stored by a flight that has landed, and which belongs to the slot. -/
theorem Reachable.landed_of_entry (reachable : Reachable rule cache) (present : cache.slots[slot]? = some found)
    (has : found.entry = some entry) :
    ∃ stored result, cache.flights[entry.flight]? = some stored ∧ stored.slot = slot ∧
      stored.phase = .landed result := by
  have holds : cache.content slot = some entry.core := by
    rw [content, entryOf, present, Option.bind_some, has, Option.map_some]
  obtain ⟨stored, there, own, _, landed, _⟩ := reachable.storedBy holds
  exact ⟨stored, _, there, own, landed⟩

section Hit

variable (claims : Claims source flight events cache) (reachable : Reachable rule cache)
  (steps : events.foldlM step? source = some cache) {key : String} {policy : Policy} {deadline : Deadline}
  (step : cache.step? (.begin key policy deadline) = some next)
  (hit : cache.hit? (.begin key policy deadline) = some entry) (present : cache.slots[slot]? = some found)
  (has : found.entry = some entry)

include hit present has reachable in
theorem landed_of_due (due : dueHits flight cache (.begin key policy deadline) ≠ 0) :
    ∃ found result, cache.flights[flight]? = some found ∧ found.phase = .landed result := by
  obtain ⟨stored, result, there, _, landed⟩ := reachable.landed_of_entry present has
  by_cases own : entry.flight = flight
  · exact ⟨stored, result, own ▸ there, landed⟩
  · exact absurd ((dueHits_of_hit hit flight).trans (if_neg fun both => own both.1)) due

include claims reachable steps step hit present has

/-- A hit starts no refresh if none is due or an earlier hit has started it. -/
theorem Claims.snoc_of_idle_hit (idle : entry.eagerDue cache.clock.now = true → entry.refreshing = true)
    (same : later.entry = some entry)
    (leaves : Leaves cache next slot none { later with lastAccess := cache.tick })
    (others : SlotsBut slot cache next) : Claims source flight (events ++ [.begin key policy deadline]) next := by
  have before := claims.marked slot found entry present has
  have earlier (due : dueHits flight cache (.begin key policy deadline) ≠ 0) :
      0 < total (dueHits flight) source events := by
    rw [dueHits_of_hit hit] at due
    split at due
    · next both => exact (before both.1).mp (idle both.2)
    · contradiction
  cases leaves.launches with
  | nothing size =>
    refine claims.snoc steps step ?_ (fun place after held there had own => ?_)
      (landed_of_due reachable hit present has)
    · rw [refreshes_of_hit hit step, size, Nat.sub_self, ite_self, if_neg]
      rintro ⟨none, due⟩
      exact absurd (earlier due) (by omega)
    · have marks : held.refreshing = true ↔ 0 < total (dueHits flight) source events := by
        obtain ⟨rfl, rfl⟩ | ⟨_, old⟩ := leaves.slot_cases others there
        · obtain rfl := Option.some.inj (had.symm.trans same)
          exact before own
        · exact claims.marked place after held old had own
      rw [marks]
      omega

/-- The first hit past the eager point starts a refresh and marks the value, which is nowhere else. -/
theorem Claims.snoc_of_first_hit (due : entry.eagerDue cache.clock.now = true) (unclaimed : entry.refreshing = false)
    (marked : later.entry = some { entry with refreshing := true })
    (leaves : Leaves cache next slot (some .eager) { later with lastAccess := cache.tick })
    (others : SlotsBut slot cache next) : Claims source flight (events ++ [.begin key policy deadline]) next := by
  have weighed := dueHits_of_hit hit flight
  cases leaves.launches with
  | one size =>
    have booked := refreshes_of_hit hit step flight
    rw [size, Nat.add_sub_cancel_left] at booked
    refine claims.snoc steps step ?_ (fun place after held there had same => ?_)
      (landed_of_due reachable hit present has)
    · by_cases own : entry.flight = flight
      · have none := claims.marked slot found entry present has own
        rw [unclaimed] at none
        rw [if_pos own] at booked
        rw [if_pos ⟨own, due⟩] at weighed
        rw [booked, weighed, if_pos ⟨by simpa using none, Nat.one_ne_zero⟩]
      · rw [if_neg own] at booked
        rw [if_neg fun both => own both.1] at weighed
        rw [booked, weighed, if_neg fun first => first.2 rfl]
    · obtain ⟨rfl, rfl⟩ | ⟨distinct, old⟩ := leaves.slot_cases others there
      · obtain rfl := Option.some.inj (had.symm.trans marked)
        rw [weighed, if_pos ⟨same, due⟩]
        exact ⟨fun _ => Nat.succ_pos _, fun _ => rfl⟩
      · have other : entry.flight ≠ flight := by
          intro own
          obtain ⟨stored, _, aloft, home, _⟩ := reachable.landed_of_entry present has
          obtain ⟨stored', _, aloft', home', _⟩ := reachable.landed_of_entry old had
          rw [own] at aloft
          rw [same] at aloft'
          obtain rfl := Option.some.inj (aloft.symm.trans aloft')
          exact distinct (home.symm.trans home')
        rw [weighed, if_neg fun both => other both.1]
        exact claims.marked place after held old had same

theorem Claims.snoc_of_hit {trigger : Option Trigger} (uses : Uses cache policy slot found trigger later)
    (leaves : Leaves cache next slot trigger { later with lastAccess := cache.tick })
    (others : SlotsBut slot cache next) : Claims source flight (events ++ [.begin key policy deadline]) next := by
  have fresh := (hit?_eq_some_iff.mp hit).2
  rcases uses.of_hit present (reachable.isClaimed present) has fresh with
    ⟨idle, rfl, same⟩ | ⟨due, unclaimed, rfl, marked⟩
  · exact claims.snoc_of_idle_hit reachable steps step hit present has idle same leaves others
  · exact claims.snoc_of_first_hit reachable steps step hit present has due unclaimed marked leaves others

end Hit

/-- Nobody has found the value of a flight that is still live. -/
theorem Claims.not_due {aloft : Flight V} (claims : Claims source flight events cache) (live : cache.Live flight aloft) :
    ¬ 0 < total (dueHits flight) source events := by
  intro positive
  obtain ⟨found, result, present, phase⟩ := claims.landed positive
  obtain rfl := Option.some.inj (live.present.symm.trans present)
  have running := live.running
  simp [Flight.isRunning, phase] at running

theorem Claims.step (claims : Claims source flight events cache) (reachable : Reachable rule cache)
    (steps : events.foldlM step? source = some cache) (step : cache.step? event = some next) :
    Claims source flight (events ++ [event]) next := by
  cases reachable.reworks step with
  | quiet silent kept =>
    have none : cache.hit? event = none := by
      cases event with
      | begin => contradiction
      | _ => rfl
    exact claims.snoc_of_no_hit steps step none fun slot found entry present has _ => ⟨found, kept.slots ▸ present, has⟩
  | @asked key policy deadline slot found later trigger known present uses leaves others =>
    have finds := entryFor_of_lookup known present
    cases hit : cache.hit? (.begin key policy deadline) with
    | some entry =>
      have has := finds.symm.trans (hit?_eq_some_iff.mp hit).1
      exact claims.snoc_of_hit reachable steps step hit present has uses leaves others
    | none =>
      have expired : ∀ entry, found.entry = some entry → entry.expiresAt ≤ cache.clock.now := by
        intro entry has
        by_contra fresh
        rw [hit?_eq_some_iff.mpr ⟨finds.trans has, Nat.lt_of_not_le fresh⟩] at hit
        contradiction
      refine claims.snoc_of_no_hit steps step hit fun place after entry there has own => ?_
      obtain ⟨rfl, rfl⟩ | ⟨_, old⟩ := leaves.slot_cases others there
      · exact ⟨found, present, (uses.entry_of_expired expired).symm.trans has⟩
      · exact ⟨after, old, has⟩
  | @opened key policy deadline absent leaves others =>
    have none : cache.hit? (.begin key policy deadline) = none := by
      rw [hit?, entryFor, absent]
      rfl
    refine claims.snoc_of_no_hit steps step none fun place after entry there has own => ?_
    obtain ⟨rfl, rfl⟩ | ⟨_, old⟩ := leaves.slot_cases others there
    · contradiction
    · exact ⟨after, old, has⟩
  | left present there leaves others =>
    refine claims.snoc_of_no_hit steps step rfl fun place after entry here has own => ?_
    obtain ⟨rfl, rfl⟩ | ⟨_, old⟩ := leaves.slot_cases others here
    · exact ⟨_, there, Slot.without_entry .. ▸ has⟩
    · exact ⟨after, old, has⟩
  | @stored number _ _ value live point there leaves others =>
    obtain ⟨due, refresh⟩ := @weights_of_no_hit V cache (.flight number (some (.value value))) rfl flight
    refine claims.snoc steps step ?_ (fun place after entry here has own => ?_) fun positive => absurd due positive
    · rw [refresh, due, if_neg fun first => first.2 rfl]
    · rw [due]
      obtain ⟨rfl, rfl⟩ | ⟨_, old⟩ := leaves.slot_cases others here
      · obtain rfl := Option.some.inj has
        obtain rfl : number = flight := own
        exact ⟨fun marked => absurd marked Bool.false_ne_true, fun positive => absurd positive (claims.not_due live)⟩
      · exact claims.marked place after entry old has own

theorem claims_of_steps {maxEntries : Nat} (steps : events.foldlM step? (empty maxEntries) = some cache)
    (flight : Nat) : Claims (empty maxEntries) flight events cache := by
  have initial : Claims (empty maxEntries) flight [] (empty maxEntries : Cache V) := by
    refine ⟨rfl, ?_, fun positive => absurd positive (Nat.lt_irrefl 0)⟩
    simp [empty]
  exact foldlM_induction initial
    (fun events cache event next before claims step => claims.step (reachable_of_steps before) before step) steps

end Claims

/-- How often a value that the flight stored is refreshed while it is fresh, after these events and by any call that
begins then. -/
structure RefreshedOnce (maxEntries : Nat) (events : List (Event V)) (cache : Cache V) (flight : Nat) : Prop where
  /-- However many calls find the value fresh, they start one refresh at most, whatever becomes of it. -/
  once : total (refreshes flight) (empty maxEntries) events ≤ 1
  /-- They start one if a call has found the value past its eager point. -/
  due : 0 < total (dueHits flight) (empty maxEntries) events → total (refreshes flight) (empty maxEntries) events = 1
  undue : total (dueHits flight) (empty maxEntries) events = 0 → total (refreshes flight) (empty maxEntries) events = 0
  /-- A call that finds the value fresh has it at once. -/
  served : ∀ key policy deadline entry, cache.hit? (.begin key policy deadline) = some entry → entry.flight = flight →
    ∃ call, (cache.begin key policy deadline).2.calls = cache.calls.push call ∧
      call.phase = .returned (.ok entry.value) cache.clock.now
  /-- The first one to find it past its eager point starts the refresh, under its own policy. -/
  first : ∀ key policy deadline entry, cache.hit? (.begin key policy deadline) = some entry → entry.flight = flight →
    entry.eagerDue cache.clock.now = true → total (dueHits flight) (empty maxEntries) events = 0 →
    (cache.begin key policy deadline).2.flights.size = cache.flights.size + 1 ∧
      ∃ launched, (cache.begin key policy deadline).2.flights[cache.flights.size]? = some launched ∧
        launched.trigger = .eager ∧ cache.keys.lookup key = some launched.slot ∧
        launched.LaunchedBy key policy cache.clock.now
  /-- Those before it and those after it start nothing. -/
  others : ∀ key policy deadline entry, cache.hit? (.begin key policy deadline) = some entry → entry.flight = flight →
    entry.eagerDue cache.clock.now = false ∨ 0 < total (dueHits flight) (empty maxEntries) events →
    (cache.begin key policy deadline).2.flights.size = cache.flights.size
  /-- The eager point is told by the policy under which the value was stored. -/
  point : ∀ key entry, cache.entryFor key = some entry → entry.flight = flight → entry.policy.ttl ≠ 0 →
    0.0 < entry.policy.eagerThreshold → entry.policy.eagerThreshold < 1.0 →
    ∃ nanoseconds, nanosecondsOf? (entry.policy.eagerThreshold * secondsOf entry.policy.ttl) = some nanoseconds ∧
      ∀ now, entry.eagerDue now = true ↔ entry.storedAt * 1000000 + nanoseconds ≤ now * 1000000

/-- What a hit launches after these events is told by whether it is the first one past the eager point. -/
theorem Claims.launches_of_hit {source : Cache V} {events : List (Event V)} (claims : Claims source flight events cache)
    (reachable : Reachable rule cache) {key : String} {policy : Policy} {deadline : Deadline}
    (hit : cache.hit? (.begin key policy deadline) = some entry) (own : entry.flight = flight) :
    ∃ slot trigger, cache.keys.lookup key = some slot ∧
      Launches cache (cache.begin key policy deadline).2 slot trigger ∧
      (entry.eagerDue cache.clock.now = true ∧ total (dueHits flight) source events = 0 ∧ trigger = some .eager ∨
        (entry.eagerDue cache.clock.now = true → 0 < total (dueHits flight) source events) ∧ trigger = none) := by
  obtain ⟨there, fresh⟩ := hit?_eq_some_iff.mp hit
  obtain ⟨slot, known, held⟩ := Option.bind_eq_some_iff.mp there
  obtain ⟨found, present, has⟩ := Option.bind_eq_some_iff.mp held
  obtain ⟨trigger, later, uses, leaves⟩ := begin_uses known present policy deadline
  have marks := claims.marked slot found entry present has own
  refine ⟨slot, trigger, known, leaves.launches, ?_⟩
  rcases uses.of_hit present (reachable.isClaimed present) has fresh with
    ⟨idle, none, _⟩ | ⟨pastDue, unclaimed, started, _⟩
  · exact .inr ⟨fun pastDue => marks.mp (idle pastDue), none⟩
  · rw [unclaimed] at marks
    exact .inl ⟨pastDue, by simpa using marks, started⟩

theorem refreshedOnce_of_steps {maxEntries : Nat} {events : List (Event V)}
    (steps : events.foldlM step? (empty maxEntries) = some cache) (flight : Nat) :
    RefreshedOnce maxEntries events cache flight := by
  have reachable := reachable_of_steps steps
  have claims := claims_of_steps steps flight
  have launched := claims.launched
  refine ⟨?_, fun positive => ?_, fun none => ?_, ?_, ?_, ?_, ?_⟩
  · rw [launched]
    split <;> omega
  · rw [launched, if_pos positive]
  · rw [launched, none, if_neg (Nat.lt_irrefl 0)]
  · intro key policy deadline entry hit _
    obtain ⟨there, fresh⟩ := hit?_eq_some_iff.mp hit
    obtain ⟨clock, _, calls, _⟩ := touch_frame cache key
    obtain ⟨_, added⟩ := beginHit_call (cache.touch key).2 (cache.opening key policy deadline) entry
    rw [begin_fresh there fresh, added, calls, clock]
    exact ⟨_, rfl, rfl⟩
  · intro key policy deadline entry hit own pastDue none
    obtain ⟨slot, trigger, known, launches, ⟨_, _, rfl⟩ | ⟨earlier, _⟩⟩ := claims.launches_of_hit reachable hit own
    · cases launches with
      | @one started _ size present home reason =>
        obtain ⟨_, _, asked, new⟩ := (Alters.begin cache key policy deadline).launched _ started
          Array.getElem?_size present
        cases asked
        exact ⟨size, started, present, reason, home ▸ known, new⟩
    · exact absurd (earlier pastDue) (none ▸ Nat.lt_irrefl 0)
  · intro key policy deadline entry hit own late
    obtain ⟨slot, trigger, _, launches, ⟨pastDue, none, _⟩ | ⟨_, rfl⟩⟩ := claims.launches_of_hit reachable hit own
    · rcases late with early | earlier
      · rw [pastDue] at early
        contradiction
      · exact absurd earlier (none ▸ Nat.lt_irrefl 0)
    · cases launches with
      | nothing size => exact size
  · intro key entry there _ fresh above below
    obtain ⟨slot, _, held⟩ := Option.bind_eq_some_iff.mp there
    obtain ⟨found, present, has⟩ := Option.bind_eq_some_iff.mp held
    obtain ⟨nanoseconds, exactly, point⟩ :=
      Policy.eagerPoint_of_between fresh above below (reachable.eagerPoint_ne present has)
    exact ⟨nanoseconds, exactly, Entry.eagerDue_iff point⟩

/-- A policy under which values are fresh for a second and are refreshed after half of it. -/
def halfway : Policy where
  ttl := 1000
  failSafe := false
  maxAge := 0
  throttle := 0
  softTimeout := 0
  hardTimeout := 0
  eagerThreshold := 0.5

/-- A value is read early, by two callers past its eager point, and once more after its refresh has failed. -/
def readings : List (Event Nat) :=
  [.scope none, .begin "Oslo" halfway ⟨5000, ⟨[0]⟩⟩, .flight 0 none, .flight 0 (some (.value 7)), .call 0, .pass 499,
    .begin "Oslo" halfway ⟨5000, ⟨[0]⟩⟩, .pass 500, .begin "Oslo" halfway ⟨5000, ⟨[0]⟩⟩,
    .begin "Oslo" halfway ⟨5000, ⟨[0]⟩⟩, .flight 1 none, .flight 1 (some (.failure .cancelled)), .pass 999,
    .begin "Oslo" halfway ⟨5000, ⟨[0]⟩⟩]

theorem refreshedOnce_readings :
    ∃ cache, readings.foldlM step? (empty 1) = some cache ∧ RefreshedOnce 1 readings cache 0 ∧
      total (dueHits 0) (empty 1) readings = 3 ∧ total (refreshes 0) (empty 1) readings = 1 := by
  obtain ⟨cache, steps⟩ : ∃ cache, readings.foldlM step? (empty 1) = some cache :=
    Option.isSome_iff_exists.mp (by decide +kernel)
  exact ⟨cache, steps, refreshedOnce_of_steps steps 0, by decide +kernel, by decide +kernel⟩

end Cache

end HedgedForecast
