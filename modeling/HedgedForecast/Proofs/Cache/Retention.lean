import HedgedForecast.Proofs.Cache.Attendance
import HedgedForecast.Proofs.Cache.Keys
import HedgedForecast.Proofs.Cache.SingleFlight

/-! # No servable entry is lost

What a flight stores becomes the entry of its key, unless the key was removed while the flight ran. As long as
an entry may be served it stays the entry of its key, through failures, cancellations, timeouts and panics of
computations, through whatever callers ask and see, and through purges. Only three things put an end to it: a
later flight of the key stores another value, the key is removed, or a full cache makes room and the key is the
one called least recently among those without a flight.
-/

namespace HedgedForecast

variable {V : Type}

/-- Entries that differ only in whether a refresh was started are servable for the same time. -/
theorem Entry.servableUntil_of_core {entry other : Entry V} (same : other.core = entry.core) :
    other.servableUntil = entry.servableUntil := by
  have until_ : other.core.servableUntil = entry.core.servableUntil := by rw [same]
  exact until_

/-- The value that a flight stores by ending in some way. -/
def Flight.stores (flight : Flight V) : GuardEnd (WorkEnd V) → Option V
  | .done (.value value) =>
    if flight.policy.storesEntries && flight.policy.eagerPoint != .undefined then some value else none
  | _ => none

theorem Flight.stores_eq_some_iff {flight : Flight V} {ending : GuardEnd (WorkEnd V)} {value : V} :
    flight.stores ending = some value ↔
      ending = .done (.value value) ∧ flight.policy.storesEntries = true ∧ flight.policy.eagerPoint ≠ .undefined := by
  constructor
  · intro stores
    cases ending with
    | cancelled => contradiction
    | expired => contradiction
    | done work =>
      cases work with
      | failure failure => contradiction
      | panicked => contradiction
      | value computed =>
        simp only [Flight.stores] at stores
        split at stores
        · next conditions =>
          cases stores
          simpa using conditions
        · contradiction
  · rintro ⟨rfl, stores, point⟩
    simp [Flight.stores, stores, point]

/-- A value is stored by landing with it. -/
theorem Flight.endPhase_of_stores {flight : Flight V} {ending : GuardEnd (WorkEnd V)} {value : V}
    (stores : flight.stores ending = some value) : flight.endPhase ending = .landed (.ok value) := by
  obtain ⟨rfl, _, named⟩ := stores_eq_some_iff.mp stores
  simp [endPhase, named]

namespace Cache

theorem entryOf_uninstall (cache : Cache V) (number : Nat) (flight : Flight V) (slot : Nat) :
    (cache.uninstall number flight).entryOf slot = cache.entryOf slot := by
  simp only [entryOf, uninstall, modifySlot, Array.getElem?_modify]
  split
  · cases cache.slots[slot]? with
    | none => rfl
    | some found => simp only [Option.map_some, Option.bind_some]; split <;> rfl
  · rfl

theorem entryOf_store (cache : Cache V) (number : Nat) {flight : Flight V} (value : V) {found : Slot V}
    (present : cache.slots[flight.slot]? = some found) (slot : Nat) :
    (cache.store number flight value).entryOf slot =
      if slot = flight.slot then
        some { value, storedAt := cache.clock.now, policy := flight.policy, flight := number }
      else cache.entryOf slot := by
  simp only [entryOf, store, modifySlot, Array.getElem?_modify, eq_comm (a := flight.slot)]
  split
  · next own => simp [own, present]
  · rfl

/-- A flight that ends changes the entry of its own slot at most, and that only by storing a value. -/
theorem endFlight_entryOf (cache : Cache V) (number : Nat) {flight : Flight V} (ending : GuardEnd (WorkEnd V))
    {found : Slot V} (present : cache.slots[flight.slot]? = some found) (slot : Nat) :
    (cache.endFlight number flight ending).entryOf slot =
      match flight.stores ending with
      | some value =>
        if slot = flight.slot then
          some { value, storedAt := cache.clock.now, policy := flight.policy, flight := number }
        else cache.entryOf slot
      | none => cache.entryOf slot := by
  generalize ended : cache.endFlight number flight ending = next
  have nothing (other : ∀ value, flight.endPhase ending ≠ .landed (.ok value)) : flight.stores ending = none :=
    Option.eq_none_iff_forall_ne_some.mpr fun value stores => other value (Flight.endPhase_of_stores stores)
  cases endFlight_landing ended with
  | failed phase =>
    rw [nothing fun value => by simp [phase]]
    exact entryOf_uninstall (cache.count _) number flight slot
  | lost phase =>
    rw [nothing fun value => by simp [phase]]
    rfl
  | @passed value _ passes =>
    simp only [Flight.stores, passes, Bool.false_and, Bool.false_eq_true, if_false]
    exact entryOf_uninstall cache number flight slot
  | @stored value _ stores named =>
    have point : (flight.policy.eagerPoint != .undefined) = true := bne_iff_ne.mpr named
    have landed : ((((cache.store number flight value).uninstall number flight).close number
        (.landed (.ok value)) .ok).entryOf slot) = (cache.store number flight value).entryOf slot :=
      entryOf_uninstall (cache.store number flight value) number flight slot
    simp only [Flight.stores, stores, point, Bool.and_self, if_true]
    exact landed.trans (entryOf_store cache number value present slot)

variable {rule : Rule V} {cache next later : Cache V} {key : String} {entry : Entry V} {number : Nat}
  {flight : Flight V}

/-- The key has the entry, perhaps with a refresh started for it by now. -/
def Holds (cache : Cache V) (key : String) (entry : Entry V) : Prop :=
  ∃ held, cache.entryFor key = some held ∧ held.core = entry.core

/-- The event gives the key another entry or takes the key away. -/
inductive Displaces (cache : Cache V) (key : String) (next : Cache V) : Event V → Prop
  /-- A flight of the key lands with a value that its policy stores. -/
  | replaced {number : Nat} {flight : Flight V} {value : V} (present : cache.flights[number]? = some flight)
      (own : flight.key = key) (running : flight.isRunning = true) (stores : flight.policy.storesEntries = true)
      (found : next.entryFor key = some
        { value, storedAt := cache.clock.now, policy := flight.policy, flight := number }) :
      Displaces cache key next (.flight number (some (.value value)))
  | removed (gone : next.keys.lookup key = none) : Displaces cache key next (.remove key)
  /-- The cache is full, another key is new to it, and this one is the least recently called of those without a
  flight. -/
  | evicted {other : String} {policy : Policy} {deadline : Deadline} {slot : Nat}
      (known : cache.keys.lookup key = some slot) (absent : cache.keys.lookup other = none)
      (full : cache.maxEntries ≤ cache.keys.length) (victim : cache.victim? = some (key, slot))
      (gone : next.keys.lookup key = none) : Displaces cache key next (.begin other policy deadline)

theorem holds_of_content {slot : Nat} (known : next.keys.lookup key = some slot)
    (there : cache.entryOf slot = some entry) (same : next.content slot = cache.content slot) :
    Holds next key entry := by
  have held : (next.entryOf slot).map Entry.core = some entry.core := by
    rw [← content, same, content, there]
    rfl
  obtain ⟨entry', found, core⟩ := Option.map_eq_some_iff.mp held
  refine ⟨entry', ?_, core⟩
  rw [entryFor, known]
  exact found

/-- What a flight that ends does to the entry of a key that it leaves in its slot. -/
theorem Placed.holds_turnFlight (placed : Placed cache) {slot : Nat} (known : cache.keys.lookup key = some slot)
    (there : cache.entryOf slot = some entry) {work : Option (WorkEnd V)}
    (turn : cache.turnFlight? number work = some next) :
    Holds next key entry ∨ Displaces cache key next (.flight number work) := by
  obtain ⟨flight, present, ⟨_, rfl⟩ | ⟨deadline, ending, working, verdict, rfl⟩⟩ := turnFlight?_eq_some_iff.mp turn
  · exact .inl (holds_of_content known there (content_congr rfl slot))
  · obtain ⟨own, owned, named⟩ := placed.slot_of_flight number flight present
    have kept : (cache.endFlight number flight ending).keys.lookup key = some slot := by
      rw [endFlight_keys]
      exact known
    have entries := endFlight_entryOf cache number ending owned slot
    cases stores : flight.stores ending with
    | none =>
      simp only [stores] at entries
      exact .inl ⟨entry, by rw [entryFor, kept]; exact entries.trans there, rfl⟩
    | some value =>
      simp only [stores] at entries
      by_cases same : slot = flight.slot
      · obtain ⟨rfl, storing, _⟩ := Flight.stores_eq_some_iff.mp stores
        obtain ⟨found, present', named'⟩ := placed.slot_of_key key slot (mem_of_lookup known)
        rw [same, owned] at present'
        obtain rfl := Option.some.inj present'
        obtain ⟨_, absurd⟩ | ⟨_, _, absurd⟩ | ⟨_, _, result, done, computed⟩ := Deadline.verdict_cases verdict
        · contradiction
        · contradiction
        · cases computed
          subst done
          rw [if_pos same] at entries
          refine .inr (.replaced present (named.symm.trans named') (by simp [Flight.isRunning, working]) storing ?_)
          rw [entryFor, kept]
          exact entries
      · rw [if_neg same] at entries
        exact .inl ⟨entry, by rw [entryFor, kept]; exact entries.trans there, rfl⟩

/-- An entry that may be served stays the entry of its key, or what ends that is known. -/
theorem Placed.holds_step (placed : Placed cache) (found : cache.entryFor key = some entry)
    (servable : cache.clock.now < entry.servableUntil) {event : Event V} (step : cache.step? event = some next) :
    Holds next key entry ∨ Displaces cache key next event := by
  obtain ⟨slot, known, there⟩ := Option.bind_eq_some_iff.mp found
  have unspent : cache.isSpent slot = false := by
    simp only [isSpent, there]
    exact decide_eq_false (Nat.not_le.mpr servable)
  rcases placed.lookup_step known step with kept | ⟨gone, dropped⟩
  · rcases step_alters step with ⟨number, work, rfl⟩ | ⟨instant, rfl⟩ | altered
    · exact placed.holds_turnFlight known there step
    · cases step
      exact .inl (holds_of_content kept there (content_congr rfl slot))
    · exact .inl (holds_of_content kept there (altered.content slot))
  · right
    cases dropped with
    | evicted absent full victim => exact .evicted known absent full victim gone
    | removed => exact .removed gone
    | purged _ spent =>
      rw [unspent] at spent
      contradiction
    | failed _ spent =>
      rw [unspent] at spent
      contradiction

/-- On the run something put an end to the entry of the key, which it had until then. -/
def DisplacedIn (rule : Rule V) (cache : Cache V) (key : String) (entry : Entry V) (later : Cache V) : Prop :=
  ∃ before event after, Run rule cache before ∧ Holds before key entry ∧ rule before event ∧
    before.step? event = some after ∧ Displaces before key after event ∧ Run rule after later

theorem DisplacedIn.snoc {event : Event V} (displaced : DisplacedIn rule cache key entry later)
    (allowed : rule later event) (step : later.step? event = some next) : DisplacedIn rule cache key entry next := by
  obtain ⟨before, event', after, run, held, allowed', step', displaces, rest⟩ := displaced
  exact ⟨before, event', after, run, held, allowed', step', displaces, .snoc rest allowed step⟩

/-- An entry stays the entry of its key for as long as it may be served, unless something displaces it. -/
theorem Reachable.holds_run (reachable : Reachable rule cache) (found : cache.entryFor key = some entry)
    (run : Run rule cache later) (servable : later.clock.now < entry.servableUntil) :
    Holds later key entry ∨ DisplacedIn rule cache key entry later := by
  induction run with
  | nil => exact .inl ⟨entry, found, rfl⟩
  | @snoc middle target event run allowed step ih =>
    have now : middle.clock.now ≤ target.clock.now := (Extends.step step).now
    rcases ih (Nat.lt_of_le_of_lt now servable) with ⟨held, found', same⟩ | displaced
    · have servable' : middle.clock.now < held.servableUntil := by
        rw [Entry.servableUntil_of_core same]
        exact Nat.lt_of_le_of_lt now servable
      rcases (reachable.extend run).placed.holds_step found' servable' step with ⟨last, found'', same'⟩ | displaces
      · exact .inl ⟨last, found'', same'.trans same⟩
      · exact .inr ⟨middle, event, target, run, ⟨held, found', same⟩, allowed, step, displaces, .nil⟩
    · exact .inr (displaced.snoc allowed step)

/-- The key was removed while the flight of it ran. -/
def RemovedIn (rule : Rule V) (cache : Cache V) (key : String) (number : Nat) : Prop :=
  ∃ before after flight, Reachable rule before ∧ before.Live number flight ∧ flight.key = key ∧
    rule before (.remove key) ∧ before.step? (.remove key) = some after ∧ Run rule after cache

theorem RemovedIn.snoc {event : Event V} (removed : RemovedIn rule cache key number) (allowed : rule cache event)
    (step : cache.step? event = some next) : RemovedIn rule next key number := by
  obtain ⟨before, after, flight, reached, live, own, allowed', step', run⟩ := removed
  exact ⟨before, after, flight, reached, live, own, allowed', step', .snoc run allowed step⟩

/-- A flight that a call launches is launched in the slot of the key. -/
theorem Placed.lookup_launched (placed : Placed cache) {policy : Policy} {deadline : Deadline}
    (absent : cache.flights[number]? = none) (live : (cache.begin key policy deadline).2.Live number flight) :
    (cache.begin key policy deadline).2.keys.lookup flight.key = some flight.slot := by
  obtain ⟨key', policy', asked, launched⟩ :=
    (Alters.begin cache key policy deadline).launched number flight absent live.present
  cases asked
  have placed' : Placed (cache.begin key policy deadline).2 := placed.moves (begin_moves ..)
  obtain ⟨found, present, installed⟩ := placed'.live number flight live
  rw [begin_keys, launched.key, Cache.lookup_touch]
  by_contra elsewhere
  rw [SlotsBut.begin cache key policy deadline flight.slot (by simpa using elsewhere)] at present
  obtain ⟨flight', present', _, _⟩ := placed.installed flight.slot found number present installed
  rw [absent] at present'
  contradiction

/-- A flight that was launched earlier and is live was live before. -/
theorem Live.of_step {event : Event V} (live : next.Live number flight) (step : cache.step? event = some next)
    {earlier : Flight V} (present : cache.flights[number]? = some earlier) :
    cache.Live number earlier ∧ earlier.key = flight.key ∧ earlier.slot = flight.slot := by
  obtain ⟨flight', there, follows⟩ := (Extends.step step).flights number earlier present
  obtain rfl := Option.some.inj (live.present.symm.trans there)
  refine ⟨⟨present, ?_, ?_⟩, follows.key.symm, follows.slot.symm⟩
  · by_contra ended
    have past := live.running
    rw [Flight.isRunning, follows.ended (by simpa using ended)] at past
    exact ended past
  · by_contra cancelled
    have still := (Extends.step step).cancelled earlier.token (by simpa using cancelled)
    rw [← follows.token, live.uncancelled] at still
    contradiction

/-- The slot of a live flight is that of its key, unless the key was removed while the flight ran. -/
theorem Reachable.lookup_of_live (reachable : Reachable rule cache) (live : cache.Live number flight) :
    cache.keys.lookup flight.key = some flight.slot ∨ RemovedIn rule cache flight.key number := by
  obtain ⟨maxEntries, run⟩ := reachable
  induction run generalizing flight with
  | nil => simpa [empty] using live.present
  | @snoc middle target event run allowed step ih =>
    have placed : Placed middle := Reachable.placed ⟨maxEntries, run⟩
    cases there : middle.flights[number]? with
    | none =>
      obtain ⟨key, policy, deadline, rfl, _⟩ := step_launched step there live.present
      cases step
      exact .inl (placed.lookup_launched there live)
    | some earlier =>
      obtain ⟨live', key, slot⟩ := live.of_step step there
      rcases ih live' with known | removed
      · rcases placed.lookup_step_of_busy known (placed.busy live') step with kept | rfl
        · left
          rw [← key, ← slot]
          exact kept
        · right
          rw [← key]
          exact ⟨middle, target, earlier, ⟨maxEntries, run⟩, live', rfl, allowed, step, .nil⟩
      · rw [← key]
        exact .inr (removed.snoc allowed step)

/-- What a flight stores becomes the entry of its key, unless the key was removed while the flight ran. -/
theorem Reachable.entryFor_stored (reachable : Reachable rule cache) {value : V}
    (turn : cache.turnFlight? number (some (.value value)) = some next)
    (present : cache.flights[number]? = some flight) (stores : flight.policy.storesEntries = true)
    {landed : Flight V} (there : next.flights[number]? = some landed) (done : landed.phase = .landed (.ok value)) :
    next.entryFor flight.key =
        some { value, storedAt := cache.clock.now, policy := flight.policy, flight := number } ∨
      RemovedIn rule cache flight.key number := by
  obtain ⟨found, present', ⟨_, rfl⟩ | ⟨deadline, ending, working, verdict, rfl⟩⟩ := turnFlight?_eq_some_iff.mp turn
  · have begun : (cache.startFlight number).flights[number]? = some _ := getElem?_modify_self _ present
    obtain rfl := Option.some.inj (there.symm.trans begun)
    contradiction
  · obtain rfl := Option.some.inj (present.symm.trans present')
    obtain ⟨_, _, outcome, flights⟩ := endFlight_frame cache number flight ending
    have ended : (cache.endFlight number flight ending).flights[number]? = some _ :=
      (congrArg (·[number]?) flights).trans (getElem?_modify_self _ present)
    obtain rfl := Option.some.inj (there.symm.trans ended)
    have storing : flight.stores ending = some value := by
      obtain rfl := Flight.endPhase_ok done
      simp only [Flight.endPhase, stores, Bool.true_and] at done
      refine Flight.stores_eq_some_iff.mpr ⟨rfl, stores, fun undefined => ?_⟩
      rw [undefined] at done
      contradiction
    obtain ⟨own, owned, _⟩ := reachable.placed.slot_of_flight number flight present
    have live : cache.Live number flight := by
      refine ⟨present, by simp [Flight.isRunning, working], ?_⟩
      rw [← (reachable.regular present).own deadline working]
      obtain ⟨_, rfl⟩ | ⟨_, _, rfl⟩ | ⟨uncancelled, _⟩ := Deadline.verdict_cases verdict
      · contradiction
      · contradiction
      · exact uncancelled
    rcases reachable.lookup_of_live live with known | removed
    · have entries := endFlight_entryOf cache number ending owned flight.slot
      simp only [storing, if_true] at entries
      left
      rw [entryFor, endFlight_keys, known]
      exact entries
    · exact .inr removed

/-- What may happen to a key without any danger for its entry: calls on it under any policy, calls that end or
are given up, computations that do not give a value, and purges. -/
def Harmless (key : String) : Event V → Prop
  | .begin other _ _ => other = key
  | .flight _ work => ∀ value, work ≠ some (.value value)
  | .call _ => True
  | .drop _ => True
  | .purge => True
  | _ => False

/-- What is stored for a key stays there for as long as it may be served. -/
structure Retained (rule : Rule V) (cache : Cache V) : Prop where
  /-- A value that a flight stores becomes the entry of the key. -/
  stored : ∀ (number : Nat) (flight landed : Flight V) (value : V) (next : Cache V),
    cache.turnFlight? number (some (.value value)) = some next → cache.flights[number]? = some flight →
    flight.policy.storesEntries = true → next.flights[number]? = some landed → landed.phase = .landed (.ok value) →
    next.entryFor flight.key =
        some { value, storedAt := cache.clock.now, policy := flight.policy, flight := number } ∨
      RemovedIn rule cache flight.key number
  /-- An entry stays that of its key until something displaces it. -/
  kept : ∀ (key : String) (entry : Entry V) (later : Cache V), cache.entryFor key = some entry →
    Run rule cache later → later.clock.now < entry.servableUntil →
    Holds later key entry ∨ DisplacedIn rule cache key entry later
  /-- Whatever callers of the key do and see, and whatever fails, leaves it alone. -/
  spared : ∀ (key : String) (entry : Entry V) (event : Event V) (next : Cache V), cache.entryFor key = some entry →
    cache.clock.now < entry.servableUntil → Harmless key event → cache.step? event = some next → Holds next key entry

theorem Placed.holds_harmless (placed : Placed cache) (found : cache.entryFor key = some entry)
    (servable : cache.clock.now < entry.servableUntil) {event : Event V} (harmless : Harmless key event)
    (step : cache.step? event = some next) : Holds next key entry := by
  rcases placed.holds_step found servable step with held | displaces
  · exact held
  · cases displaces with
    | replaced => exact absurd rfl (harmless _)
    | removed => exact harmless.elim
    | evicted known absent =>
      rw [show _ = key from harmless, known] at absent
      contradiction

theorem retained_of_reachable (reachable : Reachable rule cache) : Retained rule cache := by
  constructor
  · intro number flight landed value next turn present stores there done
    exact reachable.entryFor_stored turn present stores there done
  · intro key entry later found run servable
    exact reachable.holds_run found run servable
  · intro key entry event next found servable harmless step
    exact reachable.placed.holds_harmless found servable harmless step

/-- A value was stored that is stale at once, and a caller who wants no stale values has the key's computation
started again, which fails. -/
def refused : List (Event Nat) :=
  [.scope none, .begin "Oslo" lenient ⟨5000, ⟨[0]⟩⟩, .flight 0 none, .flight 0 (some (.value 7)), .call 0,
    .begin "Oslo" { lenient with failSafe := false } ⟨5000, ⟨[0]⟩⟩, .flight 1 none,
    .flight 1 (some (.failure .cancelled))]

theorem retained_refused :
    ∃ cache entry, refused.foldlM step? (empty 1) = some cache ∧ Reachable Lawful cache ∧
      cache.entryFor "Oslo" = some entry ∧ entry.value = 7 ∧ cache.clock.now < entry.servableUntil ∧
      Retained Lawful cache := by
  obtain ⟨cache, entry, steps, found, seven, servable⟩ : ∃ cache entry,
      refused.foldlM step? (empty 1) = some cache ∧ cache.entryFor "Oslo" = some entry ∧ entry.value = 7 ∧
        cache.clock.now < entry.servableUntil :=
    ⟨_, _, rfl, rfl, rfl, by decide⟩
  have run : Run Lawful (empty 1) cache := .of_events (by simp [refused, Lawful]) steps
  exact ⟨cache, entry, steps, ⟨1, run⟩, found, seven, servable, retained_of_reachable ⟨1, run⟩⟩

end Cache

end HedgedForecast
