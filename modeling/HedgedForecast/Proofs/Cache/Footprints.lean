import HedgedForecast.Proofs.Cache.Capacity
import HedgedForecast.Proofs.Cache.Provenance
import HedgedForecast.Proofs.Selection

/-! # What an event on a key leaves alone

Slots, flights and calls belong to keys. An event on one key changes only what belongs to this key, provided that
the cache need not make room for it: other keys keep their slots, and what is in these, and their flights and
calls are as they were. The only scopes that such an event cancels are those of the key's own flights.
-/

namespace HedgedForecast.Cache

variable {V : Type}

/-- Only what belongs to the key has changed. -/
structure Confined (key : String) (cache next : Cache V) : Prop where
  extended : Extends next cache
  now : next.clock.now = cache.clock.now
  issued : cache.clock.scopes.issued ≤ next.clock.scopes.issued
  keys : ∀ other, other ≠ key → next.keys.lookup other = cache.keys.lookup other
  slots : Unchanged (fun slot => slot.key != key) cache.slots next.slots
  flights : Unchanged (fun flight => flight.key != key) cache.flights next.flights
  calls : Unchanged (fun call => call.key != key) cache.calls next.calls
  cancelled : ∀ scope ∈ next.clock.scopes.cancelled, scope ∈ cache.clock.scopes.cancelled ∨
    ∃ (number : Nat) (flight : Flight V), next.flights[number]? = some flight ∧ flight.key = key ∧
      scope ∈ flight.token.lineage

/-- The slot is of the key, and so is its flight. -/
structure Owns (cache : Cache V) (key : String) (slot : Nat) : Prop where
  slot_key : ∀ found, cache.slots[slot]? = some found → found.key = key
  flight_key : ∀ number flight, cache.liveFlight? slot = some number → cache.flights[number]? = some flight →
    flight.key = key

theorem Placed.owns {cache : Cache V} (placed : Placed cache) {key : String} {slot : Nat}
    (known : cache.keys.lookup key = some slot) : Owns cache key slot := by
  constructor
  · intro found present
    obtain ⟨found', present', named⟩ := placed.slot_of_key key slot (mem_of_lookup known)
    obtain rfl := Option.some.inj (present.symm.trans present')
    exact named
  · intro number flight live present
    obtain ⟨flight', present', named, _⟩ := placed.flightFor (Option.bind_eq_some_iff.mpr ⟨slot, known, live⟩)
    obtain rfl := Option.some.inj (present.symm.trans present')
    exact named

theorem Owns.modifySlot {cache : Cache V} {key : String} {slot : Nat} (owns : Owns cache key slot)
    {change : Slot V → Slot V} (amends : Amends change) : Owns (cache.modifySlot slot change) key slot := by
  constructor
  · exact of_getElem?_modify owns.slot_key fun found named => (amends found).1.trans named
  · rw [liveFlight?_modifySlot cache slot slot amends]
    exact owns.flight_key

theorem Owns.count {cache : Cache V} {key : String} {slot : Nat} (owns : Owns cache key slot)
    (change : CacheStats → CacheStats) : Owns (cache.count change) key slot :=
  ⟨owns.slot_key, owns.flight_key⟩

/-- A waiting call waits for a flight of its own key. -/
theorem Reachable.aboard {rule : Rule V} {cache : Cache V} (reachable : Reachable rule cache) {number flight : Nat}
    {call : Call V} (present : cache.calls[number]? = some call) (waits : call.flight? = some flight) :
    ∃ found, cache.flights[flight]? = some found ∧ found.key = call.key := by
  have awaited {other : Nat} (awaited : Awaited rule cache (call.question number) other)
      (same : call.flight? = some other) : ∃ found, cache.flights[flight]? = some found ∧ found.key = call.key := by
    obtain rfl := Option.some.inj (waits.symm.trans same)
    obtain ⟨found, there, named, _⟩ := awaited.after
    exact ⟨found, there, named⟩
  cases reachable.stands present with
  | served phase => simp [Call.flight?, phase] at waits
  | failed phase => simp [Call.flight?, phase] at waits
  | dropped phase => simp [Call.flight?, phase] at waits
  | cold phase waited => exact awaited waited (by simp [Call.flight?, phase])
  | stale phase waited => exact awaited waited (by simp [Call.flight?, phase])

/-- A cache with room for another key drops none for it. -/
theorem makeRoom_of_lt {cache : Cache V} (room : cache.keys.length < cache.maxEntries) : cache.makeRoom = cache := by
  unfold makeRoom
  rw [if_neg (Nat.not_le.mpr room)]

namespace Confined

variable {key : String} {cache middle next : Cache V}

/-- Counts and the keys' dates are of no interest, and of a clock only its time and its cancelled scopes. -/
theorem of_frame (now : next.clock.now = cache.clock.now)
    (issued : cache.clock.scopes.issued ≤ next.clock.scopes.issued)
    (cancelled : next.clock.scopes.cancelled = cache.clock.scopes.cancelled)
    (keys : ∀ other, other ≠ key → next.keys.lookup other = cache.keys.lookup other)
    (slots : Unchanged (fun slot => slot.key != key) cache.slots next.slots)
    (flights : next.flights = cache.flights) (calls : next.calls = cache.calls) : Confined key cache next where
  extended := by
    refine ⟨Nat.le_of_eq now.symm, fun token was => ?_, ?_, ?_⟩
    · obtain ⟨scope, own, member⟩ := (Scopes.isCancelled_iff ..).mp was
      exact (Scopes.isCancelled_iff ..).mpr ⟨scope, own, cancelled ▸ member⟩
    · rw [flights]
      exact (Extends.refl cache).flights
    · rw [calls]
      exact (Extends.refl cache).calls
  now := now
  issued := issued
  keys := keys
  slots := slots
  flights := flights ▸ .refl
  calls := calls ▸ .refl
  cancelled := fun scope member => .inl (cancelled ▸ member)

theorem refl (key : String) (cache : Cache V) : Confined key cache cache :=
  of_frame rfl (Nat.le_refl _) rfl (fun _ _ => rfl) .refl rfl rfl

theorem trans (first : Confined key cache middle) (second : Confined key middle next) : Confined key cache next where
  extended := second.extended.trans first.extended
  now := second.now.trans first.now
  issued := Nat.le_trans first.issued second.issued
  keys := fun other foreign => (second.keys other foreign).trans (first.keys other foreign)
  slots := first.slots.trans second.slots
  flights := first.flights.trans second.flights
  calls := first.calls.trans second.calls
  cancelled := by
    intro scope member
    rcases second.cancelled scope member with before | own
    · rcases first.cancelled scope before with before | ⟨number, flight, present, named, within⟩
      · exact .inl before
      · obtain ⟨later, there, follows⟩ := second.extended.flights number flight present
        exact .inr ⟨number, later, there, follows.key.trans named, follows.token ▸ within⟩
    · exact .inr own

theorem count (cache : Cache V) (change : CacheStats → CacheStats) : Confined key cache (cache.count change) :=
  of_frame rfl (Nat.le_refl _) rfl (fun _ _ => rfl) .refl rfl rfl

theorem modifySlot {slot : Nat} {change : Slot V → Slot V}
    (own : ∀ found, cache.slots[slot]? = some found → found.key = key) (same : ∀ found, (change found).key = found.key) :
    Confined key cache (cache.modifySlot slot change) := by
  refine of_frame rfl (Nat.le_refl _) rfl (fun _ _ => rfl) (.modify fun found present => ?_) rfl rfl
  simp [same, own found present]

theorem modifyFlight {number : Nat} {change : Flight V → Flight V}
    (own : ∀ flight, cache.flights[number]? = some flight → flight.key = key)
    (follows : ∀ flight, cache.flights[number]? = some flight → (change flight).Follows flight) :
    Confined key cache (cache.modifyFlight number change) where
  extended := .modifyFlight cache number follows
  now := rfl
  issued := Nat.le_refl _
  keys := fun _ _ => rfl
  slots := .refl
  flights := by
    refine .modify fun flight present => ?_
    simp [(follows flight present).key, own flight present]
  calls := .refl
  cancelled := fun _ => .inl

/-- A flight of the key is changed. -/
theorem changeFlight {number : Nat} {flight : Flight V} {change : Flight V → Flight V}
    (present : cache.flights[number]? = some flight) (named : flight.key = key)
    (follows : (change flight).Follows flight) : Confined key cache (cache.modifyFlight number change) := by
  refine modifyFlight (fun found there => ?_) fun found there => ?_
  · obtain rfl := Option.some.inj (present.symm.trans there)
    exact named
  · obtain rfl := Option.some.inj (present.symm.trans there)
    exact follows

theorem modifyCall {number : Nat} {change : Call V → Call V}
    (own : ∀ call, cache.calls[number]? = some call → call.key = key)
    (follows : ∀ call, cache.calls[number]? = some call → (change call).Follows call) :
    Confined key cache (cache.modifyCall number change) where
  extended := .modifyCall cache number follows
  now := rfl
  issued := Nat.le_refl _
  keys := fun _ _ => rfl
  slots := .refl
  flights := .refl
  calls := by
    refine .modify fun call present => ?_
    simp [(follows call present).key, own call present]
  cancelled := fun _ => .inl

theorem addCall {call : Call V} (own : call.key = key) : Confined key cache (cache.addCall call).2 where
  extended := .addCall cache call
  now := rfl
  issued := Nat.le_refl _
  keys := fun _ _ => rfl
  slots := .refl
  flights := .refl
  calls := .push (by simp [own])
  cancelled := fun _ => .inl

theorem launch {slot : Nat} (own : ∀ found, cache.slots[slot]? = some found → found.key = key) (policy : Policy)
    (trigger : Trigger) (waiters : Nat) : Confined key cache (cache.launch key slot policy trigger waiters).2 where
  extended := .launch ..
  now := rfl
  issued := Nat.le_succ _
  keys := fun _ _ => rfl
  slots := .modify fun found present => by simp [own found present]
  flights := .push (by simp)
  calls := .refl
  cancelled := fun _ => .inl

theorem join {number : Nat} (own : ∀ flight, cache.flights[number]? = some flight → flight.key = key) :
    Confined key cache (cache.join number) :=
  modifyFlight own fun _ _ => ⟨rfl, rfl, rfl, rfl, rfl, rfl, fun _ => rfl⟩

theorem detach {number : Nat} (own : ∀ flight, cache.flights[number]? = some flight → flight.key = key) :
    Confined key cache (cache.detach number) :=
  modifyFlight own fun _ _ => ⟨rfl, rfl, rfl, rfl, rfl, rfl, fun _ => rfl⟩

/-- Leaving a flight cancels at most its scope. -/
theorem leave {number : Nat} (own : ∀ flight, cache.flights[number]? = some flight → flight.key = key) :
    Confined key cache (cache.leave number) := by
  have counted : Confined key cache
      (cache.modifyFlight number fun flight => { flight with waiters := flight.waiters - 1 }) :=
    modifyFlight own fun _ _ => ⟨rfl, rfl, rfl, rfl, rfl, rfl, fun _ => rfl⟩
  cases present : cache.flights[number]? with
  | none =>
    unfold Cache.leave
    rw [present]
    exact refl key cache
  | some flight =>
    refine ⟨.leave cache number, leave_clock_now .., Nat.le_of_eq (leave_issued ..).symm, ?_, ?_, ?_, ?_, ?_⟩
    · intro other _
      rw [leave_keys]
    · rw [leave_slots]
      exact counted.slots
    · rw [leave_flights]
      exact counted.flights
    · rw [leave_calls]
      exact counted.calls
    · intro scope member
      rw [leave_clock present] at member
      split at member
      · rcases List.mem_append.mp member with new | before
        · refine .inr ⟨number, { flight with waiters := flight.waiters - 1 }, ?_, own flight present,
            List.mem_of_mem_take new⟩
          rw [leave_flights]
          exact getElem?_modify_self _ present
        · exact .inl before
      · exact .inl member

/-- Dropping a key leaves the others. -/
theorem dropKey (key : String) (cache : Cache V) : Confined key cache (cache.dropKey key) := by
  refine of_frame rfl (Nat.le_refl _) rfl (fun other foreign => ?_) .refl rfl rfl
  cases known : cache.keys.lookup other with
  | some slot => exact lookup_dropKey_of_ne known foreign
  | none =>
    rw [List.lookup_eq_none_iff] at known ⊢
    exact fun pair member => known pair (List.mem_filter.mp member).1

theorem touch (placed : Placed cache)
    (room : cache.keys.lookup key = none → cache.keys.length < cache.maxEntries) :
    Confined key cache (cache.touch key).2 := by
  cases known : cache.keys.lookup key with
  | some slot =>
    rw [touch_known known]
    have ticked : Confined key cache { cache with tick := cache.tick + 1 } :=
      of_frame rfl (Nat.le_refl _) rfl (fun _ _ => rfl) .refl rfl rfl
    have own : ∀ found, { cache with tick := cache.tick + 1 }.slots[slot]? = some found → found.key = key :=
      (placed.owns known).slot_key
    exact ticked.trans (modifySlot own fun _ => rfl)
  | none =>
    have spare : { cache with tick := cache.tick + 1 }.makeRoom = { cache with tick := cache.tick + 1 } :=
      makeRoom_of_lt (room known)
    rw [touch_absent known, spare]
    refine of_frame rfl (Nat.le_refl _) rfl (fun other foreign => ?_) (.push (by simp)) rfl rfl
    have distinct : (other == key) = false := beq_eq_false_iff_ne.mpr foreign
    simp [List.lookup_append, List.lookup_cons, distinct]

/-- What a call changes on its way is of its key, as long as the flights are that it holds an interest in. -/
theorem stride {slot : Nat} {policy : Policy} {before after : Stage V} (stride : Stride key slot policy before after)
    (owns : Owns before.1 key slot)
    (held : ∀ number ∈ before.2, ∀ flight, before.1.flights[number]? = some flight → flight.key = key) :
    Confined key before.1 after.1 ∧
      ∀ number ∈ after.2, ∀ flight, after.1.flights[number]? = some flight → flight.key = key := by
  cases stride with
  | mark => exact ⟨modifySlot owns.slot_key fun _ => rfl, held⟩
  | date => exact ⟨modifySlot owns.slot_key fun _ => rfl, held⟩
  | launch waiters =>
    refine ⟨launch owns.slot_key .., fun number member flight present => ?_⟩
    rcases getElem?_push_cases present with ⟨new, old⟩ | ⟨_, rfl⟩
    · rcases List.mem_append.mp member with launched | before
      · exact absurd (List.eq_of_mem_replicate launched) new
      · exact held number before flight old
    · rfl
  | @join _ _ joined live =>
    refine ⟨join fun flight => owns.flight_key joined flight live, fun number member => ?_⟩
    refine of_getElem?_modify (fun flight present => ?_) fun _ => id
    rcases List.mem_cons.mp member with rfl | before
    · exact owns.flight_key number flight live present
    · exact held number before flight present
  | detach holding =>
    exact ⟨detach (held _ holding), fun number member => of_getElem?_modify (held number member) fun _ => id⟩
  | leave left =>
    refine ⟨leave (held left (List.mem_cons_self ..)), fun number member => ?_⟩
    rw [leave_flights]
    exact of_getElem?_modify (held number (List.mem_cons_of_mem _ member)) fun _ => id
  | clock => exact ⟨of_frame rfl (Nat.le_succ _) rfl (fun _ _ => rfl) .refl rfl rfl, held⟩
  | serve own => exact ⟨addCall own, held⟩
  | await own => exact ⟨addCall own, fun number member => held number (List.mem_cons_of_mem _ member)⟩

/-- A call that begins changes what belongs to its key. -/
theorem begin (placed : Placed cache) (room : cache.keys.lookup key = none → cache.keys.length < cache.maxEntries)
    (policy : Policy) (deadline : Deadline) : Confined key cache (cache.begin key policy deadline).2 := by
  obtain ⟨change, _, strides⟩ := begin_strides cache key policy deadline
  have known := lookup_touch cache key
  have counted : Moves V (cache, []) ((cache.touch key).2.count change, []) :=
    (touch_moves cache key []).tail (.count change)
  suffices kept : ∀ target : Stage V,
      Strides key (cache.touch key).1 policy ((cache.touch key).2.count change, []) target →
      Confined key cache target.1 ∧
        ∀ number ∈ target.2, ∀ flight, target.1.flights[number]? = some flight → flight.key = key from
    (kept _ strides).1
  intro target strides
  induction strides with
  | refl => exact ⟨(touch placed room).trans (count ..), fun _ => nofun⟩
  | @tail before after walked last ih =>
    have placed' : Placed before.1 := placed.moves (counted.trans (Strides.moves walked known))
    have owns := placed'.owns ((congrArg (List.lookup key) (Strides.keys walked)).trans known)
    obtain ⟨confined, held⟩ := stride last owns ih.2
    exact ⟨ih.1.trans confined, held⟩

/-- A call is ended and leaves its flight. -/
theorem retire {number flight : Nat} {call : Call V} (phase : CallPhase V)
    (present : cache.calls[number]? = some call) (named : call.key = key) (waits : call.flight? = some flight)
    (ended : ({ call with phase } : Call V).flight? = none) :
    Confined key cache (cache.modifyCall number fun call => { call with phase }) := by
  refine modifyCall (fun found there => ?_) fun found there => ?_
  · obtain rfl := Option.some.inj (present.symm.trans there)
    exact named
  · obtain rfl := Option.some.inj (present.symm.trans there)
    refine ⟨rfl, rfl, rfl, rfl, rfl, .inr ⟨?_, ended⟩⟩
    rw [waits]
    exact Option.some_ne_none _

theorem turnCall {number : Nat} {call : Call V} (present : cache.calls[number]? = some call) (named : call.key = key)
    (aboard : ∀ number flight, call.flight? = some number → cache.flights[number]? = some flight → flight.key = key)
    (turn : cache.turnCall? number = some next) : Confined key cache next := by
  obtain ⟨call', flight, there, waits, ending⟩ := turnCall?_ending turn
  obtain rfl := Option.some.inj (present.symm.trans there)
  have returned (answer : Except Failure V) : Confined key cache (cache.returnCall number answer) :=
    retire _ present named waits rfl
  have left (answer : Except Failure V) : Confined key cache ((cache.returnCall number answer).leave flight) :=
    (returned answer).trans (leave (aboard flight · waits))
  cases ending with
  | left answer => exact left answer
  | evicted answer =>
    subst named
    exact (left answer).trans ((dropKey call.key _).trans (count ..))
  | detached answer =>
    have own' : ∀ found, ((cache.returnCall number answer).detach flight).flights[flight]? = some found →
        found.key = key :=
      of_getElem?_modify (aboard flight · waits) fun _ => id
    exact ((returned answer).trans (detach (aboard flight · waits))).trans (leave own')

theorem dropCall {number : Nat} {call : Call V} (present : cache.calls[number]? = some call) (named : call.key = key)
    (aboard : ∀ number flight, call.flight? = some number → cache.flights[number]? = some flight → flight.key = key) :
    Confined key cache (cache.dropCall number) := by
  rcases dropCall_eq cache number with ⟨same, _⟩ | ⟨call', flight, there, waits, same⟩
  · rw [same]
    exact refl key cache
  · obtain rfl := Option.some.inj (present.symm.trans there)
    rw [same]
    exact (retire _ present named waits rfl).trans (leave (aboard flight · waits))

theorem uninstall {flight : Flight V} (own : ∀ found, cache.slots[flight.slot]? = some found → found.key = key)
    (number : Nat) : Confined key cache (cache.uninstall number flight) := by
  refine modifySlot own fun found => ?_
  split <;> rfl

theorem endFlight {number : Nat} {flight : Flight V} (present : cache.flights[number]? = some flight)
    (running : flight.isRunning = true) (named : flight.key = key)
    (own : ∀ found, cache.slots[flight.slot]? = some found → found.key = key) (ending : GuardEnd (WorkEnd V)) :
    Confined key cache (cache.endFlight number flight ending) := by
  have closed {middle : Cache V} (earlier : Confined key cache middle) (flights : middle.flights = cache.flights)
      (phase : FlightPhase V) (outcome : WorkOutcome) : Confined key cache (middle.close number phase outcome) := by
    refine earlier.trans (changeFlight (flights ▸ present) named ⟨rfl, rfl, rfl, rfl, rfl, rfl, fun ended => ?_⟩)
    rw [running] at ended
    contradiction
  generalize ended : cache.endFlight number flight ending = next
  cases endFlight_landing ended with
  | failed =>
    let change : CacheStats → CacheStats := fun stats => { stats with refreshFailures := stats.refreshFailures + 1 }
    have own' : ∀ found, (cache.count change).slots[flight.slot]? = some found → found.key = key := own
    exact closed ((count cache change).trans (uninstall own' number)) rfl ..
  | lost => exact closed (refl key cache) rfl ..
  | passed => exact closed (uninstall own number) rfl ..
  | @stored value =>
    have stored : Confined key cache (cache.store number flight value) := modifySlot own fun _ => rfl
    have own' : ∀ found, (cache.store number flight value).slots[flight.slot]? = some found → found.key = key :=
      of_getElem?_modify own fun _ => id
    exact closed (stored.trans (uninstall own' number)) rfl ..

theorem turnFlight (placed : Placed cache) {number : Nat} {flight : Flight V} {work : Option (WorkEnd V)}
    (present : cache.flights[number]? = some flight) (named : flight.key = key)
    (turn : cache.turnFlight? number work = some next) : Confined key cache next := by
  obtain ⟨flight', there, ⟨queued, rfl⟩ | ⟨deadline, ending, working, _, rfl⟩⟩ := turnFlight?_eq_some_iff.mp turn
  · obtain rfl := Option.some.inj (present.symm.trans there)
    refine changeFlight present named ⟨rfl, rfl, rfl, rfl, rfl, rfl, fun ended => ?_⟩
    simp [Flight.isRunning, queued] at ended
  · obtain rfl := Option.some.inj (present.symm.trans there)
    refine endFlight present (by simp [Flight.isRunning, working]) named (fun found there => ?_) ending
    obtain ⟨found', there', same⟩ := placed.slot_of_flight number flight present
    obtain rfl := Option.some.inj (there.symm.trans there')
    exact same.trans named

end Confined

/-- The key that the event is about, if it is about one. -/
def Event.key? (cache : Cache V) : Event V → Option String
  | .begin key _ _ => some key
  | .flight number _ => cache.flights[number]?.map Flight.key
  | .call number => cache.calls[number]?.map Call.key
  | .drop number => cache.calls[number]?.map Call.key
  | .remove key => some key
  | _ => none

/-- An event on a key changes only what belongs to the key, unless it makes room for it. -/
theorem confined_step {rule : Rule V} {cache next : Cache V} {key : String} {event : Event V}
    (reachable : Reachable rule cache) (on : event.key? cache = some key)
    (room : event.asker.map Prod.fst = some key → cache.keys.lookup key = none → cache.keys.length < cache.maxEntries)
    (step : cache.step? event = some next) : Confined key cache next := by
  have aboard {number : Nat} {call : Call V} (present : cache.calls[number]? = some call) (named : call.key = key)
      (other : Nat) (flight : Flight V) (waits : call.flight? = some other)
      (there : cache.flights[other]? = some flight) : flight.key = key := by
    obtain ⟨found, there', same⟩ := reachable.aboard present waits
    obtain rfl := Option.some.inj (there.symm.trans there')
    exact same.trans named
  cases event with
  | begin other policy deadline =>
    obtain rfl : other = key := Option.some.inj on
    cases step
    exact .begin reachable.placed (room rfl) policy deadline
  | flight number work =>
    obtain ⟨flight, present, named⟩ := Option.map_eq_some_iff.mp on
    exact .turnFlight reachable.placed present named step
  | call number =>
    obtain ⟨call, present, named⟩ := Option.map_eq_some_iff.mp on
    exact .turnCall present named (aboard present named) step
  | drop number =>
    obtain ⟨call, present, named⟩ := Option.map_eq_some_iff.mp on
    cases step
    exact .dropCall present named (aboard present named)
  | remove other =>
    obtain rfl : other = key := Option.some.inj on
    cases step
    exact .dropKey other cache
  | purge => contradiction
  | pass => contradiction
  | scope => contradiction
  | cancel => contradiction

end HedgedForecast.Cache
