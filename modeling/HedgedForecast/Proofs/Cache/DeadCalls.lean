import HedgedForecast.Proofs.Cache.Recency
import HedgedForecast.Proofs.Cache.Recovery
import HedgedForecast.Proofs.Hedge.Blame

/-! # Calls that come too late

A call does not look at its deadline before it launches a flight. If the deadline is over, the call notices at its
first turn and leaves the flight, which had no other caller and is therefore cancelled before it has begun. Such a
flight is doomed: it can only end cancelled, and no later call takes it for a flight to wait for. So the key is left
as it was found, with nothing to serve and nothing to wait for.
-/

namespace HedgedForecast

/-- What a caller is told whose deadline is over. -/
def Deadline.failure (clock : Clock) (deadline : Deadline) : Failure :=
  if deadline.isCancelled clock then .cancelled else .timeout .request

namespace Cache

variable {V : Type} {rule : Rule V} {cache next : Cache V} {key : String} {policy : Policy} {number : Nat}

/-- A call on the key finds no flight to wait for and nothing to serve. -/
structure Barren (cache : Cache V) (key : String) (policy : Policy) : Prop where
  flight : cache.flightFor key = none
  entry : ∀ entry, cache.entryFor key = some entry → ¬cache.IsServable policy entry

/-- Nobody calls on the key. -/
def Elsewhere (key : String) : Rule V :=
  fun cache event => Exclusive cache event ∧ ∀ policy deadline, event ≠ .begin key policy deadline

theorem IsServable.earlier {entry : Entry V} (servable : next.IsServable policy entry)
    (now : cache.clock.now ≤ next.clock.now) : cache.IsServable policy entry :=
  servable.imp (Nat.lt_of_le_of_lt now) (And.imp_right (Nat.lt_of_le_of_lt now))

/-- It is enough that what the slot of the key holds was there before. -/
theorem Barren.keep (barren : Barren cache key policy) (placed : Placed cache) (extended : Extends next cache)
    (kept : ∀ (slot : Nat) (later : Slot V), next.keys.lookup key = some slot → next.slots[slot]? = some later →
      cache.keys.lookup key = some slot ∧ ∃ found, cache.slots[slot]? = some found ∧ later.entry = found.entry ∧
        ∀ number, later.flight = some number → found.flight = some number) : Barren next key policy := by
  constructor
  · rw [Option.eq_none_iff_forall_not_mem]
    intro number there
    obtain ⟨slot, known, live⟩ := Option.bind_eq_some_iff.mp there
    obtain ⟨later, flight, present, installed, aloft, uncancelled⟩ := liveFlight?_eq_some_iff.mp live
    obtain ⟨known', found, present', _, same⟩ := kept slot later known present
    obtain ⟨before, aloft', _⟩ := placed.installed slot found number present' (same number installed)
    obtain ⟨flight', here, follows⟩ := extended.flights number before aloft'
    obtain rfl := Option.some.inj (aloft.symm.trans here)
    have alive : cache.clock.isCancelled before.token = false := by
      by_contra was
      have gone := extended.cancelled before.token (by simpa using was)
      rw [← follows.token, uncancelled] at gone
      contradiction
    have nothing := barren.flight
    rw [flightFor, known', Option.bind_some,
      liveFlight?_eq_some_iff.mpr ⟨found, before, present', same number installed, aloft', alive⟩] at nothing
    contradiction
  · intro entry held servable
    obtain ⟨slot, known, has⟩ := Option.bind_eq_some_iff.mp held
    obtain ⟨later, present, stored⟩ := Option.bind_eq_some_iff.mp has
    obtain ⟨known', found, present', same, _⟩ := kept slot later known present
    refine barren.entry entry ?_ (servable.earlier extended.now)
    simp only [entryFor, known', entryOf, present', Option.bind_some]
    exact same.symm.trans stored

/-- A key that has a slot after an event had it before, unless the event was a call on it. -/
theorem Placed.lookup_earlier (placed : Placed cache) {event : Event V} (step : cache.step? event = some next)
    (elsewhere : ∀ policy deadline, event ≠ .begin key policy deadline) {slot : Nat}
    (known : next.keys.lookup key = some slot) : cache.keys.lookup key = some slot := by
  have member := mem_of_lookup known
  by_cases inserts : Inserts cache event
  · obtain ⟨other, policy, deadline, rfl, absent⟩ := inserts
    cases step
    rw [begin_keys_of_absent absent, List.mem_append, List.mem_singleton] at member
    rcases member with old | new
    · exact placed.lookup_of_mem (makeRoom_keys_subset cache old)
    · cases new
      exact absurd rfl (elsewhere policy deadline)
  · exact placed.lookup_of_mem ((step_keys step inserts).subset member)

/-- Only a call on the key itself gives it a flight, and only its flight could give it an entry. -/
theorem Barren.step (barren : Barren cache key policy) (reachable : Reachable rule cache) {event : Event V}
    (step : cache.step? event = some next) (elsewhere : ∀ policy deadline, event ≠ .begin key policy deadline) :
    Barren next key policy := by
  have placed := reachable.placed
  refine barren.keep placed (Extends.step step) fun slot later known' present => ?_
  have known := placed.lookup_earlier step elsewhere known'
  refine ⟨known, ?_⟩
  cases reachable.reworks step with
  | quiet silent kept => exact ⟨later, kept.slots ▸ present, rfl, fun _ => id⟩
  | @asked other policy deadline own _ _ _ named there _ leaves others =>
    rcases leaves.slot_cases others present with ⟨rfl, _⟩ | ⟨_, old⟩
    · obtain ⟨found, present', named'⟩ := placed.slot_of_key key own (mem_of_lookup known)
      obtain ⟨found', present'', named''⟩ := placed.slot_of_key other own (mem_of_lookup named)
      obtain rfl := Option.some.inj (present'.symm.trans present'')
      obtain rfl : other = key := named''.symm.trans named'
      exact absurd rfl (elsewhere policy deadline)
    · exact ⟨later, old, rfl, fun _ => id⟩
  | opened absent leaves others =>
    rcases leaves.slot_cases others present with ⟨rfl, _⟩ | ⟨_, old⟩
    · exact absurd (placed.slot_lt (mem_of_lookup known)) (Nat.lt_irrefl _)
    · exact ⟨later, old, rfl, fun _ => id⟩
  | left _ there leaves others =>
    rcases leaves.slot_cases others present with ⟨rfl, rfl⟩ | ⟨_, old⟩
    · exact ⟨_, there, Slot.without_entry .., fun _ => Slot.without_flight⟩
    · exact ⟨later, old, rfl, fun _ => id⟩
  | @stored number flight found value live _ there leaves others =>
    rcases leaves.slot_cases others present with ⟨rfl, _⟩ | ⟨_, old⟩
    · obtain ⟨found', there', installed⟩ := placed.live number flight live
      have nothing := barren.flight
      rw [flightFor, known, Option.bind_some,
        liveFlight?_eq_some_iff.mpr ⟨found', flight, there', installed, live.present, live.uncancelled⟩] at nothing
      contradiction
    · exact ⟨later, old, rfl, fun _ => id⟩

theorem Barren.run (barren : Barren cache key policy) (reachable : Reachable Exclusive cache)
    (run : Run (Elsewhere key) cache next) : Barren next key policy := by
  induction run with
  | nil => exact barren
  | snoc run allowed step ih =>
    exact ih.step (reachable.extend (run.weaken fun _ _ => And.left)) step allowed.2

theorem begin_number (cache : Cache V) (key : String) (policy : Policy) (deadline : Deadline) :
    (cache.begin key policy deadline).1 = cache.calls.size := by
  obtain ⟨_, place, _⟩ := begin_opens cache key policy deadline
  exact place

/-- Such a call can take its turn at once, whatever its flight does. -/
theorem turnCall?_of_isOver {call : Call V} {flight : Nat} (present : cache.calls[number]? = some call)
    (cold : call.phase = .cold flight) (spent : call.deadline.IsOver cache.clock) :
    cache.turnCall? number =
      some ((cache.returnCall number (.error (call.deadline.failure cache.clock))).leave flight) := by
  refine turnCall?_eq_some_iff.mpr ⟨call, present, .inl ⟨flight, ?_⟩⟩
  unfold Deadline.verdict Deadline.failure
  by_cases cancelled : call.deadline.isCancelled cache.clock = true
  · refine ⟨.cancelled, cold, if_pos cancelled, ?_⟩
    rw [endCold_eq, if_pos cancelled]
    rfl
  · have expired := spent.resolve_left cancelled
    refine ⟨.expired, cold, by rw [if_neg cancelled, if_pos expired], ?_⟩
    rw [endCold_eq, if_neg cancelled]
    rfl

/-- The only caller of a flight that nobody else needs cancels it by leaving. -/
theorem leave_isCancelled {flight : Flight V} {scope : Nat} (present : cache.flights[number]? = some flight)
    (only : flight.waiters ≤ 1) (attached : flight.detached = false) (own : flight.token = ⟨[scope]⟩) :
    (cache.leave number).clock.isCancelled flight.token = true := by
  rw [leave_clock present, if_pos (by simp [only, attached]), own]
  simp [Clock.isCancelled, Clock.cancel, Scopes.isCancelled, Scopes.cancel]

/-- The flight that a caller launches who has nothing else. -/
def coldOne (cache : Cache V) (call : Call V) : Flight V where
  key := call.key
  slot := call.slot
  policy := call.policy
  trigger := .cold
  token := cache.clock.freshToken.1
  waiters := 1
  detached := false
  launchedAt := cache.clock.now

/-- The call has launched a flight and left it, and has been told why. -/
structure Rebuffed (cache next : Cache V) (call : Call V) : Prop where
  keys : next.keys = cache.keys
  slots : next.slots = cache.slots.modify call.slot fun slot => { slot with flight := some cache.flights.size }
  flights : next.flights = cache.flights.push { cache.coldOne call with waiters := 0 }
  calls : next.calls = cache.calls.push
    { call with phase := .returned (.error (call.deadline.failure cache.clock)) cache.clock.now }
  now : next.clock.now = cache.clock.now
  cancelled : next.clock.isCancelled (cache.coldOne call).token = true

/-- A call that launches a flight waits for it. -/
theorem beginCold_waits {call : Call V} (vacant : cache.liveFlight? call.slot = none) :
    (cache.beginCold call).2.calls[cache.calls.size]? = some { call with phase := .cold cache.flights.size } ∧
      (cache.beginCold call).2.flights[cache.flights.size]? = some (cache.coldOne call) := by
  rw [beginCold_eq_of_vacant vacant]
  exact ⟨Array.getElem?_push_size, Array.getElem?_push_size⟩

theorem rebuffed_of_isOver {call : Call V} (vacant : cache.liveFlight? call.slot = none)
    (spent : call.deadline.IsOver cache.clock) :
    ∃ next, (cache.beginCold call).2.turnCall? cache.calls.size = some next ∧ Rebuffed cache next call := by
  obtain ⟨there, aloft⟩ := beginCold_waits vacant
  rw [beginCold_eq_of_vacant vacant] at there aloft ⊢
  refine ⟨_, turnCall?_of_isOver there rfl spent, ?_⟩
  constructor
  · rw [leave_keys]
    rfl
  · rw [leave_slots]
    rfl
  · rw [leave_flights]
    exact modify_push_size ..
  · rw [leave_calls]
    exact modify_push_size cache.calls { call with phase := .cold cache.flights.size } fun waiting =>
      { waiting with phase := .returned (.error (call.deadline.failure cache.clock)) cache.clock.now }
  · rw [leave_clock_now]
    rfl
  · exact leave_isCancelled aloft (Nat.le_refl 1) rfl rfl

/-- A call in time waits for the flight that it launches. -/
theorem turnCall?_of_inTime {call : Call V} (vacant : cache.liveFlight? call.slot = none)
    (inTime : ¬call.deadline.IsOver cache.clock) : (cache.beginCold call).2.turnCall? cache.calls.size = none := by
  obtain ⟨there, aloft⟩ := beginCold_waits vacant
  have silent : (cache.beginCold call).2.resultOf cache.flights.size = none := by
    rw [resultOf, aloft]
    rfl
  have inTime' : ¬call.deadline.IsOver (cache.beginCold call).2.clock := by
    rw [beginCold_eq_of_vacant vacant]
    exact inTime
  obtain ⟨uncancelled, unexpired⟩ := not_or.mp inTime'
  have still : call.deadline.verdict (cache.beginCold call).2.clock
      ((cache.beginCold call).2.resultOf cache.flights.size) = none := by
    rw [silent, Deadline.verdict, if_neg uncancelled, if_neg unexpired]
    rfl
  refine (turnCall?_eq_none_iff there).mpr ?_
  simp only [answer?, Option.map_eq_none_iff]
  exact still

namespace Rebuffed

variable {call : Call V}

theorem flight (rebuffed : Rebuffed cache next call) :
    next.flights[cache.flights.size]? = some { cache.coldOne call with waiters := 0 } := by
  rw [rebuffed.flights]
  exact Array.getElem?_push_size

/-- Nobody waits for the flight that was left in the slot. -/
theorem liveFlight? (rebuffed : Rebuffed cache next call) : next.liveFlight? call.slot = none := by
  rw [Option.eq_none_iff_forall_not_mem]
  intro number live
  obtain ⟨later, flight, present, installed, aloft, uncancelled⟩ := liveFlight?_eq_some_iff.mp live
  rw [rebuffed.slots] at present
  obtain ⟨found, _, ⟨distinct, _⟩ | ⟨_, rfl⟩⟩ := getElem?_modify_cases present
  · exact distinct rfl
  · cases installed
    obtain rfl := Option.some.inj (rebuffed.flight.symm.trans aloft)
    have cancelled := rebuffed.cancelled
    rw [uncancelled] at cancelled
    contradiction

theorem entryOf (rebuffed : Rebuffed cache next call) : next.entryOf call.slot = cache.entryOf call.slot := by
  simp only [Cache.entryOf, rebuffed.slots, Array.getElem?_modify, if_true]
  cases cache.slots[call.slot]? <;> rfl

end Rebuffed

/-- All that such a call on a key with nothing leaves behind is a flight that is cancelled before it has begun. -/
structure TurnedAway (cache next : Cache V) (key : String) (policy : Policy) (deadline : Deadline) : Prop where
  calls : next.calls = cache.calls.push { cache.opening key policy deadline with
    phase := .returned (.error (deadline.failure cache.clock)) cache.clock.now }
  flights : ∃ flight, next.flights = cache.flights.push flight ∧ flight.key = key ∧ flight.phase = .queued ∧
    next.clock.isCancelled flight.token = true
  barren : Barren next key policy

theorem Barren.turnedAway (barren : Barren cache key policy) {deadline : Deadline}
    (spent : deadline.IsOver cache.clock) :
    ∃ next, (cache.begin key policy deadline).2.turnCall? (cache.begin key policy deadline).1 = some next ∧
      TurnedAway cache next key policy deadline := by
  obtain ⟨clock, flights, calls, _⟩ := touch_frame cache key
  have vacant := (liveFlight?_touch cache key).trans barren.flight
  obtain ⟨next, turn, rebuffed⟩ := @rebuffed_of_isOver V (cache.touch key).2 (cache.opening key policy deadline) vacant
    (clock ▸ spent)
  have known : next.keys.lookup key = some (cache.touch key).1 := by
    rw [rebuffed.keys]
    exact lookup_touch cache key
  have now : next.clock.now = cache.clock.now := rebuffed.now.trans (congrArg Clock.now clock)
  rw [begin_empty barren.entry, (beginCold_call ..).1]
  refine ⟨next, turn, ?_, ?_, ?_, ?_⟩
  · rw [rebuffed.calls, clock, calls]
    rfl
  · exact ⟨_, rebuffed.flights.trans (congrArg (Array.push · _) flights), rfl, rfl, rebuffed.cancelled⟩
  · rw [flightFor, known]
    exact rebuffed.liveFlight?
  · intro entry held servable
    rw [entryFor, known] at held
    have before : cache.entryFor key = some entry := (entryOf_touch cache key).symm.trans (rebuffed.entryOf ▸ held)
    exact barren.entry entry before (servable.earlier (Nat.le_of_eq now.symm))

theorem Barren.turnCall?_of_inTime (barren : Barren cache key policy) {deadline : Deadline}
    (inTime : ¬deadline.IsOver cache.clock) :
    (cache.begin key policy deadline).2.turnCall? (cache.begin key policy deadline).1 = none := by
  have vacant := (liveFlight?_touch cache key).trans barren.flight
  rw [begin_empty barren.entry, (beginCold_call ..).1]
  exact Cache.turnCall?_of_inTime vacant ((touch_frame cache key).1 ▸ inTime)

/-- The flight is cancelled, and ends or has ended so. -/
structure Doomed (cache : Cache V) (number : Nat) (flight : Flight V) : Prop where
  present : cache.flights[number]? = some flight
  cancelled : cache.clock.isCancelled flight.token = true
  phase : flight.isRunning = true ∨ flight.phase = .landed (.error .cancelled)

namespace Doomed

variable {flight : Flight V}

/-- Whatever its computation has to say, the flight can take its turn and ends cancelled. -/
theorem verdict (doomed : Doomed cache number flight) (reachable : Reachable rule cache) {deadline : Deadline}
    (working : flight.phase = .working deadline) (work : Option (WorkEnd V)) :
    deadline.verdict cache.clock work = some .cancelled := by
  have own := (reachable.regular doomed.present).own deadline working
  exact if_pos ((congrArg cache.clock.isCancelled own).trans doomed.cancelled)

theorem step (doomed : Doomed cache number flight) (reachable : Reachable rule cache) {event : Event V}
    (step : cache.step? event = some next) : ∃ later, Doomed next number later ∧ later.key = flight.key := by
  have extended := Extends.step step
  obtain ⟨later', here', follows⟩ := extended.flights number flight doomed.present
  obtain ⟨later, here, way⟩ := step_flights step doomed.present
  obtain rfl := Option.some.inj (here.symm.trans here')
  refine ⟨later, ⟨here, follows.token ▸ extended.cancelled _ doomed.cancelled, ?_⟩, follows.key⟩
  rcases way with rebooked | ⟨work, _, turned⟩
  · rw [rebooked.same]
    exact doomed.phase
  · cases turned with
    | started => exact .inl rfl
    | ended working verdict =>
      rw [doomed.verdict reachable working work] at verdict
      cases verdict
      exact .inr rfl

theorem run (doomed : Doomed cache number flight) (reachable : Reachable rule cache) (run : Run rule cache next) :
    ∃ later, Doomed next number later ∧ later.key = flight.key := by
  induction run with
  | nil => exact ⟨flight, doomed, rfl⟩
  | snoc run allowed step ih =>
    obtain ⟨before, still, same⟩ := ih
    obtain ⟨later, here, same'⟩ := still.step (reachable.extend run) step
    exact ⟨later, here, same'.trans same⟩

/-- The flight has a turn as long as it has not ended. -/
theorem landed (doomed : Doomed cache number flight) (reachable : Reachable rule cache) {work : Option (WorkEnd V)}
    (still : cache.turnFlight? number work = none) : flight.phase = .landed (.error .cancelled) := by
  refine doomed.phase.resolve_left fun running => ?_
  unfold turnFlight? at still
  simp only [doomed.present] at still
  cases phase : flight.phase with
  | queued => simp [phase] at still
  | working deadline => simp [phase, doomed.verdict reachable phase work] at still
  | landed result => simp [Flight.isRunning, phase] at running
  | lost => simp [Flight.isRunning, phase] at running

/-- A flight that has landed is in no slot. -/
theorem uninstalled (doomed : Doomed cache number flight) (placed : Placed cache)
    (landed : flight.phase = .landed (.error .cancelled)) : ∀ slot ∈ cache.slots, slot.flight ≠ some number := by
  intro found member installed
  obtain ⟨slot, present⟩ := Array.mem_iff_getElem?.mp member
  obtain ⟨flight', aloft, _, aloft'⟩ := placed.installed slot found number present installed
  obtain rfl := Option.some.inj (doomed.present.symm.trans aloft)
  simp [Flight.hasLanded, landed] at aloft'

end Doomed

end Cache

end HedgedForecast
