import HedgedForecast.Proofs.Cache.Places
import HedgedForecast.Proofs.Cache.Turns

/-! # What an event changes

A call that begins, ends or is given up leaves the contents of all slots as they are, and of the flights
it changes only how many wait for them and whether they need anyone. It launches at most one flight, under
its own key and policy. A flight that takes its turn changes no other one, and it changes the contents of
its slot only by landing with a value that its policy stores.
-/

namespace HedgedForecast

variable {V : Type}

/-- What an entry says, apart from whether a refresh was started for it. -/
def Entry.core (entry : Entry V) : Entry V :=
  { entry with refreshing := false }

namespace Flight

/-- The same flight with other books; once detached it stays so. -/
structure Rebooked (later flight : Flight V) : Prop where
  same : later = { flight with waiters := later.waiters, detached := later.detached }
  detached : flight.detached = true → later.detached = true

/-- The flight was just launched by a call. -/
structure LaunchedBy (flight : Flight V) (key : String) (policy : Policy) (instant : Nat) : Prop where
  key : flight.key = key
  policy : flight.policy = policy
  launchedAt : flight.launchedAt = instant
  phase : flight.phase = .queued
  background : flight.trigger ≠ .cold → flight.detached = true

/-- The flight after its own turn: it has begun, or it has ended in the way that its computation did. -/
inductive Turned (clock : Clock) (work : Option (WorkEnd V)) (flight : Flight V) : Flight V → Prop
  | started {deadline : Deadline} (queued : flight.phase = .queued) (own : deadline.token = flight.token) :
      Turned clock work flight { flight with phase := .working deadline, startedAt := some clock.now }
  | ended {deadline : Deadline} {ending : GuardEnd (WorkEnd V)} {outcome : WorkOutcome}
      (working : flight.phase = .working deadline) (verdict : deadline.verdict clock work = some ending) :
      Turned clock work flight { flight with
        phase := flight.endPhase ending, outcome := some outcome, endedAt := some clock.now }

theorem Rebooked.refl (flight : Flight V) : flight.Rebooked flight :=
  ⟨rfl, id⟩

theorem Rebooked.trans {last later flight : Flight V} (second : last.Rebooked later)
    (first : later.Rebooked flight) : last.Rebooked flight := by
  constructor
  · have same := second.same
    rw [first.same] at same
    exact same
  · exact fun detached => second.detached (first.detached detached)

theorem LaunchedBy.rebooked {later flight : Flight V} {key : String} {policy : Policy} {instant : Nat}
    (launched : flight.LaunchedBy key policy instant) (rebooked : later.Rebooked flight) :
    later.LaunchedBy key policy instant := by
  have same := rebooked.same
  constructor
  · rw [same]; exact launched.key
  · rw [same]; exact launched.policy
  · rw [same]; exact launched.launchedAt
  · rw [same]; exact launched.phase
  · intro background
    have before : flight.trigger ≠ .cold := by rw [same] at background; exact background
    exact rebooked.detached (launched.background before)

end Flight

namespace Cache

/-- What the slot holds. -/
def content (cache : Cache V) (slot : Nat) : Option (Entry V) :=
  (cache.entryOf slot).map Entry.core

/-- What a caller's doings leave alone, and what they add. `asker` is the key and policy of a call that
may launch a flight. -/
structure Alters (asker : Option (String × Policy)) (cache next : Cache V) : Prop where
  now : next.clock.now = cache.clock.now
  content : ∀ slot, next.content slot = cache.content slot
  kept : ∀ (number : Nat) (flight : Flight V), cache.flights[number]? = some flight →
    ∃ later, next.flights[number]? = some later ∧ later.Rebooked flight
  launched : ∀ (number : Nat) (later : Flight V), cache.flights[number]? = none →
    next.flights[number]? = some later →
    ∃ key policy, asker = some (key, policy) ∧ later.LaunchedBy key policy cache.clock.now

namespace Alters

variable {asker : Option (String × Policy)} {cache middle next : Cache V}

theorem trans (first : Alters asker cache middle) (second : Alters asker middle next) :
    Alters asker cache next := by
  constructor
  · exact second.now.trans first.now
  · exact fun slot => (second.content slot).trans (first.content slot)
  · intro number flight present
    obtain ⟨later, there, rebooked⟩ := first.kept number flight present
    obtain ⟨last, here, rebooked'⟩ := second.kept number later there
    exact ⟨last, here, rebooked'.trans rebooked⟩
  · intro number last absent present
    cases there : middle.flights[number]? with
    | none =>
      obtain ⟨key, policy, asked, launched⟩ := second.launched number last there present
      exact ⟨key, policy, asked, first.now ▸ launched⟩
    | some later =>
      obtain ⟨key, policy, asked, launched⟩ := first.launched number later absent there
      obtain ⟨last', here, rebooked⟩ := second.kept number later there
      obtain rfl := Option.some.inj (present.symm.trans here)
      exact ⟨key, policy, asked, launched.rebooked rebooked⟩

/-- With the flights as they were, it is enough to look at the contents. -/
theorem of_content (now : next.clock.now = cache.clock.now) (flights : next.flights = cache.flights)
    (content : ∀ slot, next.content slot = cache.content slot) : Alters asker cache next := by
  refine ⟨now, content, ?_, ?_⟩
  · intro number flight present
    exact ⟨flight, flights ▸ present, .refl flight⟩
  · intro number later absent present
    rw [flights, absent] at present
    contradiction

theorem of_frame (now : next.clock.now = cache.clock.now) (flights : next.flights = cache.flights)
    (slots : next.slots = cache.slots) : Alters asker cache next :=
  of_content now flights fun slot => by simp only [Cache.content, entryOf, slots]

theorem refl (cache : Cache V) : Alters asker cache cache :=
  of_frame rfl rfl rfl

theorem addCall (cache : Cache V) (call : Call V) : Alters asker cache (cache.addCall call).2 :=
  of_frame rfl rfl rfl

theorem modifySlot (cache : Cache V) (slot : Nat) {change : Slot V → Slot V}
    (same : ∀ found, (change found).entry.map Entry.core = found.entry.map Entry.core) :
    Alters asker cache (cache.modifySlot slot change) := by
  refine of_content rfl rfl fun other => ?_
  simp only [Cache.content, entryOf, Cache.modifySlot, Array.getElem?_modify]
  split
  · cases cache.slots[other]? with
    | none => rfl
    | some found => exact same found
  · rfl

theorem rebook (cache : Cache V) (number : Nat) {change : Flight V → Flight V}
    (rebooked : ∀ flight, (change flight).Rebooked flight) :
    Alters asker cache (cache.modifyFlight number change) := by
  refine ⟨rfl, fun _ => rfl, ?_, ?_⟩
  · intro n flight present
    by_cases same : number = n
    · subst same
      exact ⟨change flight, getElem?_modify_self change present, rebooked flight⟩
    · exact ⟨flight, (getElem?_modify_of_ne _ change same).trans present, .refl flight⟩
  · intro n later absent present
    obtain ⟨flight, there, _⟩ := getElem?_modify_cases present
    rw [absent] at there
    contradiction

theorem join (cache : Cache V) (number : Nat) : Alters asker cache (cache.join number) :=
  rebook cache number fun _ => ⟨rfl, id⟩

theorem detach (cache : Cache V) (number : Nat) : Alters asker cache (cache.detach number) :=
  rebook cache number fun _ => ⟨rfl, fun _ => rfl⟩

theorem leave (cache : Cache V) (number : Nat) : Alters asker cache (cache.leave number) := by
  have counted : Alters asker cache
      (cache.modifyFlight number fun flight => { flight with waiters := flight.waiters - 1 }) :=
    rebook cache number fun _ => ⟨rfl, id⟩
  obtain ⟨clock, cancelled, same⟩ := cache.leave_eq number
  have now : clock.now = cache.clock.now := by
    rcases cancelled with rfl | ⟨token, rfl⟩
    · rfl
    · rfl
  rw [same]
  exact counted.trans (of_frame now rfl rfl)

theorem launch (cache : Cache V) (key : String) (slot : Nat) (policy : Policy) (trigger : Trigger)
    (waiters : Nat) :
    Alters (some (key, policy)) cache (cache.launch key slot policy trigger waiters).2 := by
  have installed : Alters (some (key, policy)) cache (cache.modifySlot slot fun slot =>
      { slot with flight := some cache.flights.size }) :=
    modifySlot cache slot fun _ => by rfl
  refine ⟨rfl, installed.content, ?_, ?_⟩
  · exact fun number flight present => ⟨flight, getElem?_push_of_some _ present, .refl flight⟩
  · intro number later absent present
    rcases getElem?_push_cases present with ⟨_, old⟩ | ⟨_, rfl⟩
    · rw [absent] at old
      contradiction
    · exact ⟨key, policy, rfl, rfl, rfl, rfl, rfl, fun background => bne_iff_ne.mpr background⟩

theorem touch (cache : Cache V) (key : String) : Alters asker cache (cache.touch key).2 := by
  obtain ⟨clock, flights, _, _⟩ := touch_frame cache key
  refine of_content (congrArg Clock.now clock) flights fun slot => ?_
  cases known : cache.keys.lookup key with
  | some own =>
    rw [touch_known known]
    have ticked : Alters asker cache { cache with tick := cache.tick + 1 } := of_frame rfl rfl rfl
    have noted : Alters asker { cache with tick := cache.tick + 1 }
        ({ cache with tick := cache.tick + 1 }.modifySlot own fun old => { old with lastAccess := cache.tick }) := by
      refine modifySlot _ own ?_
      intro found
      rfl
    exact (ticked.trans noted).content slot
  | none =>
    obtain ⟨_, slots, _⟩ := makeRoom_frame { cache with tick := cache.tick + 1 }
    rw [touch_absent known]
    simp only [Cache.content, entryOf, slots, Array.getElem?_push]
    split
    · next last => simp [last]
    · rfl

theorem stride {key : String} {slot : Nat} {policy : Policy} {before after : Stage V}
    (stride : Stride key slot policy before after) : Alters (some (key, policy)) before.1 after.1 := by
  cases stride with
  | mark =>
    refine modifySlot _ slot fun found => ?_
    cases found.entry <;> rfl
  | date => exact modifySlot _ slot fun _ => by rfl
  | launch => exact launch ..
  | join => exact join ..
  | detach => exact detach ..
  | leave flight => exact leave ..
  | clock => exact of_frame rfl rfl rfl
  | serve => exact addCall ..
  | await => exact addCall ..

/-- A call that begins launches at most one flight, under its own key and policy. -/
theorem begin (cache : Cache V) (key : String) (policy : Policy) (deadline : Deadline) :
    Alters (some (key, policy)) cache (cache.begin key policy deadline).2 := by
  obtain ⟨change, _, strides⟩ := begin_strides cache key policy deadline
  have counted : Alters (some (key, policy)) (cache.touch key).2 ((cache.touch key).2.count change) :=
    of_frame rfl rfl rfl
  exact ((touch cache key).trans counted).trans (strides.relate (Alters _) refl .trans .stride)

theorem returnCall (cache : Cache V) (number : Nat) (result : Except Failure V) :
    Alters asker cache (cache.returnCall number result) :=
  of_frame rfl rfl rfl

theorem turnCall {number : Nat} (turn : cache.turnCall? number = some next) : Alters asker cache next := by
  obtain ⟨call, flight, _, _, ending⟩ := turnCall?_ending turn
  cases ending with
  | left answer => exact (returnCall ..).trans (leave ..)
  | evicted answer => exact ((returnCall ..).trans (leave ..)).trans (of_frame rfl rfl rfl)
  | detached answer => exact ((returnCall ..).trans (detach ..)).trans (leave ..)

theorem dropCall (cache : Cache V) (number : Nat) : Alters asker cache (cache.dropCall number) := by
  rcases dropCall_eq cache number with ⟨same, _⟩ | ⟨_, flight, _, _, left⟩
  · rw [same]
    exact refl cache
  · have gone : Alters asker cache (cache.modifyCall number fun call => { call with phase := .dropped }) :=
      of_frame rfl rfl rfl
    rw [left]
    exact gone.trans (leave ..)

end Alters

/-- The key and policy of the call that the event begins. -/
def Event.asker : Event V → Option (String × Policy)
  | .begin key policy _ => some (key, policy)
  | _ => none

/-- Apart from time moving on and flights taking their turns, all that happens is what callers do. -/
theorem step_alters {cache next : Cache V} {event : Event V} (step : cache.step? event = some next) :
    (∃ number work, event = .flight number work) ∨ (∃ instant, event = .pass instant) ∨
      Alters event.asker cache next := by
  cases event with
  | begin key policy deadline => cases step; exact .inr (.inr (.begin cache key policy deadline))
  | flight number work => exact .inl ⟨number, work, rfl⟩
  | call number => exact .inr (.inr (.turnCall step))
  | drop number => cases step; exact .inr (.inr (.dropCall cache number))
  | purge => cases step; exact .inr (.inr (.of_frame rfl rfl rfl))
  | remove key => cases step; exact .inr (.inr (.of_frame rfl rfl rfl))
  | pass instant => exact .inr (.inl ⟨instant, rfl⟩)
  | scope parent => cases parent <;> cases step <;> exact .inr (.inr (.of_frame rfl rfl rfl))
  | cancel token => cases step; exact .inr (.inr (.of_frame rfl rfl rfl))

theorem turnFlight?_flights {cache next : Cache V} {number : Nat} {work : Option (WorkEnd V)}
    (turn : cache.turnFlight? number work = some next) :
    ∃ flight later, cache.flights[number]? = some flight ∧ flight.Turned cache.clock work later ∧
      next.clock = cache.clock ∧ next.flights[number]? = some later ∧
      ∀ other, number ≠ other → next.flights[other]? = cache.flights[other]? := by
  obtain ⟨flight, present, ⟨queued, rfl⟩ | ⟨deadline, ending, working, verdict, rfl⟩⟩ :=
    turnFlight?_eq_some_iff.mp turn
  · have begun : (cache.startFlight number).flights[number]? = some _ := getElem?_modify_self _ present
    exact ⟨flight, _, present, .started queued rfl, rfl, begun, fun _ => getElem?_modify_of_ne _ _⟩
  · obtain ⟨clock, _, outcome, flights⟩ := endFlight_frame cache number flight ending
    have ended : (cache.endFlight number flight ending).flights[number]? = some _ :=
      (congrArg (·[number]?) flights).trans (getElem?_modify_self _ present)
    refine ⟨flight, _, present, .ended working verdict, clock, ended, fun other distinct => ?_⟩
    rw [flights]
    exact getElem?_modify_of_ne _ _ distinct

theorem turnFlight?_size {cache next : Cache V} {number : Nat} {work : Option (WorkEnd V)}
    (turn : cache.turnFlight? number work = some next) : next.flights.size = cache.flights.size := by
  obtain ⟨flight, _, ⟨_, rfl⟩ | ⟨deadline, ending, _, _, rfl⟩⟩ := turnFlight?_eq_some_iff.mp turn
  · exact Array.size_modify
  · obtain ⟨_, _, _, flights⟩ := endFlight_frame cache number flight ending
    rw [flights]
    exact Array.size_modify

/-- A flight is kept, but for its books, by everything but its own turn. -/
theorem step_flights {cache next : Cache V} {event : Event V} (step : cache.step? event = some next) {number : Nat}
    {flight : Flight V} (present : cache.flights[number]? = some flight) :
    ∃ later, next.flights[number]? = some later ∧
      (later.Rebooked flight ∨ ∃ work, event = .flight number work ∧ flight.Turned cache.clock work later) := by
  rcases step_alters step with ⟨other, work, rfl⟩ | ⟨instant, rfl⟩ | altered
  · obtain ⟨found, later, there, turned, _, here, others⟩ := turnFlight?_flights step
    by_cases same : other = number
    · subst same
      obtain rfl := Option.some.inj (present.symm.trans there)
      exact ⟨later, here, .inr ⟨work, rfl, turned⟩⟩
    · exact ⟨flight, (others number same).trans present, .inl (.refl flight)⟩
  · cases step
    exact ⟨flight, present, .inl (.refl flight)⟩
  · obtain ⟨later, there, rebooked⟩ := altered.kept number flight present
    exact ⟨later, there, .inl rebooked⟩

/-- A flight that has landed takes no more turns. -/
theorem step_landed {cache next : Cache V} {event : Event V} (step : cache.step? event = some next) {number : Nat}
    {flight : Flight V} {result : Except Failure V} (present : cache.flights[number]? = some flight)
    (landed : flight.phase = .landed result) :
    ∃ later, next.flights[number]? = some later ∧ later.Rebooked flight := by
  obtain ⟨later, there, kept | ⟨work, _, turned⟩⟩ := step_flights step present
  · exact ⟨later, there, kept⟩
  · cases turned with
    | started queued =>
      rw [queued] at landed
      contradiction
    | ended working =>
      rw [working] at landed
      contradiction

/-- Only a call that begins launches a flight. -/
theorem step_launched {cache next : Cache V} {event : Event V} (step : cache.step? event = some next) {number : Nat}
    {later : Flight V} (absent : cache.flights[number]? = none) (present : next.flights[number]? = some later) :
    ∃ key policy deadline, event = .begin key policy deadline ∧ later.LaunchedBy key policy cache.clock.now := by
  rcases step_alters step with ⟨other, work, rfl⟩ | ⟨instant, rfl⟩ | altered
  · obtain ⟨found, _, there, _, _, _, others⟩ := turnFlight?_flights step
    have distinct : other ≠ number := by
      rintro rfl
      rw [absent] at there
      contradiction
    rw [others number distinct, absent] at present
    contradiction
  · cases step
    rw [absent] at present
    contradiction
  · obtain ⟨key, policy, asked, launched⟩ := altered.launched number later absent present
    cases event with
    | begin key' policy' deadline =>
      cases asked
      exact ⟨key, policy, deadline, rfl, launched⟩
    | _ => contradiction

theorem content_congr {cache next : Cache V} (slots : next.slots = cache.slots) (slot : Nat) :
    next.content slot = cache.content slot := by
  simp only [content, entryOf, slots]

theorem content_uninstall (cache : Cache V) (number : Nat) (flight : Flight V) (slot : Nat) :
    (cache.uninstall number flight).content slot = cache.content slot := by
  have uninstalled : Alters none cache (cache.uninstall number flight) := by
    refine .modifySlot cache flight.slot fun found => ?_
    split <;> rfl
  exact uninstalled.content slot

/-- An ending changes what a slot holds only if the flight of the slot lands with a value that its policy
stores. -/
theorem endFlight_content (cache : Cache V) (number : Nat) (flight : Flight V) (ending : GuardEnd (WorkEnd V))
    (slot : Nat) :
    (cache.endFlight number flight ending).content slot = cache.content slot ∨
      ∃ value, flight.endPhase ending = .landed (.ok value) ∧ slot = flight.slot ∧
        flight.policy.storesEntries = true ∧
        (cache.endFlight number flight ending).content slot =
          some { value, storedAt := cache.clock.now, policy := flight.policy, flight := number } := by
  generalize ended : cache.endFlight number flight ending = next
  cases endFlight_landing ended with
  | failed => exact .inl (content_uninstall (cache.count _) number flight slot)
  | lost => exact .inl rfl
  | passed => exact .inl (content_uninstall cache number flight slot)
  | @stored value phase stores =>
    have landed : ((((cache.store number flight value).uninstall number flight).close number
        (.landed (.ok value)) .ok).content slot) = (cache.store number flight value).content slot :=
      content_uninstall (cache.store number flight value) number flight slot
    rw [landed]
    simp only [content, entryOf, store, modifySlot, Array.getElem?_modify]
    split
    · next own =>
      cases cache.slots[slot]? with
      | none => exact .inl rfl
      | some found => exact .inr ⟨value, phase, own.symm, stores, rfl⟩
    · exact .inl rfl

/-- What a slot holds changes only when a flight of it lands. -/
theorem step_content {cache next : Cache V} {event : Event V} (step : cache.step? event = some next) (slot : Nat) :
    next.content slot = cache.content slot ∨
      ∃ number flight value, next.flights[number]? = some flight ∧ flight.slot = slot ∧
        flight.phase = .landed (.ok value) ∧ flight.endedAt = some cache.clock.now ∧
        flight.policy.storesEntries = true ∧
        next.content slot = some { value, storedAt := cache.clock.now, policy := flight.policy, flight := number } := by
  rcases step_alters step with ⟨number, work, rfl⟩ | ⟨instant, rfl⟩ | altered
  · obtain ⟨flight, present, ⟨_, rfl⟩ | ⟨deadline, ending, _, _, rfl⟩⟩ := turnFlight?_eq_some_iff.mp step
    · exact .inl (content_congr rfl slot)
    · rcases endFlight_content cache number flight ending slot with same | ⟨value, landed, own, stores, stored⟩
      · exact .inl same
      · obtain ⟨_, _, outcome, flights⟩ := endFlight_frame cache number flight ending
        have ended := getElem?_modify_self (fun flight' : Flight V => { flight' with
          phase := flight.endPhase ending, outcome := some outcome, endedAt := some cache.clock.now }) present
        rw [← flights] at ended
        exact .inr ⟨number, _, value, ended, own.symm, landed, rfl, stores, stored⟩
  · cases step
    exact .inl (content_congr rfl slot)
  · exact .inl (altered.content slot)

/-- A call that begins waits for the flight: its key has it, or the call launches it. -/
def Awaits (cache next : Cache V) (key : String) (policy : Policy) (flight : Nat) : Prop :=
  cache.flightFor key = some flight ∨
    cache.flights[flight]? = none ∧ ∃ launched, next.flights[flight]? = some launched ∧
      launched.LaunchedBy key policy cache.clock.now

/-- The ways of a call that begins. -/
inductive Opens (cache next : Cache V) (key : String) (policy : Policy) (deadline : Deadline) : CallPhase V → Prop
  | fresh {entry : Entry V} (found : cache.entryFor key = some entry) (fresh : cache.clock.now < entry.expiresAt) :
      Opens cache next key policy deadline (.returned (.ok entry.value) cache.clock.now)
  | stale {entry : Entry V} (found : cache.entryFor key = some entry) (failSafe : policy.failSafe = true)
      (expired : entry.expiresAt ≤ cache.clock.now) (servable : cache.clock.now < entry.servableUntil) :
      Opens cache next key policy deadline (.returned (.ok entry.value) cache.clock.now)
  | softly {entry : Entry V} {flight : Nat} {clock : Clock} (found : cache.entryFor key = some entry)
      (failSafe : policy.failSafe = true) (expired : entry.expiresAt ≤ cache.clock.now)
      (servable : cache.clock.now < entry.servableUntil) (awaits : Awaits cache next key policy flight)
      (sameTime : clock.now = cache.clock.now) :
      Opens cache next key policy deadline (.stale flight (deadline.tighten clock policy.softTimeout).1 entry.value)
  | cold {flight : Nat} (awaits : Awaits cache next key policy flight) :
      Opens cache next key policy deadline (.cold flight)

/-- The flight that a caller looks for in a slot is there, or it is the next one. -/
theorem staleFlight?_finds {cache : Cache V} {key : String} {slot flight : Nat} {policy : Policy}
    (found : (cache.staleFlight? key slot policy).1 = some flight) :
    cache.liveFlight? slot = some flight ∨
      flight = cache.flights.size ∧ (cache.staleFlight? key slot policy).2.flights.size = flight + 1 := by
  unfold staleFlight? at found ⊢
  cases live : cache.liveFlight? slot with
  | some other =>
    simp only [live] at found
    exact .inl found
  | none =>
    simp only [live] at found ⊢
    split at found
    · contradiction
    · next free =>
      obtain rfl : cache.flights.size = flight := Option.some.inj found
      rw [if_neg free]
      exact .inr ⟨rfl, Array.size_push ..⟩

theorem coldFlight_finds (cache : Cache V) (key : String) (slot : Nat) (policy : Policy) :
    cache.liveFlight? slot = some (cache.coldFlight key slot policy).1 ∨
      (cache.coldFlight key slot policy).1 = cache.flights.size ∧
        (cache.coldFlight key slot policy).2.flights.size = (cache.coldFlight key slot policy).1 + 1 := by
  unfold coldFlight
  cases live : cache.liveFlight? slot with
  | some other => exact .inl rfl
  | none => exact .inr ⟨rfl, Array.size_push ..⟩

/-- What a caller finds in the slot of the key is what the call awaits. -/
theorem awaits_of_finds {cache : Cache V} {key : String} {policy : Policy} {deadline : Deadline} {flight : Nat}
    (finds : (cache.touch key).2.liveFlight? (cache.touch key).1 = some flight ∨
      flight = (cache.touch key).2.flights.size ∧
        (cache.begin key policy deadline).2.flights.size = flight + 1) :
    Awaits cache (cache.begin key policy deadline).2 key policy flight := by
  rcases finds with live | ⟨last, grown⟩
  · exact .inl ((liveFlight?_touch cache key).symm.trans live)
  · have absent : cache.flights[flight]? = none := by
      rw [last, (touch_frame cache key).2.1]
      exact Array.getElem?_size
    obtain ⟨launched, present⟩ : ∃ launched, (cache.begin key policy deadline).2.flights[flight]? = some launched :=
      ⟨_, Array.getElem?_eq_getElem (by rw [grown]; exact Nat.lt_succ_self _)⟩
    obtain ⟨key', policy', asked, new⟩ :=
      (Alters.begin cache key policy deadline).launched flight launched absent present
    cases asked
    exact .inr ⟨absent, launched, present, new⟩

/-- A call that begins comes after all others and takes one of these ways. -/
theorem begin_opens (cache : Cache V) (key : String) (policy : Policy) (deadline : Deadline) :
    ∃ phase, (cache.begin key policy deadline).1 = cache.calls.size ∧
      (cache.begin key policy deadline).2.calls =
        cache.calls.push { cache.opening key policy deadline with phase } ∧
      Opens cache (cache.begin key policy deadline).2 key policy deadline phase := by
  obtain ⟨clock, _, calls, _⟩ := touch_frame cache key
  rcases begin_cases cache key policy deadline with
    ⟨entry, found, fresh, same⟩ | ⟨entry, found, expired, failSafe, servable, same⟩ | ⟨_, same⟩
  · obtain ⟨place, added⟩ := beginHit_call (cache.touch key).2 (cache.opening key policy deadline) entry
    rw [← same, calls] at place added
    rw [clock] at added
    exact ⟨_, place, added, .fresh found fresh⟩
  · obtain ⟨phase, place, added, way⟩ :=
      beginStale_call (cache.touch key).2 (cache.opening key policy deadline) entry
    rw [← same, calls] at place added
    refine ⟨phase, place, added, ?_⟩
    rcases way with rfl | ⟨_, flight, clock', sameTime, rfl, flights, some⟩
    · rw [clock]
      exact .stale found failSafe expired servable
    · refine .softly found failSafe expired servable (awaits_of_finds ?_) (sameTime.trans (congrArg Clock.now clock))
      rw [same, flights]
      exact staleFlight?_finds some
  · obtain ⟨place, added⟩ := beginCold_call (cache.touch key).2 (cache.opening key policy deadline)
    rw [← same, calls] at place added
    refine ⟨_, place, added, .cold (awaits_of_finds ?_)⟩
    rw [same]
    exact coldFlight_finds ((cache.touch key).2.count _) key (cache.touch key).1 policy

/-- Where a call comes from that is there after an event. -/
inductive CameFrom (cache next : Cache V) (number : Nat) (call : Call V) : Event V → Prop
  | same {event : Event V} (present : cache.calls[number]? = some call) : CameFrom cache next number call event
  | answered {waiting : Call V} {answer : Except Failure V} (present : cache.calls[number]? = some waiting)
      (answered : cache.answer? waiting = some answer)
      (same : call = { waiting with phase := .returned answer cache.clock.now }) :
      CameFrom cache next number call (.call number)
  | dropped {waiting : Call V} (present : cache.calls[number]? = some waiting)
      (same : call = { waiting with phase := .dropped }) : CameFrom cache next number call (.drop number)
  | begun {key : String} {policy : Policy} {deadline : Deadline} {phase : CallPhase V}
      (last : number = cache.calls.size) (opens : Opens cache next key policy deadline phase)
      (same : call = { cache.opening key policy deadline with phase }) :
      CameFrom cache next number call (.begin key policy deadline)

theorem step_cameFrom {cache next : Cache V} {event : Event V} (step : cache.step? event = some next) {number : Nat}
    {call : Call V} (present : next.calls[number]? = some call) : CameFrom cache next number call event := by
  cases event with
  | begin key policy deadline =>
    cases step
    obtain ⟨phase, _, calls, opens⟩ := begin_opens cache key policy deadline
    rw [calls] at present
    rcases getElem?_push_cases present with ⟨_, old⟩ | ⟨last, rfl⟩
    · exact .same old
    · exact .begun last opens rfl
  | flight other work =>
    obtain ⟨flight, _, ⟨_, rfl⟩ | ⟨deadline, ending, _, _, rfl⟩⟩ := turnFlight?_eq_some_iff.mp step
    · exact .same present
    · rw [(endFlight_frame cache other flight ending).2.1] at present
      exact .same present
  | call other =>
    obtain ⟨waiting, answer, there, answered, calls⟩ := turnCall?_calls step
    rw [calls] at present
    obtain ⟨before, there', ⟨_, rfl⟩ | ⟨rfl, rfl⟩⟩ := getElem?_modify_cases present
    · exact .same there'
    · obtain rfl := Option.some.inj (there.symm.trans there')
      exact .answered there answered rfl
  | drop other =>
    cases step
    rcases dropCall_eq cache other with ⟨same, _⟩ | ⟨_, flight, _, _, left⟩
    · rw [same] at present
      exact .same present
    · rw [left, leave_calls] at present
      obtain ⟨before, there, ⟨_, rfl⟩ | ⟨rfl, rfl⟩⟩ := getElem?_modify_cases present
      · exact .same there
      · exact .dropped there rfl
  | purge => cases step; exact .same present
  | remove key => cases step; exact .same present
  | pass time => cases step; exact .same present
  | scope parent => cases parent <;> cases step <;> exact .same present
  | cancel token => cases step; exact .same present

/-- What flights have from their launch and keep is true of all flights. -/
theorem Reachable.forall_flights {rule : Rule V} {property : Flight V → Prop}
    (launched : ∀ flight key policy instant, flight.LaunchedBy key policy instant → property flight)
    (rebooked : ∀ flight later, property flight → later.Rebooked flight → property later)
    (turned : ∀ clock work flight later, property flight → flight.Turned clock work later → property later)
    {cache : Cache V} (reachable : Reachable rule cache) :
    ∀ (number : Nat) (flight : Flight V), cache.flights[number]? = some flight → property flight := by
  refine @Reachable.invariant V rule cache
    (fun cache => ∀ (number : Nat) (flight : Flight V), cache.flights[number]? = some flight → property flight)
    reachable ?_ fun maxEntries => ?_
  · intro cache event next all _ step number later there
    cases present : cache.flights[number]? with
    | none =>
      obtain ⟨key, policy, _, _, new⟩ := step_launched step present there
      exact launched later key policy _ new
    | some flight =>
      obtain ⟨later', there', kept | ⟨work, _, turn⟩⟩ := step_flights step present
      · obtain rfl := Option.some.inj (there.symm.trans there')
        exact rebooked flight later (all number flight present) kept
      · obtain rfl := Option.some.inj (there.symm.trans there')
        exact turned _ work flight later (all number flight present) turn
  · simp [empty]

/-- What calls have from their beginning and keep when they end is true of all calls. -/
theorem Reachable.forall_calls {rule : Rule V} {property : Call V → Prop}
    (opened : ∀ (cache next : Cache V) key policy deadline phase, Opens cache next key policy deadline phase →
      property { cache.opening key policy deadline with phase })
    (answered : ∀ call answer instant, property call → property { call with phase := .returned answer instant })
    (dropped : ∀ call, property call → property { call with phase := .dropped })
    {cache : Cache V} (reachable : Reachable rule cache) :
    ∀ (number : Nat) (call : Call V), cache.calls[number]? = some call → property call := by
  refine @Reachable.invariant V rule cache
    (fun cache => ∀ (number : Nat) (call : Call V), cache.calls[number]? = some call → property call)
    reachable ?_ fun maxEntries => ?_
  · intro cache event next all _ step number call there
    cases step_cameFrom step there with
    | same present => exact all number call present
    | answered present _ same => exact same ▸ answered _ _ _ (all number _ present)
    | dropped present same => exact same ▸ dropped _ (all number _ present)
    | begun _ opens same => exact same ▸ opened _ _ _ _ _ _ opens
  · simp [empty]

/-- The flight that a key has is one of its own and has not landed. -/
theorem Placed.flightFor {cache : Cache V} (placed : Placed cache) {key : String} {number : Nat}
    (there : cache.flightFor key = some number) :
    ∃ flight, cache.flights[number]? = some flight ∧ flight.key = key ∧ flight.hasLanded = false ∧
      cache.clock.isCancelled flight.token = false := by
  obtain ⟨slot, known, live⟩ := Option.bind_eq_some_iff.mp there
  obtain ⟨found, flight, present, installed, aloft, uncancelled⟩ := liveFlight?_eq_some_iff.mp live
  obtain ⟨flight', aloft', owner, landed⟩ := placed.installed slot found number present installed
  obtain rfl := Option.some.inj (aloft.symm.trans aloft')
  obtain ⟨own, there, named⟩ := placed.slot_of_key key slot (mem_of_lookup known)
  obtain ⟨own', there', named'⟩ := placed.slot_of_flight number flight aloft
  rw [owner, there] at there'
  obtain rfl := Option.some.inj there'
  exact ⟨flight, aloft, named'.symm.trans named, landed, uncancelled⟩

/-- What a key has is in a slot of the key. -/
theorem Placed.content_of_entryFor {cache : Cache V} (placed : Placed cache) {key : String} {entry : Entry V}
    (found : cache.entryFor key = some entry) :
    ∃ slot own, cache.content slot = some entry.core ∧ cache.slots[slot]? = some own ∧ own.key = key := by
  obtain ⟨slot, known, there⟩ := Option.bind_eq_some_iff.mp found
  obtain ⟨own, present, named⟩ := placed.slot_of_key key slot (mem_of_lookup known)
  exact ⟨slot, own, by rw [content, there]; rfl, present, named⟩

end Cache

end HedgedForecast
