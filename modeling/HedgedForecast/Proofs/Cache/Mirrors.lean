import HedgedForecast.Proofs.Cache.Attendance
import HedgedForecast.Proofs.Cache.Footprints
import HedgedForecast.Proofs.Cache.Launches
import Mathlib.Data.Option.Basic

/-! # One key on its own

A cache may be compared with another one that has only what belongs to one of its keys. Slots, flights and calls
have other numbers there, their ranks among those of the key, and the scopes that only other keys have to do with
are not cancelled there. In all else the key looks the same in both, and whatever happens to the key, if it
happens in both, it looks the same afterwards.
-/

namespace HedgedForecast

variable {V : Type}

/-- The other clock shows the same time, and the scopes of concern are cancelled there if they are here. -/
structure Clock.Agrees (concerned : Nat → Prop) (clock other : Clock) : Prop where
  now : other.now = clock.now
  issued : other.scopes.issued = clock.scopes.issued
  bounded : ∀ scope ∈ clock.scopes.cancelled, scope < clock.scopes.issued
  fewer : ∀ scope ∈ other.scopes.cancelled, scope ∈ clock.scopes.cancelled
  enough : ∀ scope, concerned scope → scope ∈ clock.scopes.cancelled → scope ∈ other.scopes.cancelled

namespace Clock.Agrees

variable {concerned concerned' : Nat → Prop} {clock other : Clock}

theorem isCancelled (agrees : clock.Agrees concerned other) {token : Token}
    (own : ∀ scope ∈ token.lineage, concerned scope) : other.isCancelled token = clock.isCancelled token := by
  rw [Bool.eq_iff_iff, Clock.isCancelled, Clock.isCancelled, Scopes.isCancelled_iff, Scopes.isCancelled_iff]
  constructor
  · rintro ⟨scope, within, member⟩
    exact ⟨scope, within, agrees.fewer scope member⟩
  · rintro ⟨scope, within, member⟩
    exact ⟨scope, within, agrees.enough scope (own scope within) member⟩

theorem verdict (agrees : clock.Agrees concerned other) {deadline : Deadline}
    (own : ∀ scope ∈ deadline.token.lineage, concerned scope) {α : Type} (work : Option α) :
    deadline.verdict other work = deadline.verdict clock work := by
  unfold Deadline.verdict Deadline.isCancelled Deadline.isExpired
  rw [agrees.isCancelled own, agrees.now]

theorem mono (agrees : clock.Agrees concerned other) (fewer : ∀ scope, concerned' scope → concerned scope) :
    clock.Agrees concerned' other :=
  ⟨agrees.now, agrees.issued, agrees.bounded, agrees.fewer, fun scope own => agrees.enough scope (fewer scope own)⟩

/-- A new scope is not cancelled, so it may be of concern. -/
theorem issue (agrees : clock.Agrees concerned other) {clock' other' : Clock} (now : clock'.now = clock.now)
    (now' : other'.now = other.now) (issued : clock'.scopes.issued = clock.scopes.issued + 1)
    (issued' : other'.scopes.issued = other.scopes.issued + 1)
    (cancelled : clock'.scopes.cancelled = clock.scopes.cancelled)
    (cancelled' : other'.scopes.cancelled = other.scopes.cancelled)
    (new : ∀ scope, concerned' scope → concerned scope ∨ scope = clock.scopes.issued) :
    clock'.Agrees concerned' other' := by
  refine ⟨?_, ?_, ?_, ?_, ?_⟩
  · rw [now, now', agrees.now]
  · rw [issued, issued', agrees.issued]
  · rw [cancelled, issued]
    exact fun scope member => Nat.lt_succ_of_lt (agrees.bounded scope member)
  · rw [cancelled, cancelled']
    exact agrees.fewer
  · rw [cancelled, cancelled']
    intro scope own member
    rcases new scope own with old | rfl
    · exact agrees.enough scope old member
    · exact absurd (agrees.bounded _ member) (Nat.lt_irrefl _)

theorem cancel (agrees : clock.Agrees concerned other) {token : Token}
    (known : ∀ scope ∈ token.lineage, scope < clock.scopes.issued) :
    (clock.cancel token).Agrees concerned (other.cancel token) := by
  refine ⟨agrees.now, agrees.issued, fun scope member => ?_, fun scope member => ?_, fun scope own member => ?_⟩
  · rcases List.mem_append.mp member with new | before
    · exact known scope (List.mem_of_mem_take new)
    · exact agrees.bounded scope before
  · rcases List.mem_append.mp member with new | before
    · exact List.mem_append_left _ new
    · exact List.mem_append_right _ (agrees.fewer scope before)
  · rcases List.mem_append.mp member with new | before
    · exact List.mem_append_left _ new
    · exact List.mem_append_right _ (agrees.enough scope own before)

theorem moveTo (agrees : clock.Agrees concerned other) (instant : Nat) :
    (clock.moveTo instant).Agrees concerned (other.moveTo instant) :=
  ⟨congrArg (max · instant) agrees.now, agrees.issued, agrees.bounded, agrees.fewer, agrees.enough⟩

end Clock.Agrees

/-- The slot is one of the key's. -/
def Slot.isOf (key : String) (slot : Slot V) : Bool :=
  slot.key == key

/-- The flight is one of the key's. -/
def Flight.isOf (key : String) (flight : Flight V) : Bool :=
  flight.key == key

/-- The call is one of the key's. -/
def Call.isOf (key : String) (call : Call V) : Bool :=
  call.key == key

/-- The other entry differs at most in the number of its flight. -/
def Entry.Mirrors (entry other : Entry V) : Prop :=
  other = { entry with flight := other.flight }

/-- The other slot differs in the number of its flight and in when it was last called. -/
structure Slot.Mirrors (flights : Nat → Nat → Prop) (slot other : Slot V) : Prop where
  key : other.key = slot.key
  entry : Option.Rel Entry.Mirrors slot.entry other.entry
  flight : Option.Rel flights slot.flight other.flight
  lastRefresh : other.lastRefresh = slot.lastRefresh

/-- The other flight differs in the number of its slot. -/
structure Flight.Mirrors (slots : Nat → Nat → Prop) (flight other : Flight V) : Prop where
  slot : slots flight.slot other.slot
  same : other = { flight with slot := other.slot }

/-- The other call stands where this one does and waits for its own flight. -/
inductive CallPhase.Mirrors (flights : Nat → Nat → Prop) : CallPhase V → CallPhase V → Prop
  | cold {flight other : Nat} (waits : flights flight other) : Mirrors flights (.cold flight) (.cold other)
  | stale {flight other : Nat} (waits : flights flight other) (soft : Deadline) (fallback : V) :
      Mirrors flights (.stale flight soft fallback) (.stale other soft fallback)
  | returned (result : Except Failure V) (instant : Nat) :
      Mirrors flights (.returned result instant) (.returned result instant)
  | dropped : Mirrors flights .dropped .dropped

/-- The other call differs in the numbers of its slot and its flight. -/
structure Call.Mirrors (slots flights : Nat → Nat → Prop) (call other : Call V) : Prop where
  slot : slots call.slot other.slot
  phase : call.phase.Mirrors flights other.phase
  same : other = { call with slot := other.slot, phase := other.phase }

namespace Cache

/-- The scopes that a key has to do with: those that its callers may cancel, and those of its flights and of its
calls that wait within a soft bound. -/
inductive Concerns (key : String) (heard : Nat → Prop) (flights : Array (Flight V)) (calls : Array (Call V))
    (scope : Nat) : Prop
  | heard (own : heard scope)
  | flight {number : Nat} {flight : Flight V} (present : flights[number]? = some flight)
      (own : flight.isOf key = true) (within : scope ∈ flight.token.lineage)
  | soft {number waited : Nat} {call : Call V} {soft : Deadline} {fallback : V}
      (present : calls[number]? = some call) (own : call.isOf key = true)
      (phase : call.phase = .stale waited soft fallback) (within : scope ∈ soft.token.lineage)

/-- The slot of the key, and what it is in the other cache. -/
abbrev SlotAt (key : String) (cache : Cache V) : Nat → Nat → Prop :=
  Points (Slot.isOf key) cache.slots

/-- The flight of the key, and what it is in the other cache. -/
abbrev FlightAt (key : String) (cache : Cache V) : Nat → Nat → Prop :=
  Points (Flight.isOf key) cache.flights

/-- The other cache has only what belongs to the key, as it is here. -/
structure Mirrors (key : String) (heard : Nat → Prop) (cache part : Cache V) : Prop where
  clock : cache.clock.Agrees (Concerns key heard cache.flights cache.calls) part.clock
  room : 0 < part.maxEntries
  keys : cache.keys.lookup key = none ∧ part.keys = [] ∨
    ∃ slot other, cache.keys.lookup key = some slot ∧ part.keys = [(key, other)] ∧ SlotAt key cache slot other
  slots : Matches (Slot.isOf key) (Slot.Mirrors (FlightAt key cache)) cache.slots part.slots
  flights : Matches (Flight.isOf key) (Flight.Mirrors (SlotAt key cache)) cache.flights part.flights
  calls : Matches (Call.isOf key) (Call.Mirrors (SlotAt key cache) (FlightAt key cache)) cache.calls part.calls
  deadlines : ∀ (number : Nat) (call : Call V), cache.calls[number]? = some call → call.isOf key = true →
    ∀ scope ∈ call.deadline.token.lineage, heard scope

end Cache

section

variable {slots slots' flights flights' : Nat → Nat → Prop}

private theorem rel_mono {kept kept' : Nat → Nat → Prop} (weaker : ∀ place other, kept place other → kept' place other) :
    ∀ {found other : Option Nat}, Option.Rel kept found other → Option.Rel kept' found other
  | _, _, .none => .none
  | _, _, .some same => .some (weaker _ _ same)

theorem Slot.Mirrors.mono {slot other : Slot V} (mirrors : slot.Mirrors flights other)
    (kept : ∀ flight other, flights flight other → flights' flight other) : slot.Mirrors flights' other :=
  ⟨mirrors.key, mirrors.entry, rel_mono kept mirrors.flight, mirrors.lastRefresh⟩

theorem Flight.Mirrors.mono {flight other : Flight V} (mirrors : flight.Mirrors slots other)
    (kept : ∀ slot other, slots slot other → slots' slot other) : flight.Mirrors slots' other :=
  ⟨kept _ _ mirrors.slot, mirrors.same⟩

theorem CallPhase.Mirrors.mono {phase other : CallPhase V} (mirrors : phase.Mirrors flights other)
    (kept : ∀ flight other, flights flight other → flights' flight other) : phase.Mirrors flights' other := by
  cases mirrors with
  | cold waits => exact .cold (kept _ _ waits)
  | stale waits soft fallback => exact .stale (kept _ _ waits) soft fallback
  | returned result instant => exact .returned result instant
  | dropped => exact .dropped

theorem Call.Mirrors.mono {call other : Call V} (mirrors : call.Mirrors slots flights other)
    (keptSlots : ∀ slot other, slots slot other → slots' slot other)
    (keptFlights : ∀ flight other, flights flight other → flights' flight other) :
    call.Mirrors slots' flights' other :=
  ⟨keptSlots _ _ mirrors.slot, mirrors.phase.mono keptFlights, mirrors.same⟩

namespace Call.Mirrors

variable {call other : Call V} (mirrors : call.Mirrors slots flights other)

include mirrors

theorem of_cold {flight : Nat} (phase : call.phase = .cold flight) :
    ∃ flight', other.phase = .cold flight' ∧ flights flight flight' := by
  have phases := mirrors.phase
  rw [phase] at phases
  generalize other.phase = phase' at phases ⊢
  cases phases with
  | cold waits => exact ⟨_, rfl, waits⟩

theorem to_cold {flight' : Nat} (phase : other.phase = .cold flight') :
    ∃ flight, call.phase = .cold flight ∧ flights flight flight' := by
  have phases := mirrors.phase
  rw [phase] at phases
  generalize call.phase = phase' at phases ⊢
  cases phases with
  | cold waits => exact ⟨_, rfl, waits⟩

theorem of_stale {flight : Nat} {soft : Deadline} {fallback : V} (phase : call.phase = .stale flight soft fallback) :
    ∃ flight', other.phase = .stale flight' soft fallback ∧ flights flight flight' := by
  have phases := mirrors.phase
  rw [phase] at phases
  generalize other.phase = phase' at phases ⊢
  cases phases with
  | stale waits => exact ⟨_, rfl, waits⟩

theorem to_stale {flight' : Nat} {soft : Deadline} {fallback : V} (phase : other.phase = .stale flight' soft fallback) :
    ∃ flight, call.phase = .stale flight soft fallback ∧ flights flight flight' := by
  have phases := mirrors.phase
  rw [phase] at phases
  generalize call.phase = phase' at phases ⊢
  cases phases with
  | stale waits => exact ⟨_, rfl, waits⟩

theorem returned_iff {result : Except Failure V} {instant : Nat} :
    other.phase = .returned result instant ↔ call.phase = .returned result instant := by
  have phases := mirrors.phase
  generalize call.phase = phase, other.phase = phase' at phases
  cases phases <;> simp

theorem dropped_iff : other.phase = .dropped ↔ call.phase = .dropped := by
  have phases := mirrors.phase
  generalize call.phase = phase, other.phase = phase' at phases
  cases phases <;> simp

end Call.Mirrors

/-- A flight that changes in both caches in the same way still looks the same. -/
theorem Flight.Mirrors.change {flight other : Flight V} (mirrors : flight.Mirrors slots other)
    {change : Flight V → Flight V} (slot : ∀ flight : Flight V, (change flight).slot = flight.slot)
    (same : ∀ (flight : Flight V) (slot : Nat), change { flight with slot } = { change flight with slot }) :
    (change flight).Mirrors slots (change other) := by
  constructor
  · rw [slot, slot]
    exact mirrors.slot
  · rw [slot]
    exact (congrArg change mirrors.same).trans (same ..)

end

namespace Cache

namespace Mirrors

variable {key : String} {heard : Nat → Prop} {cache part : Cache V} {slot slot' flight flight' call call' : Nat}

/-- Counts and the keys' dates are of no interest. -/
theorem of_frame {next part' : Cache V} (mirrors : Mirrors key heard cache part) (clock : next.clock = cache.clock)
    (keys : next.keys = cache.keys) (slots : next.slots = cache.slots) (flights : next.flights = cache.flights)
    (calls : next.calls = cache.calls) (clock' : part'.clock = part.clock) (room : part'.maxEntries = part.maxEntries)
    (keys' : part'.keys = part.keys) (slots' : part'.slots = part.slots) (flights' : part'.flights = part.flights)
    (calls' : part'.calls = part.calls) : Mirrors key heard next part' := by
  obtain ⟨_, _, _, _, _, _, _, _⟩ := next
  obtain ⟨_, _, _, _, _, _, _, _⟩ := part'
  subst clock keys slots flights calls clock' room keys' slots' flights' calls'
  exact ⟨mirrors.clock, mirrors.room, mirrors.keys, mirrors.slots, mirrors.flights, mirrors.calls, mirrors.deadlines⟩

theorem count (mirrors : Mirrors key heard cache part) (change change' : CacheStats → CacheStats) :
    Mirrors key heard (cache.count change) (part.count change') :=
  mirrors.of_frame rfl rfl rfl rfl rfl rfl rfl rfl rfl rfl rfl

/-- A scope is made in both caches. -/
theorem scope (mirrors : Mirrors key heard cache part) (parent : Option Token) {next part' : Cache V}
    (step : cache.step? (.scope parent) = some next) (step' : part.step? (.scope parent) = some part') :
    Mirrors key heard next part' := by
  cases parent with
  | none =>
    cases step
    cases step'
    exact ⟨mirrors.clock.issue rfl rfl rfl rfl rfl rfl fun _ => .inl, mirrors.room, mirrors.keys, mirrors.slots,
      mirrors.flights, mirrors.calls, mirrors.deadlines⟩
  | some parent =>
    cases step
    cases step'
    exact ⟨mirrors.clock.issue rfl rfl rfl rfl rfl rfl fun _ => .inl, mirrors.room, mirrors.keys, mirrors.slots,
      mirrors.flights, mirrors.calls, mirrors.deadlines⟩

theorem slotAt_modifySlot {place other : Nat} (points : SlotAt key cache place other) (slot : Nat)
    (change : Slot V → Slot V) (same : ∀ found, (change found).key = found.key) :
    SlotAt key (cache.modifySlot slot change) place other :=
  points.modify (fun found => by simp only [Slot.isOf, same]) slot

theorem modifySlot (mirrors : Mirrors key heard cache part) (points : SlotAt key cache slot slot')
    (change change' : Slot V → Slot V) (same : ∀ found, (change found).key = found.key)
    (pair : ∀ found other, found.Mirrors (FlightAt key cache) other →
      (change found).Mirrors (FlightAt key cache) (change' other)) :
    Mirrors key heard (cache.modifySlot slot change) (part.modifySlot slot' change') := by
  have own : ∀ found : Slot V, (change found).isOf key = found.isOf key := fun found => by
    simp only [Slot.isOf, same]
  have kept : ∀ place other, SlotAt key cache place other → SlotAt key (cache.modifySlot slot change) place other :=
    fun _ _ at' => slotAt_modifySlot at' slot change same
  refine ⟨mirrors.clock, mirrors.room, ?_, ?_, ?_, ?_, mirrors.deadlines⟩
  · rcases mirrors.keys with absent | ⟨place, other, known, only, at'⟩
    · exact .inl absent
    · exact .inr ⟨place, other, known, only, kept _ _ at'⟩
  · exact mirrors.slots.modify points own fun found other _ _ => pair found other
  · exact mirrors.flights.mono fun _ _ _ _ mirrored => mirrored.mono kept
  · exact mirrors.calls.mono fun _ _ _ _ mirrored => mirrored.mono kept fun _ _ => id

/-- A flight is concerned with no other scopes after a change. -/
theorem concerns_modifyFlight {scope number : Nat} {flights : Array (Flight V)} {calls : Array (Call V)}
    {change : Flight V → Flight V} (same : ∀ flight, (change flight).isOf key = flight.isOf key)
    (token : ∀ flight, (change flight).token = flight.token)
    (concerns : Concerns key heard (flights.modify number change) calls scope) :
    Concerns key heard flights calls scope := by
  cases concerns with
  | heard own => exact .heard own
  | flight present own within =>
    obtain ⟨before, there, ⟨_, rfl⟩ | ⟨_, rfl⟩⟩ := getElem?_modify_cases present
    · exact .flight there own within
    · exact .flight there ((same before).symm.trans own) (token before ▸ within)
  | soft present own phase within => exact .soft present own phase within

theorem flightAt_modifyFlight {place other : Nat} (points : FlightAt key cache place other) (number : Nat)
    (change : Flight V → Flight V) (same : ∀ found, (change found).key = found.key) :
    FlightAt key (cache.modifyFlight number change) place other :=
  points.modify (fun found => by simp only [Flight.isOf, same]) number

theorem modifyFlight (mirrors : Mirrors key heard cache part) (points : FlightAt key cache flight flight')
    {change : Flight V → Flight V} (keySame : ∀ found, (change found).key = found.key)
    (slotSame : ∀ found, (change found).slot = found.slot) (token : ∀ found, (change found).token = found.token)
    (same : ∀ (found : Flight V) (slot : Nat), change { found with slot } = { change found with slot }) :
    Mirrors key heard (cache.modifyFlight flight change) (part.modifyFlight flight' change) := by
  have own : ∀ found : Flight V, (change found).isOf key = found.isOf key := fun found => by
    simp only [Flight.isOf, keySame]
  have kept : ∀ place other, FlightAt key cache place other →
      FlightAt key (cache.modifyFlight flight change) place other :=
    fun _ _ at' => flightAt_modifyFlight at' flight change keySame
  refine ⟨?_, mirrors.room, mirrors.keys, ?_, ?_, ?_, mirrors.deadlines⟩
  · exact mirrors.clock.mono fun _ => concerns_modifyFlight own token
  · exact mirrors.slots.mono fun _ _ _ _ mirrored => mirrored.mono kept
  · exact mirrors.flights.modify points own fun _ _ _ _ mirrored => mirrored.change slotSame same
  · exact mirrors.calls.mono fun _ _ _ _ mirrored => mirrored.mono (fun _ _ => id) kept

/-- A call that ends has no more to do with the scope of its soft bound. -/
theorem retire (mirrors : Mirrors key heard cache part) {number number' : Nat}
    (points : Points (Call.isOf key) cache.calls number number') {phase : CallPhase V}
    (ended : ∀ flights : Nat → Nat → Prop, phase.Mirrors flights phase)
    (past : ∀ waited soft fallback, phase ≠ .stale waited soft fallback) :
    Mirrors key heard (cache.modifyCall number fun call => { call with phase })
      (part.modifyCall number' fun call => { call with phase }) := by
  refine ⟨?_, mirrors.room, mirrors.keys, mirrors.slots, mirrors.flights, ?_, ?_⟩
  · refine mirrors.clock.mono fun scope concerns => ?_
    cases concerns with
    | heard own => exact .heard own
    | flight present own within => exact .flight present own within
    | soft present own phase within =>
      obtain ⟨before, there, ⟨_, rfl⟩ | ⟨_, rfl⟩⟩ := getElem?_modify_cases present
      · exact .soft there own phase within
      · exact absurd phase (past _ _ _)
  · have same : ∀ call : Call V, ({ call with phase } : Call V).isOf key = call.isOf key := fun _ => rfl
    have ends : ∀ found other : Call V, found.Mirrors (SlotAt key cache) (FlightAt key cache) other →
        ({ found with phase } : Call V).Mirrors (SlotAt key cache) (FlightAt key cache) { other with phase } := by
      refine fun found other mirrored => ⟨mirrored.slot, ended _, ?_⟩
      rw [mirrored.same]
    exact mirrors.calls.modify points same fun found other _ _ => ends found other
  · intro n call present own
    obtain ⟨before, there, ⟨_, rfl⟩ | ⟨_, rfl⟩⟩ := getElem?_modify_cases present
    · exact mirrors.deadlines n call there own
    · exact mirrors.deadlines n before there own

/-- A call is put down in both caches. -/
theorem addCall (mirrors : Mirrors key heard cache part) {call call' : Call V} (own : call.isOf key = true)
    (pair : call.Mirrors (SlotAt key cache) (FlightAt key cache) call')
    (heeds : ∀ scope ∈ call.deadline.token.lineage, heard scope)
    (soft : ∀ waited soft fallback, call.phase = .stale waited soft fallback → ∀ scope ∈ soft.token.lineage,
      heard scope ∨ scope ∉ cache.clock.scopes.cancelled) :
    Mirrors key heard (cache.addCall call).2 (part.addCall call').2 := by
  refine ⟨?_, mirrors.room, mirrors.keys, mirrors.slots, mirrors.flights, mirrors.calls.push own pair, ?_⟩
  · obtain ⟨now, issued, bounded, fewer, enough⟩ := mirrors.clock
    refine ⟨now, issued, bounded, fewer, fun scope concerns member => ?_⟩
    cases concerns with
    | heard own => exact enough scope (.heard own) member
    | flight present own within => exact enough scope (.flight present own within) member
    | soft present own phase within =>
      rcases getElem?_push_cases present with ⟨_, old⟩ | ⟨_, rfl⟩
      · exact enough scope (.soft old own phase within) member
      · rcases soft _ _ _ phase scope within with own | new
        · exact enough scope (.heard own) member
        · exact absurd member new
  · intro n found present own
    rcases getElem?_push_cases present with ⟨_, old⟩ | ⟨_, rfl⟩
    · exact mirrors.deadlines n found old own
    · exact heeds

/-- A key without a slot gets one in both caches. -/
theorem openSlot (mirrors : Mirrors key heard cache part) (absent : cache.keys.lookup key = none)
    (access access' : Nat) :
    Mirrors key heard
        { cache with
          keys := cache.keys ++ [(key, cache.slots.size)]
          slots := cache.slots.push { key, lastAccess := access } }
        { part with
          keys := part.keys ++ [(key, part.slots.size)]
          slots := part.slots.push { key, lastAccess := access' } } ∧
      Points (Slot.isOf key) (cache.slots.push { key, lastAccess := access }) cache.slots.size part.slots.size := by
  have own : ({ key, lastAccess := access } : Slot V).isOf key = true := beq_self_eq_true key
  have opened : Points (Slot.isOf key) (cache.slots.push { key, lastAccess := access }) cache.slots.size
      part.slots.size :=
    mirrors.slots.size ▸ .push_self own
  have kept : ∀ place other, SlotAt key cache place other →
      Points (Slot.isOf key) (cache.slots.push { key, lastAccess := access }) place other :=
    fun _ _ at' => at'.push _
  refine ⟨⟨mirrors.clock, mirrors.room, .inr ⟨_, _, ?_, ?_, opened⟩, ?_, ?_, ?_, mirrors.deadlines⟩, opened⟩
  · simp [List.lookup_append, absent]
  · rcases mirrors.keys with ⟨_, none⟩ | ⟨slot, _, known, _, _⟩
    · simp [none]
    · rw [absent] at known
      contradiction
  · exact mirrors.slots.push own ⟨rfl, .none, .none, rfl⟩
  · exact mirrors.flights.mono fun _ _ _ _ mirrored => mirrored.mono kept
  · exact mirrors.calls.mono fun _ _ _ _ mirrored => mirrored.mono kept fun _ _ => id

/-- A flight of the key is added in both caches. -/
theorem pushFlight (mirrors : Mirrors key heard cache part) (points : SlotAt key cache slot slot') (new new' : Flight V)
    (own : new.isOf key = true) (at' : new.slot = slot) (same : new' = { new with slot := slot' })
    (token : new.token = cache.clock.freshToken.1) :
    Mirrors key heard { cache with clock := cache.clock.freshToken.2, flights := cache.flights.push new }
        { part with clock := part.clock.freshToken.2, flights := part.flights.push new' } ∧
      Points (Flight.isOf key) (cache.flights.push new) cache.flights.size part.flights.size := by
  have kept : ∀ place other, FlightAt key cache place other →
      Points (Flight.isOf key) (cache.flights.push new) place other :=
    fun _ _ at' => at'.push _
  refine ⟨⟨?_, mirrors.room, mirrors.keys, ?_, ?_, ?_, mirrors.deadlines⟩, mirrors.flights.size ▸ .push_self own⟩
  · refine mirrors.clock.issue rfl rfl rfl rfl rfl rfl fun scope concerns => ?_
    cases concerns with
    | heard own => exact .inl (.heard own)
    | flight present own within =>
      rcases getElem?_push_cases present with ⟨_, old⟩ | ⟨_, rfl⟩
      · exact .inl (.flight old own within)
      · rw [token] at within
        exact .inr (List.mem_singleton.mp within)
    | soft present own phase within => exact .inl (.soft present own phase within)
  · exact mirrors.slots.mono fun _ _ _ _ mirrored => mirrored.mono kept
  · refine mirrors.flights.push own ?_
    subst at' same
    exact ⟨points, rfl⟩
  · exact mirrors.calls.mono fun _ _ _ _ mirrored => mirrored.mono (fun _ _ => id) kept

theorem launch (mirrors : Mirrors key heard cache part) (points : SlotAt key cache slot slot') (policy : Policy)
    (trigger : Trigger) (waiters : Nat) :
    Mirrors key heard (cache.launch key slot policy trigger waiters).2
        (part.launch key slot' policy trigger waiters).2 ∧
      FlightAt key (cache.launch key slot policy trigger waiters).2 (cache.launch key slot policy trigger waiters).1
        (part.launch key slot' policy trigger waiters).1 := by
  let new : Flight V :=
    { key, slot, policy, trigger, token := cache.clock.freshToken.1, waiters, detached := trigger != .cold
      launchedAt := cache.clock.now }
  have token : part.clock.freshToken.1 = cache.clock.freshToken.1 := by
    simp only [Clock.freshToken, Scopes.fresh, mirrors.clock.issued]
  have own : new.isOf key = true := beq_self_eq_true key
  obtain ⟨pushed, launched⟩ := mirrors.pushFlight points new _ own rfl rfl rfl
  have installed := pushed.modifySlot points (fun slot => { slot with flight := some cache.flights.size })
    (fun slot => { slot with flight := some part.flights.size }) (fun _ => rfl)
    fun _ _ mirrored => ⟨mirrored.key, mirrored.entry, .some launched, mirrored.lastRefresh⟩
  have same : (part.launch key slot' policy trigger waiters).2.flights = part.flights.push { new with slot := slot' } := by
    have now : part.clock.freshToken.2.now = cache.clock.now := mirrors.clock.now
    simp only [Cache.launch, Cache.count, Cache.modifySlot, now, token, new]
  exact ⟨installed.of_frame rfl rfl rfl rfl rfl rfl rfl rfl rfl same rfl, launched⟩

theorem slotAt_launch {place other : Nat} (points : SlotAt key cache place other) (slot : Nat) (policy : Policy)
    (trigger : Trigger) (waiters : Nat) :
    SlotAt key (cache.launch key slot policy trigger waiters).2 place other :=
  slotAt_modifySlot points slot (fun slot => { slot with flight := some cache.flights.size }) fun _ => rfl

/-- Both caches have the slot. -/
theorem slotAt (mirrors : Mirrors key heard cache part) (points : SlotAt key cache slot slot') :
    ∃ found other, cache.slots[slot]? = some found ∧ part.slots[slot']? = some other ∧ found.key = key ∧
      found.Mirrors (FlightAt key cache) other := by
  obtain ⟨found, other, present, own, present', mirrored⟩ := mirrors.slots.found points
  exact ⟨found, other, present, present', of_decide_eq_true own, mirrored⟩

/-- Both caches have the flight. -/
theorem flightAt (mirrors : Mirrors key heard cache part) (points : FlightAt key cache flight flight') :
    ∃ found slot, cache.flights[flight]? = some found ∧ part.flights[flight']? = some { found with slot } ∧
      found.key = key ∧ SlotAt key cache found.slot slot := by
  obtain ⟨found, other, present, own, present', mirrored⟩ := mirrors.flights.found points
  exact ⟨found, other.slot, present, mirrored.same ▸ present', of_decide_eq_true own, mirrored.slot⟩

theorem entryOf (mirrors : Mirrors key heard cache part) (points : SlotAt key cache slot slot') :
    Option.Rel Entry.Mirrors (cache.entryOf slot) (part.entryOf slot') := by
  obtain ⟨found, other, present, present', _, mirrored⟩ := mirrors.slotAt points
  simp only [Cache.entryOf, present, present', Option.bind_some]
  exact mirrored.entry

theorem isIdle (mirrors : Mirrors key heard cache part) (points : SlotAt key cache slot slot') :
    part.isIdle slot' = cache.isIdle slot := by
  obtain ⟨found, other, present, present', _, mirrored⟩ := mirrors.slotAt points
  simp only [Cache.isIdle, present, present']
  have installed := mirrored.flight
  generalize found.flight = number, other.flight = number' at installed
  cases installed <;> rfl

theorem isSpent (mirrors : Mirrors key heard cache part) (points : SlotAt key cache slot slot') :
    part.isSpent slot' = cache.isSpent slot := by
  have entries := mirrors.entryOf points
  unfold Cache.isSpent
  rw [mirrors.clock.now]
  generalize cache.entryOf slot = found, part.entryOf slot' = other at entries
  cases entries with
  | none => rfl
  | some mirrored =>
    rw [mirrored]
    rfl

theorem isThrottled (mirrors : Mirrors key heard cache part) (points : SlotAt key cache slot slot') (policy : Policy) :
    part.isThrottled slot' policy = cache.isThrottled slot policy := by
  obtain ⟨found, other, present, present', _, mirrored⟩ := mirrors.slotAt points
  simp only [Cache.isThrottled, present, present', Option.bind_some, mirrored.lastRefresh, mirrors.clock.now]

theorem liveFlight? (mirrors : Mirrors key heard cache part) (points : SlotAt key cache slot slot') :
    Option.Rel (FlightAt key cache) (cache.liveFlight? slot) (part.liveFlight? slot') := by
  obtain ⟨found, other, present, present', _, mirrored⟩ := mirrors.slotAt points
  simp only [Cache.liveFlight?, present, present', Option.bind_eq_bind, Option.bind_some]
  have installed := mirrored.flight
  generalize found.flight = number, other.flight = number' at installed
  cases installed with
  | none => exact .none
  | @some number number' at' =>
    obtain ⟨flight, _, there, there', own, _⟩ := mirrors.flightAt at'
    have same : part.clock.isCancelled flight.token = cache.clock.isCancelled flight.token :=
      mirrors.clock.isCancelled fun _ => .flight there (decide_eq_true own)
    simp only [Option.bind_some, there, there', same]
    split
    · exact .none
    · exact .some at'

/-- A flight tells its callers the same. -/
theorem resultOf (mirrors : Mirrors key heard cache part) (points : FlightAt key cache flight flight') :
    part.resultOf flight' = cache.resultOf flight := by
  obtain ⟨found, _, present, present', _, _⟩ := mirrors.flightAt points
  simp only [Cache.resultOf, present, present']

theorem cancel (mirrors : Mirrors key heard cache part) {token : Token}
    (known : ∀ scope ∈ token.lineage, scope < cache.clock.scopes.issued) :
    Mirrors key heard { cache with clock := cache.clock.cancel token } { part with clock := part.clock.cancel token } :=
  ⟨mirrors.clock.cancel known, mirrors.room, mirrors.keys, mirrors.slots, mirrors.flights, mirrors.calls,
    mirrors.deadlines⟩

theorem join (mirrors : Mirrors key heard cache part) (points : FlightAt key cache flight flight') :
    Mirrors key heard (cache.join flight) (part.join flight') :=
  mirrors.modifyFlight points (fun _ => rfl) (fun _ => rfl) (fun _ => rfl) fun _ _ => rfl

theorem detach (mirrors : Mirrors key heard cache part) (points : FlightAt key cache flight flight') :
    Mirrors key heard (cache.detach flight) (part.detach flight') :=
  mirrors.modifyFlight points (fun _ => rfl) (fun _ => rfl) (fun _ => rfl) fun _ _ => rfl

/-- A caller leaves the flight, whose scope is known if that may cancel it. -/
theorem leave (mirrors : Mirrors key heard cache part) (points : FlightAt key cache flight flight')
    (known : ∀ found, cache.flights[flight]? = some found → found.detached = false →
      ∀ scope ∈ found.token.lineage, scope < cache.clock.scopes.issued) :
    Mirrors key heard (cache.leave flight) (part.leave flight') := by
  obtain ⟨found, _, present, present', _, _⟩ := mirrors.flightAt points
  have counted : Mirrors key heard (cache.modifyFlight flight fun flight => { flight with waiters := flight.waiters - 1 })
      (part.modifyFlight flight' fun flight => { flight with waiters := flight.waiters - 1 }) :=
    mirrors.modifyFlight points (fun _ => rfl) (fun _ => rfl) (fun _ => rfl) fun _ _ => rfl
  unfold Cache.leave
  simp only [present, present']
  split
  · next last =>
    simp only [Bool.and_eq_true, Bool.not_eq_true'] at last
    exact counted.cancel (known found present last.2)
  · exact counted

/-- The key is dropped from both caches. -/
theorem dropKey (mirrors : Mirrors key heard cache part) :
    Mirrors key heard (cache.dropKey key) (part.dropKey key) := by
  refine ⟨mirrors.clock, mirrors.room, .inl ⟨lookup_dropKey_self cache key, ?_⟩, mirrors.slots, mirrors.flights,
    mirrors.calls, mirrors.deadlines⟩
  rcases mirrors.keys with ⟨_, none⟩ | ⟨_, _, _, only, _⟩
  · simp [Cache.dropKey, none]
  · simp [Cache.dropKey, only]

end Mirrors

end Cache

end HedgedForecast
