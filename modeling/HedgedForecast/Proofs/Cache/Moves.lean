import HedgedForecast.Proofs.Cache.Runs
import Mathlib.Logic.Relation

/-! # The small moves of a call

A call that begins, takes its turn or is given up changes the cache by a few small moves, each with
the condition under which it is made. Between two of them the caller may hold an interest in a flight
that is counted there, but that no waiting call stands for yet or any more; these interests are
listed beside the cache. What all moves keep, every call keeps.
-/

namespace HedgedForecast

/-- The flight that a call waits for. -/
def Call.flight? {V : Type} (call : Call V) : Option Nat :=
  match call.phase with
  | .cold flight => some flight
  | .stale flight _ _ => some flight
  | _ => none

namespace Cache

variable {V : Type}

/-- A cache and the flights in which an unfinished call still holds an interest. -/
abbrev Stage (V : Type) := Cache V × List Nat

/-- A slot with other contents, but the same key and flight. -/
def Amends (change : Slot V → Slot V) : Prop :=
  ∀ slot, (change slot).key = slot.key ∧ (change slot).flight = slot.flight

/-- One change that a call makes. -/
inductive Move : Stage V → Stage V → Prop
  | count {cache : Cache V} {held : List Nat} (change : CacheStats → CacheStats) :
      Move (cache, held) (cache.count change, held)
  | tick {cache : Cache V} {held : List Nat} (tick : Nat) : Move (cache, held) ({ cache with tick }, held)
  | clock {cache : Cache V} {held : List Nat} (parent : Token) :
      Move (cache, held) ({ cache with clock := (cache.clock.childToken parent).2 }, held)
  /-- A key without a flight is dropped. -/
  | evict {cache : Cache V} {held : List Nat} {key : String} {slot : Nat}
      (present : (key, slot) ∈ cache.keys) (idle : cache.isIdle slot = true) :
      Move (cache, held) (cache.dropKey key, held)
  | openSlot {cache : Cache V} {held : List Nat} {key : String} (access : Nat)
      (absent : cache.keys.lookup key = none) :
      Move (cache, held)
        ({ cache with
            keys := cache.keys ++ [(key, cache.slots.size)]
            slots := cache.slots.push { key, lastAccess := access } }, held)
  | amend {cache : Cache V} {held : List Nat} (slot : Nat) {change : Slot V → Slot V}
      (amends : Amends change) : Move (cache, held) (cache.modifySlot slot change, held)
  /-- A flight is launched where there is none that is not cancelled. Nobody waits for it yet
  only if it needs nobody. -/
  | launch {cache : Cache V} {held : List Nat} {key : String} {slot : Nat} (policy : Policy)
      {trigger : Trigger} (waiters : Nat) (known : cache.keys.lookup key = some slot)
      (vacant : cache.liveFlight? slot = none) (wanted : waiters = 0 → trigger ≠ .cold) :
      Move (cache, held)
        ((cache.launch key slot policy trigger waiters).2,
          List.replicate waiters cache.flights.size ++ held)
  | join {cache : Cache V} {held : List Nat} {slot flight : Nat}
      (live : cache.liveFlight? slot = some flight) :
      Move (cache, held) (cache.join flight, flight :: held)
  | detach {cache : Cache V} {held : List Nat} {flight : Nat} (holding : flight ∈ held) :
      Move (cache, held) (cache.detach flight, held)
  | leave {cache : Cache V} {held : List Nat} (flight : Nat) :
      Move (cache, flight :: held) (cache.leave flight, held)
  /-- A call that is served at once is put down. -/
  | serve {cache : Cache V} {held : List Nat} {call : Call V} (served : call.flight? = none) :
      Move (cache, held) ((cache.addCall call).2, held)
  /-- A call that waits is put down and stands for its interest from now on. -/
  | await {cache : Cache V} {held : List Nat} {call : Call V} {flight : Nat}
      (waiting : call.flight? = some flight) :
      Move (cache, flight :: held) ((cache.addCall call).2, held)
  /-- A call no longer waits and is left with its interest. -/
  | retire {cache : Cache V} {held : List Nat} {number flight : Nat} {call : Call V} (phase : CallPhase V)
      (present : cache.calls[number]? = some call) (waiting : call.flight? = some flight)
      (ended : ({ call with phase } : Call V).flight? = none) :
      Move (cache, held) (cache.modifyCall number fun call => { call with phase }, flight :: held)

/-- Any number of moves. -/
abbrev Moves (V : Type) := Relation.ReflTransGen (Move (V := V))

theorem Moves.invariant {property : Stage V → Prop} {source target : Stage V} (moves : Moves V source target)
    (kept : ∀ before after, property before → Move before after → property after)
    (initial : property source) : property target := by
  induction moves with
  | refl => exact initial
  | tail _ move ih => exact kept _ _ ih move

private theorem Moves.one {source target : Stage V} (move : Move source target) : Moves V source target :=
  .single move

theorem mem_of_lookup {keys : List (String × Nat)} {key : String} {slot : Nat} (known : keys.lookup key = some slot) :
    (key, slot) ∈ keys := by
  obtain ⟨before, after, rfl, _⟩ := List.lookup_eq_some_iff.mp known
  exact List.mem_append_right _ (List.mem_cons_self ..)

private theorem foldl_lessRecent_mem (cache : Cache V) (keys : List (String × Nat)) (best : Option (String × Nat))
    {found : String × Nat} (result : keys.foldl cache.lessRecent best = some found) :
    best = some found ∨ found ∈ keys := by
  induction keys generalizing best with
  | nil => exact .inl result
  | cons key keys ih =>
    rcases ih _ result with head | tail
    · cases best with
      | none => exact .inr (Option.some.inj head ▸ List.mem_cons_self ..)
      | some other =>
        simp only [lessRecent] at head
        split at head
        · exact .inr (Option.some.inj head ▸ List.mem_cons_self ..)
        · exact .inl head
    · exact .inr (List.mem_cons_of_mem _ tail)

/-- The least recently called key without a flight is a key without a flight. -/
theorem victim?_spec {cache : Cache V} {key : String} {slot : Nat} (victim : cache.victim? = some (key, slot)) :
    (key, slot) ∈ cache.keys ∧ cache.isIdle slot = true := by
  rcases foldl_lessRecent_mem cache _ none victim with absurd | member
  · contradiction
  · exact List.mem_filter.mp member

/-- The cache without the key, which counts as evicted. -/
def evict (cache : Cache V) (key : String) : Cache V :=
  (cache.dropKey key).count fun stats => { stats with evictions := stats.evictions + 1 }

theorem evict_moves {cache : Cache V} {key : String} {slot : Nat} (present : (key, slot) ∈ cache.keys)
    (idle : cache.isIdle slot = true) (held : List Nat) : Moves V (cache, held) (cache.evict key, held) :=
  (Moves.one (.evict present idle)).tail (.count _)

/-- A full cache makes room by evicting its victim. -/
theorem makeRoom_cases (cache : Cache V) :
    cache.makeRoom = cache ∧ (cache.keys.length < cache.maxEntries ∨ cache.victim? = none) ∨
      ∃ key slot, cache.maxEntries ≤ cache.keys.length ∧ cache.victim? = some (key, slot) ∧
        cache.makeRoom = cache.evict key := by
  unfold makeRoom
  split
  · next full =>
    cases victim : cache.victim? with
    | none => exact .inl ⟨rfl, .inr rfl⟩
    | some found => exact .inr ⟨found.1, found.2, full, rfl, rfl⟩
  · next room => exact .inl ⟨rfl, .inl (Nat.lt_of_not_le room)⟩

theorem makeRoom_moves (cache : Cache V) (held : List Nat) : Moves V (cache, held) (cache.makeRoom, held) := by
  rcases makeRoom_cases cache with ⟨same, _⟩ | ⟨key, slot, _, victim, same⟩
  · rw [same]
  · obtain ⟨present, idle⟩ := victim?_spec victim
    rw [same]
    exact evict_moves present idle held

theorem makeRoom_lookup (cache : Cache V) {key : String} (absent : cache.keys.lookup key = none) :
    cache.makeRoom.keys.lookup key = none := by
  rcases makeRoom_cases cache with ⟨same, _⟩ | ⟨other, slot, _, _, same⟩
  · rw [same]
    exact absent
  · rw [same]
    simp only [List.lookup_eq_none_iff] at absent ⊢
    exact fun pair member => absent pair (List.mem_filter.mp member).1

theorem touch_known {cache : Cache V} {key : String} {slot : Nat} (known : cache.keys.lookup key = some slot) :
    cache.touch key = (slot, { cache with tick := cache.tick + 1 }.modifySlot slot fun old =>
      { old with lastAccess := cache.tick }) := by
  simp only [touch, known]

theorem touch_absent {cache : Cache V} {key : String} (absent : cache.keys.lookup key = none) :
    cache.touch key =
      let room := { cache with tick := cache.tick + 1 }.makeRoom
      (room.slots.size, { room with
        keys := room.keys ++ [(key, room.slots.size)]
        slots := room.slots.push { key, lastAccess := cache.tick } }) := by
  simp only [touch, absent]

/-- A call finds or makes the slot of its key. -/
theorem touch_moves (cache : Cache V) (key : String) (held : List Nat) :
    Moves V (cache, held) ((cache.touch key).2, held) := by
  have ticked : Moves V (cache, held) ({ cache with tick := cache.tick + 1 }, held) := .single (.tick _)
  cases known : cache.keys.lookup key with
  | some slot =>
    rw [touch_known known]
    exact ticked.tail (.amend slot fun _ => ⟨rfl, rfl⟩)
  | none =>
    rw [touch_absent known]
    have room := makeRoom_moves { cache with tick := cache.tick + 1 } held
    exact (ticked.trans room).tail (.openSlot cache.tick (makeRoom_lookup _ known))

theorem lookup_touch (cache : Cache V) (key : String) :
    (cache.touch key).2.keys.lookup key = some (cache.touch key).1 := by
  cases known : cache.keys.lookup key with
  | some slot => rw [touch_known known]; exact known
  | none =>
    have absent := makeRoom_lookup { cache with tick := cache.tick + 1 } known
    simp [touch_absent known, List.lookup_append, absent]

theorem join_flights (cache : Cache V) (number : Nat) :
    (cache.join number).flights =
      cache.flights.modify number fun flight => { flight with waiters := flight.waiters + 1 } := rfl

theorem detach_flights (cache : Cache V) (number : Nat) :
    (cache.detach number).flights =
      cache.flights.modify number fun flight => { flight with detached := true } := rfl

/-- Leaving a flight takes a waiter from it and does no more than to cancel a scope. -/
theorem leave_eq (cache : Cache V) (number : Nat) :
    ∃ clock, (clock = cache.clock ∨ ∃ token, clock = cache.clock.cancel token) ∧
      cache.leave number =
        { cache.modifyFlight number fun flight => { flight with waiters := flight.waiters - 1 } with clock } := by
  cases present : cache.flights[number]? with
  | none =>
    refine ⟨cache.clock, .inl rfl, ?_⟩
    simp only [leave, present, modifyFlight, modify_of_none _ present]
  | some flight =>
    simp only [leave, present]
    split
    · exact ⟨_, .inr ⟨flight.token, rfl⟩, rfl⟩
    · exact ⟨_, .inl rfl, rfl⟩

theorem leave_clock {cache : Cache V} {number : Nat} {flight : Flight V} (present : cache.flights[number]? = some flight) :
    (cache.leave number).clock =
      if flight.waiters ≤ 1 && !flight.detached then cache.clock.cancel flight.token else cache.clock := by
  simp only [leave, present]
  split <;> rfl

@[simp] theorem leave_clock_now (cache : Cache V) (number : Nat) :
    (cache.leave number).clock.now = cache.clock.now := by
  obtain ⟨clock, rfl | ⟨token, rfl⟩, same⟩ := cache.leave_eq number
  · rw [same]
  · rw [same]; rfl

@[simp] theorem leave_issued (cache : Cache V) (number : Nat) :
    (cache.leave number).clock.scopes.issued = cache.clock.scopes.issued := by
  obtain ⟨clock, rfl | ⟨token, rfl⟩, same⟩ := cache.leave_eq number
  · rw [same]
  · rw [same]; rfl

@[simp] theorem leave_keys (cache : Cache V) (number : Nat) : (cache.leave number).keys = cache.keys := by
  obtain ⟨_, _, same⟩ := cache.leave_eq number
  rw [same]; rfl

@[simp] theorem leave_calls (cache : Cache V) (number : Nat) : (cache.leave number).calls = cache.calls := by
  obtain ⟨_, _, same⟩ := cache.leave_eq number
  rw [same]; rfl

@[simp] theorem leave_stats (cache : Cache V) (number : Nat) : (cache.leave number).stats = cache.stats := by
  obtain ⟨_, _, same⟩ := cache.leave_eq number
  rw [same]; rfl

theorem leave_flights (cache : Cache V) (number : Nat) :
    (cache.leave number).flights =
      cache.flights.modify number fun flight => { flight with waiters := flight.waiters - 1 } := by
  obtain ⟨_, _, same⟩ := cache.leave_eq number
  rw [same]; rfl

@[simp] theorem leave_flights_size (cache : Cache V) (number : Nat) :
    (cache.leave number).flights.size = cache.flights.size := by
  rw [leave_flights, Array.size_modify]

/-- A call takes no time. -/
theorem Moves.now {source target : Stage V} (moves : Moves V source target) :
    target.1.clock.now = source.1.clock.now := by
  refine @Moves.invariant V (fun stage => stage.1.clock.now = source.1.clock.now) _ _ moves ?_ rfl
  intro before after same move
  cases move with
  | leave flight => exact (leave_clock_now ..).trans same
  | _ => exact same

/-- The key has the slot, in which nothing is left that could be served or waited for. -/
structure Evictable (cache : Cache V) (key : String) (slot : Nat) : Prop where
  known : cache.keys.lookup key = some slot
  idle : cache.isIdle slot = true
  spent : cache.isSpent slot = true

/-- A caller who sees its computation fail evicts its key, or nothing. -/
theorem evictFailed_cases (cache : Cache V) (key : String) (slot : Nat) :
    cache.evictFailed key slot = cache ∨
      cache.Evictable key slot ∧ cache.evictFailed key slot = cache.evict key := by
  unfold evictFailed
  split
  · next conditions =>
    simp only [Bool.and_eq_true, beq_iff_eq] at conditions
    obtain ⟨⟨known, idle⟩, spent⟩ := conditions
    exact .inr ⟨⟨known, idle, spent⟩, rfl⟩
  · exact .inl rfl

/-- Whether a slot has a flight to join is not a matter of its other contents. -/
theorem liveFlight?_modifySlot (cache : Cache V) (slot other : Nat) {change : Slot V → Slot V}
    (amends : Amends change) : (cache.modifySlot other change).liveFlight? slot = cache.liveFlight? slot := by
  simp only [liveFlight?, modifySlot, Array.getElem?_modify]
  split
  · cases cache.slots[slot]? with
    | none => rfl
    | some found =>
      change ((change found).flight.bind _) = found.flight.bind _
      rw [(amends found).2]
      rfl
  · rfl

/-- One change that a call makes once it has found the slot of its key and has been counted. Keys and the other slots
are nothing to it. -/
inductive Stride (key : String) (slot : Nat) (policy : Policy) : Stage V → Stage V → Prop
  | mark {cache : Cache V} {held : List Nat} :
      Stride key slot policy (cache, held)
        (cache.modifySlot slot fun slot =>
          { slot with entry := slot.entry.map fun entry => { entry with refreshing := true } }, held)
  | date {cache : Cache V} {held : List Nat} :
      Stride key slot policy (cache, held)
        (cache.modifySlot slot fun slot => { slot with lastRefresh := some cache.clock.now }, held)
  | launch {cache : Cache V} {held : List Nat} {trigger : Trigger} (waiters : Nat)
      (vacant : cache.liveFlight? slot = none) (wanted : waiters = 0 → trigger ≠ .cold) :
      Stride key slot policy (cache, held)
        ((cache.launch key slot policy trigger waiters).2,
          List.replicate waiters cache.flights.size ++ held)
  | join {cache : Cache V} {held : List Nat} {flight : Nat} (live : cache.liveFlight? slot = some flight) :
      Stride key slot policy (cache, held) (cache.join flight, flight :: held)
  | detach {cache : Cache V} {held : List Nat} {flight : Nat} (holding : flight ∈ held) :
      Stride key slot policy (cache, held) (cache.detach flight, held)
  | leave {cache : Cache V} {held : List Nat} (flight : Nat) :
      Stride key slot policy (cache, flight :: held) (cache.leave flight, held)
  | clock {cache : Cache V} {held : List Nat} (parent : Token) :
      Stride key slot policy (cache, held) ({ cache with clock := (cache.clock.childToken parent).2 }, held)
  | serve {cache : Cache V} {held : List Nat} {call : Call V} (own : call.key = key) (served : call.flight? = none) :
      Stride key slot policy (cache, held) ((cache.addCall call).2, held)
  | await {cache : Cache V} {held : List Nat} {call : Call V} {flight : Nat} (own : call.key = key)
      (waiting : call.flight? = some flight) :
      Stride key slot policy (cache, flight :: held) ((cache.addCall call).2, held)

/-- Any number of strides. -/
abbrev Strides (key : String) (slot : Nat) (policy : Policy) : Stage V → Stage V → Prop :=
  Relation.ReflTransGen (Stride key slot policy)

section Strides

variable {key : String} {slot : Nat} {policy : Policy} {source target : Stage V}

theorem Stride.keys (stride : Stride key slot policy source target) : target.1.keys = source.1.keys := by
  cases stride with
  | leave flight => exact leave_keys ..
  | _ => rfl

/-- What relates the caches around each stride relates those around all of them. -/
theorem Strides.relate (strides : Strides key slot policy source target) (relation : Cache V → Cache V → Prop)
    (refl : ∀ cache, relation cache cache)
    (trans : ∀ {cache middle next}, relation cache middle → relation middle next → relation cache next)
    (stride : ∀ {before after : Stage V}, Stride key slot policy before after → relation before.1 after.1) :
    relation source.1 target.1 := by
  induction strides with
  | refl => exact refl _
  | tail _ last ih => exact trans ih (stride last)

theorem Strides.keys (strides : Strides key slot policy source target) : target.1.keys = source.1.keys :=
  strides.relate (fun cache next => next.keys = cache.keys) (fun _ => rfl) (fun first second => second.trans first)
    Stride.keys

/-- In the slot of a key the strides are small moves. -/
theorem Strides.moves (strides : Strides key slot policy source target)
    (known : source.1.keys.lookup key = some slot) : Moves V source target := by
  induction strides with
  | refl => exact .refl
  | tail before stride ih =>
    have known : _ = some slot := (congrArg (List.lookup key) (Strides.keys before)).trans known
    refine ih.tail ?_
    cases stride with
    | mark => exact .amend slot fun _ => ⟨rfl, rfl⟩
    | date => exact .amend slot fun _ => ⟨rfl, rfl⟩
    | launch waiters vacant wanted => exact .launch policy waiters known vacant wanted
    | join live => exact .join live
    | detach holding => exact .detach holding
    | leave flight => exact .leave flight
    | clock parent => exact .clock parent
    | serve _ served => exact .serve served
    | await _ waiting => exact .await waiting

end Strides

theorem refreshEagerly_strides (cache : Cache V) (key : String) (slot : Nat) (policy : Policy) :
    Strides key slot policy (cache, []) (cache.refreshEagerly key slot policy, []) := by
  have marked : Strides key slot policy (cache, []) (cache.modifySlot slot fun slot =>
      { slot with entry := slot.entry.map fun entry => { entry with refreshing := true } }, []) := .single .mark
  unfold refreshEagerly
  simp only
  split
  · exact marked
  · next vacant => exact marked.tail (.launch 0 (by simpa using vacant) fun _ => nofun)

/-- The flight that a holder of a stale value waits for is one that the caller holds an interest in. -/
theorem staleFlight?_strides (cache : Cache V) (key : String) (slot : Nat) (policy : Policy) :
    Strides key slot policy (cache, [])
      ((cache.staleFlight? key slot policy).2, (cache.staleFlight? key slot policy).1.toList) := by
  unfold staleFlight?
  cases live : cache.liveFlight? slot with
  | some flight => exact .single (.join live)
  | none =>
    simp only
    split
    · exact .refl
    · have amends : Amends fun slot : Slot V => { slot with lastRefresh := some cache.clock.now } :=
        fun _ => ⟨rfl, rfl⟩
      have dated : Strides key slot policy (cache, []) (cache.modifySlot slot fun slot =>
          { slot with lastRefresh := some cache.clock.now }, []) := .single .date
      exact dated.tail (.launch 1 ((liveFlight?_modifySlot cache slot slot amends).trans live) nofun)

theorem coldFlight_strides (cache : Cache V) (key : String) (slot : Nat) (policy : Policy) :
    Strides key slot policy (cache, [])
      ((cache.coldFlight key slot policy).2, [(cache.coldFlight key slot policy).1]) := by
  unfold coldFlight
  cases live : cache.liveFlight? slot with
  | some flight => exact .single (.join live)
  | none => exact .single (.launch 1 live nofun)

theorem beginHit_strides (cache : Cache V) (call : Call V) (entry : Entry V) :
    Strides call.key call.slot call.policy (cache.count fun stats => { stats with hits := stats.hits + 1 }, [])
      ((cache.beginHit call entry).2, []) := by
  unfold beginHit
  simp only
  refine .tail ?_ (.serve rfl rfl)
  split
  · exact refreshEagerly_strides ..
  · exact .refl

theorem beginStale_strides (cache : Cache V) (call : Call V) (entry : Entry V) :
    Strides call.key call.slot call.policy
      (cache.count fun stats => { stats with staleHits := stats.staleHits + 1 }, [])
      ((cache.beginStale call entry).2, []) := by
  have looked := staleFlight?_strides (cache.count fun stats => { stats with staleHits := stats.staleHits + 1 })
    call.key call.slot call.policy
  unfold beginStale
  simp only
  generalize staleFlight? _ _ _ _ = found at looked ⊢
  rcases found with ⟨_ | flight, next⟩
  · exact looked.tail (.serve rfl rfl)
  · simp only
    split
    · exact ((looked.tail (.detach (List.mem_singleton_self _))).tail (.leave flight)).tail (.serve rfl rfl)
    · exact (looked.tail (.clock call.deadline.token)).tail (.await rfl rfl)

theorem beginCold_strides (cache : Cache V) (call : Call V) :
    Strides call.key call.slot call.policy (cache.count fun stats => { stats with misses := stats.misses + 1 }, [])
      ((cache.beginCold call).2, []) :=
  (coldFlight_strides (cache.count _) call.key call.slot call.policy).tail (.await rfl rfl)

/-- A call is counted as a hit, a stale hit or a miss. -/
inductive CountsCall : (CacheStats → CacheStats) → Prop
  | hit : CountsCall fun stats => { stats with hits := stats.hits + 1 }
  | stale : CountsCall fun stats => { stats with staleHits := stats.staleHits + 1 }
  | miss : CountsCall fun stats => { stats with misses := stats.misses + 1 }

/-- A call finds its slot, is counted, and goes on by strides. -/
theorem begin_strides (cache : Cache V) (key : String) (policy : Policy) (deadline : Deadline) :
    ∃ change, CountsCall change ∧ Strides key (cache.touch key).1 policy ((cache.touch key).2.count change, [])
      ((cache.begin key policy deadline).2, []) := by
  simp only [begin_eq]
  split
  · split
    · exact ⟨_, .hit, beginHit_strides _ { key, slot := (cache.touch key).1, policy, .. } _⟩
    · split
      · exact ⟨_, .stale, beginStale_strides _ { key, slot := (cache.touch key).1, policy, .. } _⟩
      · exact ⟨_, .miss, beginCold_strides _ { key, slot := (cache.touch key).1, policy, .. }⟩
  · exact ⟨_, .miss, beginCold_strides _ { key, slot := (cache.touch key).1, policy, .. }⟩

/-- A call begins by small moves and leaves no interest unaccounted for. -/
theorem begin_moves (cache : Cache V) (key : String) (policy : Policy) (deadline : Deadline) :
    Moves V (cache, []) ((cache.begin key policy deadline).2, []) := by
  obtain ⟨change, _, strides⟩ := begin_strides cache key policy deadline
  have counted := (touch_moves cache key []).tail (.count change)
  exact counted.trans (strides.moves (lookup_touch cache key))

/-- A caller who leaves a flight changes no call. -/
theorem leave_modifyCall (cache : Cache V) (flight number : Nat) (change : Call V → Call V) :
    (cache.leave flight).modifyCall number change = (cache.modifyCall number change).leave flight := by
  simp only [leave, modifyCall, modifyFlight]
  cases cache.flights[flight]? with
  | none => rfl
  | some found => simp only; split <;> rfl

theorem evictFailed_modifyCall (cache : Cache V) (key : String) (slot number : Nat) (change : Call V → Call V) :
    (cache.evictFailed key slot).modifyCall number change =
      (cache.modifyCall number change).evictFailed key slot := by
  unfold evictFailed
  rw [apply_ite (fun cache : Cache V => cache.modifyCall number change)]
  rfl

@[simp] theorem evictFailed_clock (cache : Cache V) (key : String) (slot : Nat) :
    (cache.evictFailed key slot).clock = cache.clock := by
  unfold evictFailed
  split <;> rfl

/-- A call without a value ends as if it first gave its answer and then left its flight. -/
theorem endCold_eq (cache : Cache V) (number : Nat) (call : Call V) (flight : Nat)
    (result : Except Failure V) :
    cache.endCold number call flight result =
      match result with
      | .ok value => (cache.returnCall number (.ok value)).leave flight
      | .error failure =>
        let left := (cache.returnCall number (.error (callerFailure failure))).leave flight
        if isCallerSide failure then left else left.evictFailed call.key call.slot := by
  cases result with
  | ok value => simp only [endCold, returnCall, leave_clock_now, leave_modifyCall]
  | error failure =>
    simp only [endCold]
    split
    · simp only [returnCall, leave_clock_now, leave_modifyCall]
    · simp only [returnCall, evictFailed_clock, leave_clock_now, evictFailed_modifyCall, leave_modifyCall]

/-- A call with a value to fall back on ends as if it first gave its answer and then left its flight. -/
theorem endStale_eq (cache : Cache V) (number : Nat) (call : Call V) (flight : Nat) (fallback : V)
    (result : Except Failure V) :
    cache.endStale number call flight fallback result =
      match result with
      | .ok value => (cache.returnCall number (.ok value)).leave flight
      | .error failure =>
        if failure == .cancelled && call.deadline.isCancelled cache.clock then
          (cache.returnCall number (.error .cancelled)).leave flight
        else ((cache.returnCall number (.ok fallback)).detach flight).leave flight := by
  cases result with
  | ok value => simp only [endStale, returnCall, leave_clock_now, leave_modifyCall]
  | error failure =>
    simp only [endStale, returnCall, leave_clock_now, leave_modifyCall]
    rfl

/-- The turn of a call, for either way of waiting. -/
theorem turnCall?_eq_some_iff {cache next : Cache V} {number : Nat} :
    cache.turnCall? number = some next ↔
      ∃ call, cache.calls[number]? = some call ∧
        ((∃ flight verdict, call.phase = .cold flight ∧
            call.deadline.verdict cache.clock (cache.resultOf flight) = some verdict ∧
            cache.endCold number call flight (waitResult verdict) = next) ∨
          ∃ flight soft fallback verdict, call.phase = .stale flight soft fallback ∧
            soft.verdict cache.clock (cache.resultOf flight) = some verdict ∧
            cache.endStale number call flight fallback (waitResult verdict) = next) := by
  unfold turnCall?
  cases cache.calls[number]? with
  | none => simp
  | some call => cases phase : call.phase <;> simp [phase, and_assoc]

/-- How a call ends that waited for a flight: it gives its answer and leaves the flight. Before that it may let the flight
go on without callers, and behind it evict the key of a computation that failed. -/
inductive Ending (cache : Cache V) (number : Nat) (call : Call V) (flight : Nat) : Cache V → Prop
  | left (answer : Except Failure V) : Ending cache number call flight ((cache.returnCall number answer).leave flight)
  | evicted (answer : Except Failure V)
      (evictable : ((cache.returnCall number answer).leave flight).Evictable call.key call.slot) :
      Ending cache number call flight (((cache.returnCall number answer).leave flight).evict call.key)
  | detached (answer : Except Failure V) :
      Ending cache number call flight (((cache.returnCall number answer).detach flight).leave flight)

theorem turnCall?_ending {cache next : Cache V} {number : Nat} (turn : cache.turnCall? number = some next) :
    ∃ call flight, cache.calls[number]? = some call ∧ call.flight? = some flight ∧
      Ending cache number call flight next := by
  obtain ⟨call, present, cold | stale⟩ := turnCall?_eq_some_iff.mp turn
  · obtain ⟨flight, verdict, phase, _, rfl⟩ := cold
    refine ⟨call, flight, present, by simp [Call.flight?, phase], ?_⟩
    rw [endCold_eq]
    cases waitResult verdict with
    | ok value => exact .left _
    | error failure =>
      simp only
      split
      · exact .left _
      · rcases evictFailed_cases ((cache.returnCall number (.error (callerFailure failure))).leave flight)
            call.key call.slot with same | ⟨evictable, same⟩
        · rw [same]
          exact .left _
        · rw [same]
          exact .evicted _ evictable
  · obtain ⟨flight, soft, fallback, verdict, phase, _, rfl⟩ := stale
    refine ⟨call, flight, present, by simp [Call.flight?, phase], ?_⟩
    rw [endStale_eq]
    cases waitResult verdict with
    | ok value => exact .left _
    | error failure =>
      simp only
      split
      · exact .left _
      · exact .detached _

theorem turnCall?_moves {cache next : Cache V} {number : Nat} (turn : cache.turnCall? number = some next) :
    Moves V (cache, []) (next, []) := by
  obtain ⟨call, flight, present, waits, ending⟩ := turnCall?_ending turn
  have answered (answer : Except Failure V) : Moves V (cache, []) (cache.returnCall number answer, [flight]) :=
    .one (.retire _ present waits rfl)
  cases ending with
  | left answer => exact (answered answer).tail (.leave flight)
  | evicted answer evictable =>
    exact ((answered answer).tail (.leave flight)).trans (evict_moves (mem_of_lookup evictable.known) evictable.idle _)
  | detached answer =>
    exact ((answered answer).tail (.detach (List.mem_singleton_self _))).tail (.leave flight)

/-- A caller who goes away leaves the flight that the call waits for, if any. -/
theorem dropCall_eq (cache : Cache V) (number : Nat) :
    cache.dropCall number = cache ∧ (∀ call, cache.calls[number]? = some call → call.flight? = none) ∨
      ∃ call flight, cache.calls[number]? = some call ∧ call.flight? = some flight ∧
        cache.dropCall number =
          (cache.modifyCall number fun call => { call with phase := .dropped }).leave flight := by
  cases present : cache.calls[number]? with
  | none => exact .inl ⟨by simp only [dropCall, present], nofun⟩
  | some call =>
    cases phase : call.phase with
    | cold flight =>
      refine .inr ⟨call, flight, rfl, by simp [Call.flight?, phase], ?_⟩
      simp only [dropCall, present, phase, leave_modifyCall]
    | stale flight soft fallback =>
      refine .inr ⟨call, flight, rfl, by simp [Call.flight?, phase], ?_⟩
      simp only [dropCall, present, phase, leave_modifyCall]
    | returned result instant =>
      exact .inl ⟨by simp only [dropCall, present, phase], by simp [Call.flight?, phase]⟩
    | dropped => exact .inl ⟨by simp only [dropCall, present, phase], by simp [Call.flight?, phase]⟩

theorem dropCall_moves (cache : Cache V) (number : Nat) : Moves V (cache, []) (cache.dropCall number, []) := by
  rcases dropCall_eq cache number with ⟨same, _⟩ | ⟨call, flight, present, waiting, left⟩
  · rw [same]
  · rw [left]
    exact (Moves.one (.retire .dropped present waiting rfl)).tail (.leave flight)

end Cache

end HedgedForecast
