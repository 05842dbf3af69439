import HedgedForecast.Proofs.Cache.Capacity

/-! # What events add to the counts

Every call that begins counts as one lookup, whatever it finds. A flight counts as a computation when it is
launched and, if it ends with anything but a value or a panic, as a failed refresh. A key is dropped in three
ways that count as an eviction and in one that does not, by being removed. All these counts are kept in different
places; here is what one event adds to each.
-/

namespace HedgedForecast

variable {V : Type}

/-- How many calls were counted, by what they found. -/
def CacheStats.lookups (stats : CacheStats) : Nat :=
  stats.hits + stats.staleHits + stats.misses

namespace Flight

/-- The computation has ended, and in this way. -/
def hasEnded (outcome : WorkOutcome) (flight : Flight V) : Bool :=
  flight.outcome == some outcome

end Flight

namespace Cache

/-- How many computations have ended in this way. -/
def ended (cache : Cache V) (outcome : WorkOutcome) : Nat :=
  cache.flights.countP (Flight.hasEnded outcome)

/-- How many computations are still to begin or to end. -/
def running (cache : Cache V) : Nat :=
  cache.flights.countP Flight.isRunning

/-- Between the two caches so many calls were counted and so many keys were made, and whatever was launched or
dropped was counted. No computation has failed. -/
structure Accrues (cache next : Cache V) (lookups created : Nat) : Prop where
  lookups : next.stats.lookups = cache.stats.lookups + lookups
  launches : next.stats.factoryCalls + cache.flights.size = cache.stats.factoryCalls + next.flights.size
  failures : next.stats.refreshFailures = cache.stats.refreshFailures
  keys : next.size + next.stats.evictions = cache.size + cache.stats.evictions + created
  slots : next.slots.size = cache.slots.size + created

namespace Accrues

variable {cache middle next : Cache V} {m n k l : Nat}

theorem trans (first : Accrues cache middle m k) (second : Accrues middle next n l) :
    Accrues cache next (m + n) (k + l) := by
  constructor
  · rw [second.lookups, first.lookups, Nat.add_assoc]
  · have launches := first.launches
    have launches' := second.launches
    omega
  · exact second.failures.trans first.failures
  · rw [second.keys, first.keys]
    omega
  · rw [second.slots, first.slots, Nat.add_assoc]

/-- It is enough that counts, keys and flights stay as they are. -/
theorem of_frame (stats : next.stats = cache.stats) (keys : next.keys = cache.keys)
    (slots : next.slots.size = cache.slots.size) (flights : next.flights.size = cache.flights.size) :
    Accrues cache next 0 0 := by
  constructor
  · rw [stats, Nat.add_zero]
  · rw [stats, flights]
  · rw [stats]
  · rw [stats, size, size, keys, Nat.add_zero]
  · exact slots

theorem refl (cache : Cache V) : Accrues cache cache 0 0 :=
  of_frame rfl rfl rfl rfl

theorem launch (cache : Cache V) (key : String) (slot : Nat) (policy : Policy) (trigger : Trigger) (waiters : Nat) :
    Accrues cache (cache.launch key slot policy trigger waiters).2 0 0 := by
  have counted : (cache.launch key slot policy trigger waiters).2.stats =
      { cache.stats with factoryCalls := cache.stats.factoryCalls + 1 } := rfl
  have grown : (cache.launch key slot policy trigger waiters).2.flights.size = cache.flights.size + 1 :=
    Array.size_push ..
  constructor
  · rw [counted]
    rfl
  · rw [counted, grown]
    exact Nat.add_right_comm ..
  · rw [counted]
  · rw [counted]
    rfl
  · exact Array.size_modify

theorem leave (cache : Cache V) (number : Nat) : Accrues cache (cache.leave number) 0 0 :=
  of_frame (leave_stats ..) (leave_keys ..) (congrArg Array.size (leave_slots ..)) (leave_flights_size ..)

theorem join (cache : Cache V) (number : Nat) : Accrues cache (cache.join number) 0 0 :=
  of_frame rfl rfl rfl Array.size_modify

theorem detach (cache : Cache V) (number : Nat) : Accrues cache (cache.detach number) 0 0 :=
  of_frame rfl rfl rfl Array.size_modify

theorem addCall (cache : Cache V) (call : Call V) : Accrues cache (cache.addCall call).2 0 0 :=
  of_frame rfl rfl rfl rfl

/-- A key that is dropped with notice is one eviction more and one key less. -/
theorem evict (placed : Placed cache) {key : String} {slot : Nat} (present : (key, slot) ∈ cache.keys) :
    Accrues cache (cache.evict key) 0 0 := by
  refine ⟨rfl, rfl, rfl, ?_, rfl⟩
  have dropped := placed.size_dropKey present
  change (cache.dropKey key).size + (cache.stats.evictions + 1) = cache.size + cache.stats.evictions + 0
  omega

theorem makeRoom (placed : Placed cache) : Accrues cache cache.makeRoom 0 0 := by
  rcases makeRoom_cases cache with ⟨same, _⟩ | ⟨key, slot, _, victim, same⟩
  · rw [same]
    exact refl cache
  · rw [same]
    exact evict placed (victim?_spec victim).1

/-- A call makes its key if it is not there. -/
theorem touch (placed : Placed cache) (key : String) :
    Accrues cache (cache.touch key).2 0 (if (cache.keys.lookup key).isSome then 0 else 1) := by
  cases known : cache.keys.lookup key with
  | some slot =>
    rw [touch_known known]
    exact of_frame rfl rfl Array.size_modify rfl
  | none =>
    have placed' : Placed { cache with tick := cache.tick + 1 } := placed.forget (.refl _) rfl rfl fun _ => id
    have room := makeRoom placed'
    rw [touch_absent known]
    refine ⟨room.lookups, room.launches, room.failures, ?_, (Array.size_push ..).trans (congrArg (· + 1) room.slots)⟩
    have counted := room.keys
    simp only [size, List.length_append, List.length_singleton, Option.isSome_none, Bool.false_eq_true, if_false]
      at counted ⊢
    omega

/-- A call that begins is counted once, whatever it finds. -/
theorem counted (cache : Cache V) {change : CacheStats → CacheStats} (counts : CountsCall change) :
    Accrues cache (cache.count change) 1 0 := by
  have lookups (stats : CacheStats) : (change stats).lookups = stats.lookups + 1 := by
    cases counts <;> simp only [CacheStats.lookups] <;> omega
  cases counts <;> exact ⟨lookups _, rfl, rfl, rfl, rfl⟩

theorem stride {key : String} {slot : Nat} {policy : Policy} {before after : Stage V}
    (stride : Stride key slot policy before after) : Accrues before.1 after.1 0 0 := by
  cases stride with
  | mark => exact of_frame rfl rfl Array.size_modify rfl
  | date => exact of_frame rfl rfl Array.size_modify rfl
  | launch => exact launch ..
  | join => exact join ..
  | detach => exact detach ..
  | leave flight => exact leave ..
  | clock => exact of_frame rfl rfl rfl rfl
  | serve => exact addCall ..
  | await => exact addCall ..

/-- A call that begins is one lookup, and one key more if its key is new. -/
theorem begin (placed : Placed cache) (key : String) (policy : Policy) (deadline : Deadline) :
    Accrues cache (cache.begin key policy deadline).2 1 (if (cache.keys.lookup key).isSome then 0 else 1) := by
  obtain ⟨change, counts, strides⟩ := begin_strides cache key policy deadline
  have after := strides.relate (Accrues · · 0 0) refl .trans .stride
  simpa only [Nat.zero_add, Nat.add_zero] using ((touch placed key).trans (counted _ counts)).trans after

theorem returnCall (cache : Cache V) (number : Nat) (result : Except Failure V) :
    Accrues cache (cache.returnCall number result) 0 0 :=
  of_frame rfl rfl rfl rfl

theorem turnCall (placed : Placed cache) {number : Nat} (turn : cache.turnCall? number = some next) :
    Accrues cache next 0 0 := by
  obtain ⟨call, flight, _, _, ending⟩ := turnCall?_ending turn
  have left (answer : Except Failure V) : Accrues cache ((cache.returnCall number answer).leave flight) 0 0 :=
    (returnCall ..).trans (leave ..)
  cases ending with
  | left answer => exact left answer
  | evicted answer evictable =>
    have returned : Placed (cache.returnCall number answer) := placed.forget (.refl _) rfl rfl fun _ => id
    exact (left answer).trans (evict (returned.leave flight) (mem_of_lookup evictable.known))
  | detached answer => exact ((returnCall ..).trans (detach ..)).trans (leave ..)

theorem dropCall (cache : Cache V) (number : Nat) : Accrues cache (cache.dropCall number) 0 0 := by
  rcases dropCall_eq cache number with ⟨same, _⟩ | ⟨_, flight, _, _, left⟩
  · rw [same]
    exact refl cache
  · have gone : Accrues cache (cache.modifyCall number fun call => { call with phase := .dropped }) 0 0 :=
      of_frame rfl rfl rfl rfl
    rw [left]
    exact gone.trans (leave ..)

/-- A purge counts as many evictions as it drops keys. -/
theorem purge (cache : Cache V) : Accrues cache cache.purge.2 0 0 := by
  refine ⟨rfl, rfl, rfl, ?_, rfl⟩
  have fewer : (cache.keys.filter fun key => !(cache.isIdle key.2 && cache.isSpent key.2)).length ≤
      cache.keys.length := List.filter_sublist.length_le
  simp only [Cache.purge, count, size]
  omega

end Accrues

theorem endFlight_stats (cache : Cache V) (number : Nat) (flight : Flight V) (ending : GuardEnd (WorkEnd V)) :
    (cache.endFlight number flight ending).stats = { cache.stats with
      refreshFailures := cache.stats.refreshFailures + if ending.outcome.isFailure then 1 else 0 } := by
  generalize ended : cache.endFlight number flight ending = next
  cases endFlight_landing ended with
  | failed _ fails => rw [if_pos fails]; rfl
  | lost _ fine => rw [if_neg (ne_true_of_eq_false fine)]; rfl
  | passed => rfl
  | stored => rfl

theorem endFlight_slots_size (cache : Cache V) (number : Nat) (flight : Flight V) (ending : GuardEnd (WorkEnd V)) :
    (cache.endFlight number flight ending).slots.size = cache.slots.size := by
  generalize ended : cache.endFlight number flight ending = next
  cases endFlight_landing ended with
  | failed => exact Array.size_modify
  | lost => rfl
  | passed => exact Array.size_modify
  | stored => exact Array.size_modify.trans Array.size_modify

/-- How a computation ended is put on record, whether its flight lands or is lost. -/
theorem endFlight_flights (cache : Cache V) (number : Nat) (flight : Flight V) (ending : GuardEnd (WorkEnd V)) :
    (cache.endFlight number flight ending).flights = cache.flights.modify number fun flight' =>
      { flight' with
        phase := flight.endPhase ending, outcome := some ending.outcome, endedAt := some cache.clock.now } := by
  generalize ended : cache.endFlight number flight ending = next
  cases endFlight_landing ended with
  | failed phase => rw [phase]; rfl
  | lost phase => rw [phase]; rfl
  | passed phase => rw [phase]; rfl
  | stored phase => rw [phase]; rfl

variable {rule : Rule V} {cache next : Cache V}

/-- All computations that have ended are on record, and no others. -/
def Recorded (cache : Cache V) : Prop :=
  ∀ (number : Nat) (flight : Flight V), cache.flights[number]? = some flight → flight.isRunning = flight.outcome.isNone

namespace Recorded

theorem modifyFlight (recorded : Recorded cache) (number : Nat) {change : Flight V → Flight V}
    (same : ∀ flight, (change flight).phase = flight.phase ∧ (change flight).outcome = flight.outcome) :
    Recorded (cache.modifyFlight number change) := by
  refine fun n => of_getElem?_modify (recorded n) fun flight running => ?_
  obtain ⟨phase, outcome⟩ := same flight
  rw [outcome, ← running, Flight.isRunning, Flight.isRunning, phase]

theorem move {before after : Stage V} (recorded : Recorded before.1) (move : Move before after) :
    Recorded after.1 := by
  cases move with
  | launch policy waiters =>
    intro number flight present
    rcases getElem?_push_cases present with ⟨_, old⟩ | ⟨_, rfl⟩
    · exact recorded number flight old
    · rfl
  | join => exact recorded.modifyFlight _ fun _ => ⟨rfl, rfl⟩
  | detach => exact recorded.modifyFlight _ fun _ => ⟨rfl, rfl⟩
  | @leave cache _ number =>
    have counted : Recorded (cache.modifyFlight number fun flight => { flight with waiters := flight.waiters - 1 }) :=
      recorded.modifyFlight number fun _ => ⟨rfl, rfl⟩
    simpa only [Recorded, leave_flights, Cache.modifyFlight] using counted
  | _ => exact recorded

theorem moves {before after : Stage V} (recorded : Recorded before.1) (moves : Moves V before after) :
    Recorded after.1 :=
  @Moves.invariant V (fun stage => Recorded stage.1) _ _ moves (fun _ _ => move) recorded

theorem step {event : Event V} (recorded : Recorded cache) (step : cache.step? event = some next) : Recorded next := by
  cases event with
  | begin key policy deadline => cases step; exact recorded.moves (begin_moves cache key policy deadline)
  | flight number work =>
    obtain ⟨flight, present, ⟨queued, rfl⟩ | ⟨deadline, ending, _, _, rfl⟩⟩ := turnFlight?_eq_some_iff.mp step
    · intro n later there
      obtain ⟨before, there', ⟨_, rfl⟩ | ⟨rfl, rfl⟩⟩ := getElem?_modify_cases there
      · exact recorded n later there'
      · rw [present] at there'
        obtain rfl := Option.some.inj there'
        have before := recorded number flight present
        rw [Flight.isRunning, queued] at before
        exact before
    · intro n later there
      rw [endFlight_flights] at there
      obtain ⟨before, there', ⟨_, rfl⟩ | ⟨rfl, rfl⟩⟩ := getElem?_modify_cases there
      · exact recorded n later there'
      · rcases flight.endPhase_cases ending with lost | ⟨result, landed⟩
        · simp [Flight.isRunning, lost]
        · simp [Flight.isRunning, landed]
  | call number => exact recorded.moves (turnCall?_moves step)
  | drop number => cases step; exact recorded.moves (dropCall_moves cache number)
  | purge => cases step; exact recorded
  | remove key => cases step; exact recorded
  | pass instant => cases step; exact recorded
  | scope parent => cases parent <;> cases step <;> exact recorded
  | cancel token => cases step; exact recorded

private theorem length_eq (flights : List (Flight V))
    (recorded : ∀ flight ∈ flights, flight.isRunning = flight.outcome.isNone) :
    flights.length = flights.countP Flight.isRunning + flights.countP (Flight.hasEnded .ok) +
      flights.countP (Flight.hasEnded .err) + flights.countP (Flight.hasEnded .panic) +
      flights.countP (Flight.hasEnded .abandoned) := by
  induction flights with
  | nil => rfl
  | cons flight flights ih =>
    obtain ⟨own, others⟩ := List.forall_mem_cons.mp recorded
    have once : (if flight.isRunning then 1 else 0) + (if flight.hasEnded .ok then 1 else 0) +
        (if flight.hasEnded .err then 1 else 0) + (if flight.hasEnded .panic then 1 else 0) +
        (if flight.hasEnded .abandoned then 1 else 0) = 1 := by
      unfold Flight.hasEnded
      cases ended : flight.outcome with
      | none => simp [own, ended]
      | some outcome => cases outcome <;> simp [own, ended]
    have counted := ih others
    simp only [List.length_cons, List.countP_cons]
    omega

/-- Every computation is running or has ended in one of four ways. -/
theorem size_flights (recorded : Recorded cache) :
    cache.flights.size = cache.running + cache.ended .ok + cache.ended .err + cache.ended .panic +
      cache.ended .abandoned := by
  have counted := length_eq cache.flights.toList fun flight member =>
    let ⟨number, present⟩ := Array.mem_iff_getElem?.mp (Array.mem_toList_iff.mp member)
    recorded number flight present
  simpa only [running, ended, Array.countP_toList, Array.length_toList] using counted

end Recorded

/-- All computations that have ended are on record, whatever happens. -/
theorem Reachable.recorded (reachable : Reachable rule cache) : Recorded cache :=
  reachable.invariant (fun _ _ _ recorded _ => Recorded.step recorded) fun _ => by simp [Recorded, empty]

/-- What callers do ends no computation. -/
theorem Moves.ended {before after : Stage V} (moves : Moves V before after) (outcome : WorkOutcome) :
    after.1.ended outcome = before.1.ended outcome := by
  refine @Moves.invariant V (fun stage => stage.1.ended outcome = before.1.ended outcome) _ _ moves ?_ rfl
  intro middle next same move
  refine Eq.trans ?_ same
  cases move with
  | launch => exact (Array.countP_push ..).trans (Nat.add_zero _)
  | join => exact countP_modify_same _ _ fun _ _ => rfl
  | detach => exact countP_modify_same _ _ fun _ _ => rfl
  | leave number =>
    rw [Cache.ended, leave_flights]
    exact countP_modify_same _ _ fun _ _ => rfl
  | _ => rfl

/-- How many calls the event begins. -/
def begins (_ : Cache V) : Event V → Nat
  | .begin .. => 1
  | _ => 0

/-- How many keys the event makes: a call makes its own unless it is there. -/
def creations (cache : Cache V) : Event V → Nat
  | .begin key _ _ => if (cache.keys.lookup key).isSome then 0 else 1
  | _ => 0

/-- How many keys the event removes: one, if the removal tells that it was there. -/
def removals (cache : Cache V) : Event V → Nat
  | .remove key => if (cache.remove key).1 then 1 else 0
  | _ => 0

/-- What an event does to the counts, and what it does that they are to count. -/
structure Booked (cache next : Cache V) (event : Event V) : Prop where
  calls : next.calls.size = cache.calls.size + cache.begins event
  lookups : next.stats.lookups = cache.stats.lookups + cache.begins event
  launches : next.stats.factoryCalls + cache.flights.size = cache.stats.factoryCalls + next.flights.size
  failures : next.stats.refreshFailures + (cache.ended .err + cache.ended .abandoned) =
    cache.stats.refreshFailures + (next.ended .err + next.ended .abandoned)
  keys : next.size + next.stats.evictions + cache.removals event =
    cache.size + cache.stats.evictions + cache.creations event
  slots : next.slots.size = cache.slots.size + cache.creations event

/-- What callers do is booked if what accrues is what the event is said to do. -/
theorem Accrues.booked {event : Event V} (accrues : Accrues cache next (cache.begins event) (cache.creations event))
    (moves : Moves V (cache, []) (next, [])) (calls : next.calls.size = cache.calls.size + cache.begins event)
    (removed : cache.removals event = 0) : Booked cache next event := by
  have ended := fun outcome => moves.ended outcome
  refine ⟨calls, accrues.lookups, accrues.launches, ?_, ?_, accrues.slots⟩
  · rw [accrues.failures, ended, ended]
  · rw [removed, accrues.keys, Nat.add_zero]

theorem Booked.of_frame {event : Event V} (stats : next.stats = cache.stats) (keys : next.keys = cache.keys)
    (slots : next.slots = cache.slots) (flights : next.flights = cache.flights) (calls : next.calls = cache.calls)
    (begun : cache.begins event = 0) (created : cache.creations event = 0) (removed : cache.removals event = 0) :
    Booked cache next event := by
  constructor
  · rw [calls, begun, Nat.add_zero]
  · rw [stats, begun, Nat.add_zero]
  · rw [stats, flights]
  · rw [stats, ended, ended, ended, ended, flights]
  · rw [stats, size, size, keys, removed, created]
  · rw [slots, created, Nat.add_zero]

/-- A flight that begins has not ended, and one that ends is counted by how it did. -/
theorem Recorded.booked_flight (recorded : Recorded cache) {number : Nat} {work : Option (WorkEnd V)}
    (turn : cache.turnFlight? number work = some next) : Booked cache next (.flight number work) := by
  obtain ⟨flight, present, ⟨queued, rfl⟩ | ⟨deadline, ending, working, _, rfl⟩⟩ := turnFlight?_eq_some_iff.mp turn
  · refine ⟨rfl, rfl, congrArg _ Array.size_modify.symm, ?_, rfl, rfl⟩
    have same (outcome : WorkOutcome) : (cache.startFlight number).ended outcome = cache.ended outcome :=
      countP_modify_same _ _ fun _ _ => rfl
    rw [same, same]
    rfl
  · have flights := endFlight_flights cache number flight ending
    have stats := endFlight_stats cache number flight ending
    have still : flight.outcome = none := by
      have running := recorded number flight present
      rw [Flight.isRunning, working] at running
      exact Option.isNone_iff_eq_none.mp running.symm
    have counted (outcome : WorkOutcome) : (cache.endFlight number flight ending).ended outcome =
        cache.ended outcome + if ending.outcome = outcome then 1 else 0 := by
      have changed := countP_modify (Flight.hasEnded outcome) (fun flight' : Flight V =>
        { flight' with
          phase := flight.endPhase ending, outcome := some ending.outcome, endedAt := some cache.clock.now }) present
      simp only [Flight.hasEnded, still, Option.none_beq_some, Bool.false_eq_true, if_false, Nat.add_zero,
        Option.some_beq_some, beq_iff_eq] at changed
      rw [ended, flights]
      exact changed
    refine ⟨?_, ?_, ?_, ?_, ?_, ?_⟩
    · exact congrArg Array.size (endFlight_frame cache number flight ending).2.1
    · rw [stats]
      rfl
    · rw [stats, flights, Array.size_modify]
    · rw [stats, counted, counted]
      cases ending.outcome <;> simp [WorkOutcome.isFailure] <;> omega
    · rw [stats, size, size, endFlight_keys]
      rfl
    · exact endFlight_slots_size ..

/-- Every event is booked as what it is. -/
theorem Placed.booked (placed : Placed cache) (recorded : Recorded cache) {event : Event V}
    (step : cache.step? event = some next) : Booked cache next event := by
  cases event with
  | begin key policy deadline =>
    cases step
    obtain ⟨call, calls⟩ := begin_calls cache key policy deadline
    refine (Accrues.begin placed key policy deadline).booked (begin_moves cache key policy deadline) ?_ rfl
    rw [calls]
    exact Array.size_push ..
  | flight number work => exact recorded.booked_flight step
  | call number =>
    obtain ⟨_, answer, _, _, calls⟩ := turnCall?_calls step
    refine (Accrues.turnCall placed step).booked (turnCall?_moves step) ?_ rfl
    rw [calls]
    exact Array.size_modify
  | drop number =>
    cases step
    refine (Accrues.dropCall cache number).booked (dropCall_moves cache number) ?_ rfl
    rcases dropCall_eq cache number with ⟨same, _⟩ | ⟨_, flight, _, _, left⟩
    · rw [same]
      rfl
    · rw [left, leave_calls]
      exact Array.size_modify
  | purge =>
    cases step
    have purged := Accrues.purge cache
    exact ⟨rfl, purged.lookups, purged.launches, rfl, purged.keys, purged.slots⟩
  | remove key =>
    cases step
    refine ⟨rfl, rfl, rfl, rfl, ?_, rfl⟩
    cases known : cache.keys.lookup key with
    | none =>
      have same : (cache.dropKey key).keys = cache.keys := by
        refine List.filter_eq_self.mpr fun pair member => ?_
        have other := List.lookup_eq_none_iff.mp known pair member
        rw [bne_iff_ne]
        exact fun same => by simp [same] at other
      simp only [removals, Cache.remove, known, Option.isSome_none, Bool.false_eq_true, if_false, size, same]
      rfl
    | some slot =>
      have dropped := placed.size_dropKey (mem_of_lookup known)
      simp only [removals, creations, Cache.remove, known, Option.isSome_some, if_true]
      have stats : (cache.dropKey key).stats = cache.stats := rfl
      rw [stats]
      omega
  | pass instant => cases step; exact .of_frame rfl rfl rfl rfl rfl rfl rfl rfl
  | scope parent => cases parent <;> cases step <;> exact .of_frame rfl rfl rfl rfl rfl rfl rfl rfl
  | cancel token => cases step; exact .of_frame rfl rfl rfl rfl rfl rfl rfl rfl

end Cache

end HedgedForecast
