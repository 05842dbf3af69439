import HedgedForecast.Proofs.Cache.Landings
import Mathlib.Data.List.Count

/-! # Who waits for a flight

A flight counts its waiters. Whatever callers do, the count is the number of calls that wait for the
flight, and the flight is cancelled exactly when it is not detached and the count is zero. So nobody
waits for a cancelled flight, and no flight is cancelled while somebody waits for it.
-/

namespace HedgedForecast.Cache

variable {V : Type}

/-- How many calls wait for a flight. -/
def waiting (cache : Cache V) (flight : Nat) : Nat :=
  cache.calls.countP fun call => call.flight? == some flight

/-- The books on waiting are right, if the interests held by unfinished calls are added. -/
structure Accounted (cache : Cache V) (held : List Nat) : Prop where
  cancelled_issued : ∀ scope ∈ cache.clock.scopes.cancelled, scope < cache.clock.scopes.issued
  /-- A flight has a scope of its own, within no other one. -/
  token : ∀ (number : Nat) (flight : Flight V), cache.flights[number]? = some flight →
    ∃ scope < cache.clock.scopes.issued, flight.token = ⟨[scope]⟩
  token_inj : ∀ (m n : Nat) (flight other : Flight V), cache.flights[m]? = some flight →
    cache.flights[n]? = some other → flight.token = other.token → m = n
  waiters : ∀ (number : Nat) (flight : Flight V), cache.flights[number]? = some flight →
    flight.waiters = cache.waiting number + held.count number
  cancelled_iff : ∀ (number : Nat) (flight : Flight V), cache.flights[number]? = some flight →
    (cache.clock.isCancelled flight.token = true ↔ flight.detached = false ∧ flight.waiters = 0)
  call_known : ∀ (number : Nat) (call : Call V) (flight : Nat), cache.calls[number]? = some call →
    call.flight? = some flight → flight < cache.flights.size
  held_known : ∀ flight ∈ held, flight < cache.flights.size

theorem liveFlight?_eq_some_iff {cache : Cache V} {slot number : Nat} :
    cache.liveFlight? slot = some number ↔
      ∃ found flight, cache.slots[slot]? = some found ∧ found.flight = some number ∧
        cache.flights[number]? = some flight ∧ cache.clock.isCancelled flight.token = false := by
  unfold liveFlight?
  simp only [Option.bind_eq_bind, Option.bind_eq_some_iff]
  constructor
  · rintro ⟨found, present, other, installed, flight, known, test⟩
    split at test
    · contradiction
    · next live =>
      obtain rfl := Option.some.inj test
      exact ⟨found, flight, present, installed, known, by simpa using live⟩
  · rintro ⟨found, flight, present, installed, known, live⟩
    exact ⟨found, present, number, installed, flight, known, by simp [live]⟩

theorem isCancelled_singleton (clock : Clock) (scope : Nat) :
    clock.isCancelled ⟨[scope]⟩ = true ↔ scope ∈ clock.scopes.cancelled := by
  simp [Clock.isCancelled, Scopes.isCancelled]

theorem waiting_eq_zero {cache : Cache V} {flight : Nat}
    (none : ∀ (number : Nat) (call : Call V), cache.calls[number]? = some call → call.flight? ≠ some flight) :
    cache.waiting flight = 0 := by
  refine Array.countP_eq_zero.mpr fun call member => ?_
  obtain ⟨number, present⟩ := Array.mem_iff_getElem?.mp member
  simpa using none number call present

theorem waiting_pos {cache : Cache V} {number flight : Nat} {call : Call V}
    (present : cache.calls[number]? = some call) (waits : call.flight? = some flight) :
    0 < cache.waiting flight :=
  Array.countP_pos_iff.mpr ⟨call, Array.mem_iff_getElem?.mpr ⟨number, present⟩, by simp [waits]⟩

theorem waiting_addCall (cache : Cache V) (call : Call V) (flight : Nat) :
    (cache.addCall call).2.waiting flight =
      cache.waiting flight + if call.flight? = some flight then 1 else 0 := by
  simp only [waiting, addCall, Array.countP_push, beq_iff_eq]

theorem waiting_retire {cache : Cache V} {number other : Nat} {call : Call V} (phase : CallPhase V)
    (present : cache.calls[number]? = some call) (waits : call.flight? = some other)
    (ended : ({ call with phase } : Call V).flight? = none) (flight : Nat) :
    cache.waiting flight =
      (cache.modifyCall number fun call => { call with phase }).waiting flight +
        if other = flight then 1 else 0 := by
  by_cases same : other = flight
  · subst same
    rw [if_pos rfl]
    exact (countP_modify_succ present (by simp [waits]) (by simp [ended])).symm
  · rw [if_neg same]
    refine (countP_modify_same _ _ fun found there => ?_).symm
    obtain rfl := Option.some.inj (present.symm.trans there)
    simp [ended, waits, same]

/-- A flight after a launch is an old one or the new one. -/
theorem launch_flight_cases {cache : Cache V} {key : String} {slot : Nat} {policy : Policy} {trigger : Trigger}
    {waiters number : Nat} {flight : Flight V}
    (present : (cache.launch key slot policy trigger waiters).2.flights[number]? = some flight) :
    number ≠ cache.flights.size ∧ cache.flights[number]? = some flight ∨
      number = cache.flights.size ∧ flight.slot = slot ∧ flight.key = key ∧
        flight.token = ⟨[cache.clock.scopes.issued]⟩ ∧ flight.waiters = waiters ∧
        flight.detached = (trigger != .cold) := by
  rcases getElem?_push_cases present with old | ⟨same, rfl⟩
  · exact .inl old
  · exact .inr ⟨same, rfl, rfl, rfl, rfl, rfl⟩

namespace Accounted

variable {cache next : Cache V} {held : List Nat}

theorem empty (maxEntries : Nat) : Accounted (Cache.empty maxEntries : Cache V) [] := by
  constructor <;> simp [Cache.empty]

/-- The books speak of scopes, flights and calls only. -/
theorem congr (accounted : Accounted cache held) (scopes : next.clock.scopes = cache.clock.scopes)
    (flights : next.flights = cache.flights) (calls : next.calls = cache.calls) : Accounted next held := by
  have waiting : next.waiting = cache.waiting := by unfold Cache.waiting; rw [calls]
  have cancelled : next.clock.isCancelled = cache.clock.isCancelled := by
    funext token; simp only [Clock.isCancelled, scopes]
  constructor
  · rw [scopes]; exact accounted.cancelled_issued
  · rw [scopes, flights]; exact accounted.token
  · rw [flights]; exact accounted.token_inj
  · rw [flights, waiting]; exact accounted.waiters
  · rw [flights, cancelled]; exact accounted.cancelled_iff
  · rw [flights, calls]; exact accounted.call_known
  · rw [flights]; exact accounted.held_known

/-- One flight keeps its scope and gets other books, which are right; the others keep theirs. -/
theorem update (accounted : Accounted cache held) {number : Nat} {change : Flight V → Flight V}
    {held' : List Nat} (flights : next.flights = cache.flights.modify number change)
    (calls : next.calls = cache.calls) (issued : next.clock.scopes.issued = cache.clock.scopes.issued)
    (bounded : ∀ scope ∈ next.clock.scopes.cancelled, scope < next.clock.scopes.issued)
    (token : ∀ flight, (change flight).token = flight.token)
    (books : ∀ flight, cache.flights[number]? = some flight →
      (change flight).waiters = cache.waiting number + held'.count number ∧
      (next.clock.isCancelled flight.token = true ↔
        (change flight).detached = false ∧ (change flight).waiters = 0))
    (others : ∀ (n : Nat) (flight : Flight V), number ≠ n → cache.flights[n]? = some flight →
      held'.count n = held.count n ∧
      next.clock.isCancelled flight.token = cache.clock.isCancelled flight.token)
    (known : ∀ flight ∈ held', flight < cache.flights.size) : Accounted next held' := by
  have waiting : next.waiting = cache.waiting := by unfold Cache.waiting; rw [calls]
  have size : next.flights.size = cache.flights.size := by rw [flights, Array.size_modify]
  have back : ∀ (n : Nat) (flight' : Flight V), next.flights[n]? = some flight' →
      ∃ flight, cache.flights[n]? = some flight ∧
        (number ≠ n ∧ flight' = flight ∨ number = n ∧ flight' = change flight) := by
    intro n flight' present
    rw [flights] at present
    exact getElem?_modify_cases present
  have sameToken : ∀ (n : Nat) (flight' : Flight V), next.flights[n]? = some flight' →
      ∃ flight, cache.flights[n]? = some flight ∧ flight'.token = flight.token := by
    intro n flight' present
    obtain ⟨flight, found, ⟨_, rfl⟩ | ⟨_, rfl⟩⟩ := back n flight' present
    · exact ⟨flight', found, rfl⟩
    · exact ⟨flight, found, token flight⟩
  constructor
  · exact bounded
  · intro n flight' present
    obtain ⟨flight, found, same⟩ := sameToken n flight' present
    rw [same, issued]
    exact accounted.token n flight found
  · intro m n flight' other' left right equal
    obtain ⟨flight, found, same⟩ := sameToken m flight' left
    obtain ⟨other, found', same'⟩ := sameToken n other' right
    exact accounted.token_inj m n flight other found found' (by rw [← same, ← same', equal])
  · intro n flight' present
    rw [waiting]
    obtain ⟨flight, found, ⟨distinct, rfl⟩ | ⟨rfl, rfl⟩⟩ := back n flight' present
    · rw [(others n flight' distinct found).1]
      exact accounted.waiters n flight' found
    · exact (books flight found).1
  · intro n flight' present
    obtain ⟨flight, found, ⟨distinct, rfl⟩ | ⟨rfl, rfl⟩⟩ := back n flight' present
    · rw [(others n flight' distinct found).2]
      exact accounted.cancelled_iff n flight' found
    · rw [token]
      exact (books flight found).2
  · rw [calls, size]; exact accounted.call_known
  · rw [size]; exact known

/-- The books do not speak of where a flight stands. -/
theorem modifyFlight (accounted : Accounted cache held) (number : Nat) {change : Flight V → Flight V}
    (same : ∀ flight, (change flight).token = flight.token ∧ (change flight).waiters = flight.waiters ∧
      (change flight).detached = flight.detached) : Accounted (cache.modifyFlight number change) held := by
  refine accounted.update rfl rfl rfl accounted.cancelled_issued (fun flight => (same flight).1) ?_
    (fun _ _ _ _ => ⟨rfl, rfl⟩) accounted.held_known
  intro flight present
  rw [(same flight).2.1, (same flight).2.2]
  exact ⟨accounted.waiters number flight present, accounted.cancelled_iff number flight present⟩

theorem join (accounted : Accounted cache held) {slot number : Nat}
    (live : cache.liveFlight? slot = some number) : Accounted (cache.join number) (number :: held) := by
  obtain ⟨_, found, _, _, present, alive⟩ := liveFlight?_eq_some_iff.mp live
  refine accounted.update (join_flights cache number) rfl rfl accounted.cancelled_issued (fun _ => rfl) ?_ ?_ ?_
  · intro flight present'
    obtain rfl : found = flight := Option.some.inj (present.symm.trans present')
    have waiters := accounted.waiters number found present
    constructor
    · rw [List.count_cons_self]; change found.waiters + 1 = _; omega
    · change cache.clock.isCancelled found.token = true ↔ found.detached = false ∧ found.waiters + 1 = 0
      simp [alive]
  · exact fun n _ distinct _ => ⟨List.count_cons_of_ne distinct, rfl⟩
  · intro flight member
    rcases List.mem_cons.mp member with rfl | member
    · exact (Array.getElem?_eq_some_iff.mp present).1
    · exact accounted.held_known flight member

theorem detach (accounted : Accounted cache held) {number : Nat} (holding : number ∈ held) :
    Accounted (cache.detach number) held := by
  refine accounted.update (detach_flights cache number) rfl rfl accounted.cancelled_issued (fun _ => rfl) ?_
    (fun _ _ _ _ => ⟨rfl, rfl⟩) accounted.held_known
  intro flight present
  have waiters := accounted.waiters number flight present
  have positive := List.count_pos_iff.mpr holding
  refine ⟨waiters, ?_⟩
  change cache.clock.isCancelled flight.token = true ↔ true = false ∧ flight.waiters = 0
  rw [accounted.cancelled_iff number flight present]
  constructor
  · rintro ⟨_, zero⟩; omega
  · rintro ⟨_, _⟩; contradiction

/-- The scope of a flight is cancelled on its own: no other flight is. -/
theorem isCancelled_cancel (accounted : Accounted cache held) {m n : Nat} {flight other : Flight V}
    (present : cache.flights[m]? = some flight) (present' : cache.flights[n]? = some other) :
    (cache.clock.cancel flight.token).isCancelled other.token = true ↔
      n = m ∨ cache.clock.isCancelled other.token = true := by
  obtain ⟨scope, _, token⟩ := accounted.token m flight present
  obtain ⟨scope', _, token'⟩ := accounted.token n other present'
  have same : scope' = scope ↔ n = m := by
    constructor
    · rintro rfl; exact accounted.token_inj n m other flight present' present (token'.trans token.symm)
    · rintro rfl
      obtain rfl := Option.some.inj (present.symm.trans present')
      simpa [token] using token'.symm
  rw [token, token', isCancelled_singleton, isCancelled_singleton]
  simp [Clock.cancel, Scopes.cancel, same]

/-- The last waiter of an attached flight cancels its scope, and no other one. -/
theorem leave_last {number : Nat} {flight : Flight V} (accounted : Accounted cache (number :: held))
    (present : cache.flights[number]? = some flight) (last : flight.waiters ≤ 1) (attached : flight.detached = false) :
    Accounted (cache.leave number) held := by
  have clock : (cache.leave number).clock = cache.clock.cancel flight.token := by
    rw [leave_clock present, if_pos (by simp [last, attached])]
  have waiters := accounted.waiters number flight present
  rw [List.count_cons_self] at waiters
  refine accounted.update (leave_flights cache number) (leave_calls cache number) (leave_issued cache number) ?_
    (fun _ => rfl) ?_ ?_ fun other member => accounted.held_known other (List.mem_cons_of_mem _ member)
  · obtain ⟨scope, issued, token⟩ := accounted.token number flight present
    rw [clock, token]
    intro other member
    rcases List.mem_cons.mp member with rfl | member
    · exact issued
    · exact accounted.cancelled_issued other member
  · intro found present'
    obtain rfl := Option.some.inj (present.symm.trans present')
    rw [clock, accounted.isCancelled_cancel present present]
    simp only [true_or, attached, true_and, true_iff]
    omega
  · intro n other distinct present'
    have same := accounted.isCancelled_cancel present present'
    rw [or_iff_right (Ne.symm distinct)] at same
    rw [clock]
    exact ⟨(List.count_cons_of_ne distinct).symm, Bool.eq_iff_iff.mpr same⟩

/-- A flight that others wait for, or that needs nobody, goes on without the waiter. -/
theorem leave_other {number : Nat} {flight : Flight V} (accounted : Accounted cache (number :: held))
    (present : cache.flights[number]? = some flight) (goesOn : ¬ (flight.waiters ≤ 1 ∧ flight.detached = false)) :
    Accounted (cache.leave number) held := by
  have clock : (cache.leave number).clock = cache.clock := by
    rw [leave_clock present, if_neg (by simpa using goesOn)]
  have waiters := accounted.waiters number flight present
  rw [List.count_cons_self] at waiters
  refine accounted.update (leave_flights cache number) (leave_calls cache number) (leave_issued cache number) ?_
    (fun _ => rfl) ?_ ?_ fun other member => accounted.held_known other (List.mem_cons_of_mem _ member)
  · rw [clock]
    exact accounted.cancelled_issued
  · intro found present'
    obtain rfl := Option.some.inj (present.symm.trans present')
    rw [clock, accounted.cancelled_iff number flight present]
    simp only
    refine ⟨by omega, ?_⟩
    constructor
    · rintro ⟨_, zero⟩
      omega
    · rintro ⟨attached, last⟩
      exact absurd ⟨by omega, attached⟩ goesOn
  · intro n other distinct _
    rw [clock]
    exact ⟨(List.count_cons_of_ne distinct).symm, rfl⟩

theorem leave {number : Nat} (accounted : Accounted cache (number :: held)) :
    Accounted (cache.leave number) held := by
  have bound : number < cache.flights.size := accounted.held_known number (List.mem_cons_self ..)
  have present : cache.flights[number]? = some cache.flights[number] := Array.getElem?_eq_getElem bound
  by_cases last : cache.flights[number].waiters ≤ 1 ∧ cache.flights[number].detached = false
  · exact accounted.leave_last present last.1 last.2
  · exact accounted.leave_other present last

/-- Nobody waits for the flight that is launched next. -/
theorem waiting_size (accounted : Accounted cache held) : cache.waiting cache.flights.size = 0 := by
  refine waiting_eq_zero fun number call present waits => ?_
  exact Nat.lt_irrefl _ (accounted.call_known number call _ present waits)

theorem count_held_size (accounted : Accounted cache held) : held.count cache.flights.size = 0 :=
  List.count_eq_zero.mpr fun member => Nat.lt_irrefl _ (accounted.held_known _ member)

/-- The next scope is no flight's. -/
theorem token_ne_issued (accounted : Accounted cache held) {number : Nat} {flight : Flight V}
    (present : cache.flights[number]? = some flight) : flight.token ≠ ⟨[cache.clock.scopes.issued]⟩ := by
  intro same
  obtain ⟨scope, issued, token⟩ := accounted.token number flight present
  simp only [token, Token.mk.injEq, List.cons.injEq, and_true] at same
  omega

theorem launch (accounted : Accounted cache held) (key : String) (slot : Nat) (policy : Policy)
    {trigger : Trigger} (waiters : Nat) (wanted : waiters = 0 → trigger ≠ .cold) :
    Accounted (cache.launch key slot policy trigger waiters).2
      (List.replicate waiters cache.flights.size ++ held) := by
  have size : (cache.launch key slot policy trigger waiters).2.flights.size = cache.flights.size + 1 :=
    Array.size_push ..
  constructor
  · intro scope member
    exact Nat.lt_succ_of_lt (accounted.cancelled_issued scope member)
  · intro n flight present
    rcases launch_flight_cases present with ⟨_, old⟩ | ⟨_, _, _, token, _⟩
    · obtain ⟨scope, issued, token⟩ := accounted.token n flight old
      exact ⟨scope, Nat.lt_succ_of_lt issued, token⟩
    · exact ⟨_, Nat.lt_succ_self _, token⟩
  · intro m n flight other left right equal
    rcases launch_flight_cases left with ⟨_, old⟩ | ⟨same, _, _, token, _⟩ <;>
      rcases launch_flight_cases right with ⟨_, old'⟩ | ⟨same', _, _, token', _⟩
    · exact accounted.token_inj m n flight other old old' equal
    · exact absurd (equal.trans token') (accounted.token_ne_issued old)
    · exact absurd (equal.symm.trans token) (accounted.token_ne_issued old')
    · exact same.trans same'.symm
  · intro n flight present
    change flight.waiters = cache.waiting n + _
    rw [List.count_append, List.count_replicate]
    rcases launch_flight_cases present with ⟨distinct, old⟩ | ⟨rfl, _, _, _, count, _⟩
    · simp [Ne.symm distinct, accounted.waiters n flight old]
    · simp [accounted.waiting_size, accounted.count_held_size, count]
  · intro n flight present
    change cache.clock.isCancelled flight.token = true ↔ _
    rcases launch_flight_cases present with ⟨_, old⟩ | ⟨_, _, _, token, count, detached⟩
    · exact accounted.cancelled_iff n flight old
    · rw [token, isCancelled_singleton, count, detached]
      constructor
      · intro member; exact absurd (accounted.cancelled_issued _ member) (Nat.lt_irrefl _)
      · rintro ⟨cold, zero⟩; exact absurd (by simpa using cold) (wanted zero)
  · intro n call flight present waits
    rw [size]
    exact Nat.lt_succ_of_lt (accounted.call_known n call flight present waits)
  · intro flight member
    rw [size]
    rcases List.mem_append.mp member with new | old
    · rw [List.eq_of_mem_replicate new]; exact Nat.lt_succ_self _
    · exact Nat.lt_succ_of_lt (accounted.held_known flight old)

/-- Calls change, and interests pass between them and the list of those held. -/
theorem recount (accounted : Accounted cache held) {held' : List Nat}
    (scopes : next.clock.scopes = cache.clock.scopes) (flights : next.flights = cache.flights)
    (counts : ∀ flight, next.waiting flight + held'.count flight = cache.waiting flight + held.count flight)
    (calls : ∀ (number : Nat) (call : Call V) (flight : Nat), next.calls[number]? = some call →
      call.flight? = some flight → flight < cache.flights.size)
    (known : ∀ flight ∈ held', flight < cache.flights.size) : Accounted next held' := by
  have cancelled : next.clock.isCancelled = cache.clock.isCancelled := by
    funext token; simp only [Clock.isCancelled, scopes]
  constructor
  · rw [scopes]; exact accounted.cancelled_issued
  · rw [scopes, flights]; exact accounted.token
  · rw [flights]; exact accounted.token_inj
  · intro number flight present
    rw [flights] at present
    rw [counts]
    exact accounted.waiters number flight present
  · rw [flights, cancelled]; exact accounted.cancelled_iff
  · rw [flights]; exact calls
  · rw [flights]; exact known

theorem addCall {call : Call V} {held' : List Nat} (accounted : Accounted cache held')
    (counts : ∀ flight, held'.count flight = (if call.flight? = some flight then 1 else 0) + held.count flight)
    (known : ∀ flight, call.flight? = some flight → flight < cache.flights.size)
    (subset : ∀ flight ∈ held, flight ∈ held') : Accounted (cache.addCall call).2 held := by
  refine accounted.recount rfl rfl ?_ ?_ (fun flight member => accounted.held_known flight (subset flight member))
  · intro flight
    rw [waiting_addCall, counts]
    omega
  · intro number other flight present waits
    rcases getElem?_push_cases present with ⟨_, old⟩ | ⟨_, rfl⟩
    · exact accounted.call_known number other flight old waits
    · exact known flight waits

theorem retire (accounted : Accounted cache held) {number other : Nat} {call : Call V} (phase : CallPhase V)
    (present : cache.calls[number]? = some call) (waits : call.flight? = some other)
    (ended : ({ call with phase } : Call V).flight? = none) :
    Accounted (cache.modifyCall number fun call => { call with phase }) (other :: held) := by
  refine accounted.recount rfl rfl ?_ ?_ ?_
  · intro flight
    rw [waiting_retire phase present waits ended flight, List.count_cons]
    simp only [beq_iff_eq]
    omega
  · intro n call' flight present' waits'
    obtain ⟨found, there, ⟨_, rfl⟩ | ⟨rfl, rfl⟩⟩ := getElem?_modify_cases present'
    · exact accounted.call_known n call' flight there waits'
    · obtain rfl := Option.some.inj (present.symm.trans there)
      rw [ended] at waits'
      contradiction
  · intro flight member
    rcases List.mem_cons.mp member with rfl | member
    · exact accounted.call_known number call flight present waits
    · exact accounted.held_known flight member

/-- Scopes may be made and cancelled, as long as those of flights are left alone. -/
theorem clock (accounted : Accounted cache held) (clock : Clock)
    (issued : cache.clock.scopes.issued ≤ clock.scopes.issued)
    (bounded : ∀ scope ∈ clock.scopes.cancelled, scope < clock.scopes.issued)
    (same : ∀ flight ∈ cache.flights, clock.isCancelled flight.token = cache.clock.isCancelled flight.token) :
    Accounted { cache with clock } held := by
  constructor
  · exact bounded
  · intro number flight present
    obtain ⟨scope, lower, token⟩ := accounted.token number flight present
    exact ⟨scope, Nat.lt_of_lt_of_le lower issued, token⟩
  · exact accounted.token_inj
  · exact accounted.waiters
  · intro number flight present
    change clock.isCancelled flight.token = true ↔ _
    rw [same flight (Array.mem_iff_getElem?.mpr ⟨number, present⟩)]
    exact accounted.cancelled_iff number flight present
  · exact accounted.call_known
  · exact accounted.held_known

/-- Every move keeps the books right. -/
theorem move {before after : Stage V} (accounted : Accounted before.1 before.2) (move : Move before after) :
    Accounted after.1 after.2 := by
  cases move with
  | count => exact accounted.congr rfl rfl rfl
  | tick => exact accounted.congr rfl rfl rfl
  | @clock cache _ parent =>
    have bounded : ∀ scope ∈ cache.clock.scopes.cancelled, scope < cache.clock.scopes.issued + 1 :=
      fun scope member => Nat.lt_succ_of_lt (accounted.cancelled_issued scope member)
    exact accounted.clock _ (Nat.le_succ _) bounded fun _ _ => rfl
  | evict => exact accounted.congr rfl rfl rfl
  | openSlot => exact accounted.congr rfl rfl rfl
  | amend => exact accounted.congr rfl rfl rfl
  | launch policy waiters _ _ wanted => exact accounted.launch _ _ policy waiters wanted
  | join live => exact accounted.join live
  | detach holding => exact accounted.detach holding
  | leave => exact accounted.leave
  | serve served =>
    exact accounted.addCall (by simp [served]) (by simp [served]) (fun _ member => member)
  | await waits =>
    refine accounted.addCall (fun flight => ?_) (fun flight waits' => ?_) fun _ => List.mem_cons_of_mem _
    · rw [List.count_cons, waits]
      simp only [beq_iff_eq, Option.some.injEq]
      omega
    · obtain rfl := Option.some.inj (waits.symm.trans waits')
      exact accounted.held_known _ (List.mem_cons_self ..)
  | retire phase present waits ended => exact accounted.retire phase present waits ended

theorem moves {target : Cache V} (accounted : Accounted cache []) (moves : Moves V (cache, []) (target, [])) :
    Accounted target [] :=
  moves.invariant (fun _ _ => Accounted.move) accounted

theorem turnFlight (accounted : Accounted cache []) {number : Nat} {work : Option (WorkEnd V)}
    (turn : cache.turnFlight? number work = some next) : Accounted next [] := by
  obtain ⟨flight, _, ⟨_, rfl⟩ | ⟨deadline, ending, _, _, rfl⟩⟩ := turnFlight?_eq_some_iff.mp turn
  · exact accounted.modifyFlight number fun _ => ⟨rfl, rfl, rfl⟩
  · rcases endFlight_cases cache number flight ending with
      ⟨_, outcome, same⟩ | ⟨result, middle, outcome, _, moves, _, _, _, same⟩
    · rw [same]
      exact accounted.modifyFlight number fun _ => ⟨rfl, rfl, rfl⟩
    · rw [same]
      have uninstalled : Accounted (middle.uninstall number flight) [] := (accounted.moves moves).congr rfl rfl rfl
      exact uninstalled.modifyFlight number fun _ => ⟨rfl, rfl, rfl⟩

/-- The scope of a token outside of the cache is not around that of a flight. -/
theorem isCancelled_cancel_outside (accounted : Accounted cache held) {token : Token}
    (outside : cache.Outside token) {flight : Flight V} (member : flight ∈ cache.flights) :
    (cache.clock.cancel token).isCancelled flight.token = cache.clock.isCancelled flight.token := by
  obtain ⟨number, present⟩ := Array.mem_iff_getElem?.mp member
  obtain ⟨scope, _, own⟩ := accounted.token number flight present
  have foreign := outside.noFlight flight member
  rw [own] at foreign ⊢
  apply Bool.eq_iff_iff.mpr
  rw [isCancelled_singleton, isCancelled_singleton]
  simp only [Clock.cancel, Scopes.cancel, List.mem_append, or_iff_right_iff_imp]
  cases lineage : token.lineage with
  | nil => simp
  | cons head rest =>
    simp only [lineage, List.head?_cons] at foreign
    simp only [List.take_succ_cons, List.take_zero, List.mem_singleton]
    rintro rfl
    exact absurd rfl foreign

/-- Every event that is allowed keeps the books right. -/
theorem step {event : Event V} (accounted : Accounted cache []) (allowed : Lawful cache event)
    (step : cache.step? event = some next) : Accounted next [] := by
  cases event with
  | begin key policy deadline =>
    cases step
    exact accounted.moves (begin_moves cache key policy deadline)
  | flight number work => exact accounted.turnFlight step
  | call number => exact accounted.moves (turnCall?_moves step)
  | drop number =>
    cases step
    exact accounted.moves (dropCall_moves cache number)
  | purge => cases step; exact accounted.congr rfl rfl rfl
  | remove key => cases step; exact accounted.congr rfl rfl rfl
  | pass instant => cases step; exact accounted.congr rfl rfl rfl
  | scope parent =>
    have bounded : ∀ scope ∈ cache.clock.scopes.cancelled, scope < cache.clock.scopes.issued + 1 :=
      fun scope member => Nat.lt_succ_of_lt (accounted.cancelled_issued scope member)
    cases parent with
    | none => cases step; exact accounted.clock _ (Nat.le_succ _) bounded fun _ _ => rfl
    | some parent => cases step; exact accounted.clock _ (Nat.le_succ _) bounded fun _ _ => rfl
  | cancel token =>
    cases step
    refine accounted.clock _ (Nat.le_refl _) ?_ fun flight => accounted.isCancelled_cancel_outside allowed
    intro scope member
    rcases List.mem_append.mp member with head | old
    · exact allowed.issued scope (List.mem_of_mem_take head)
    · exact accounted.cancelled_issued scope old

end Accounted

/-- In every run the count of a flight is the number of its waiters, and it is cancelled exactly when
it is attached and nobody waits. -/
theorem Reachable.accounted {cache : Cache V} (reachable : Reachable Lawful cache) : Accounted cache [] :=
  reachable.invariant (fun _ _ _ accounted => Accounted.step accounted) Accounted.empty

end HedgedForecast.Cache
