import HedgedForecast.Proofs.Cache.Mirrors
import HedgedForecast.Proofs.Cache.Scenarios
import Mathlib.Data.List.Dedup

/-! # Callers apart from other keys

What the calls on a key have to do with is kept apart from other keys in two ways. If none of the calls is made within
a computation for another key, none of their scopes is that of another key's flight, whatever is launched later. And
if a cache is meant for as many keys as are used, no key is ever dropped to make room for another one.
-/

namespace HedgedForecast.Cache

variable {V : Type}

/-- The scope exists, and if it is that of a flight, the flight is one of the key's. -/
structure Clear (key : String) (cache : Cache V) (scope : Nat) : Prop where
  issued : scope < cache.clock.scopes.issued
  own : ∀ (number : Nat) (flight : Flight V), cache.flights[number]? = some flight → scope ∈ flight.token.lineage →
    flight.key = key

/-- No call on the key is made within the computation for another key, without which it would not be there, and only
scopes that exist are cancelled. -/
def Separate (key : String) : Rule V
  | cache, .begin other _ deadline => other = key → ∀ scope ∈ deadline.token.lineage, cache.Clear key scope
  | cache, .cancel token => ∀ scope ∈ token.lineage, scope < cache.clock.scopes.issued
  | _, _ => True

/-- The scopes that callers of the key may cancel to give up. -/
def heardBy (key : String) (cache : Cache V) : List Nat :=
  (cache.calls.toList.filter (Call.isOf key)).flatMap fun call => call.deadline.token.lineage

/-- The keys on which calls were made. -/
def keysUsed (cache : Cache V) : List String :=
  (cache.calls.toList.map Call.key).dedup

variable {key : String} {cache next : Cache V} {event : Event V}

theorem mem_heardBy {scope : Nat} :
    scope ∈ heardBy key cache ↔ ∃ (number : Nat) (call : Call V), cache.calls[number]? = some call ∧ call.key = key ∧
      scope ∈ call.deadline.token.lineage := by
  simp only [heardBy, List.mem_flatMap, List.mem_filter, Array.mem_toList_iff, Array.mem_iff_getElem?, Call.isOf,
    beq_iff_eq]
  constructor
  · rintro ⟨call, ⟨⟨number, present⟩, named⟩, within⟩
    exact ⟨number, call, present, named, within⟩
  · rintro ⟨number, call, present, named, within⟩
    exact ⟨call, ⟨⟨number, present⟩, named⟩, within⟩

theorem mem_keysUsed {name : String} :
    name ∈ keysUsed cache ↔ ∃ (number : Nat) (call : Call V), cache.calls[number]? = some call ∧ call.key = name := by
  simp only [keysUsed, List.mem_dedup, List.mem_map, Array.mem_toList_iff, Array.mem_iff_getElem?]
  constructor
  · rintro ⟨call, ⟨number, present⟩, named⟩
    exact ⟨number, call, present, named⟩
  · rintro ⟨number, call, present, named⟩
    exact ⟨call, ⟨number, present⟩, named⟩

/-- What was heard of is heard of later. -/
theorem heardBy_subset (extended : Extends next cache) : heardBy key cache ⊆ heardBy key next := by
  intro scope member
  obtain ⟨number, call, present, named, within⟩ := mem_heardBy.mp member
  obtain ⟨later, there, follows⟩ := extended.calls number call present
  exact mem_heardBy.mpr ⟨number, later, there, follows.key.trans named, follows.deadline ▸ within⟩

theorem keysUsed_subset (extended : Extends next cache) : keysUsed cache ⊆ keysUsed next := by
  intro name member
  obtain ⟨number, call, present, named⟩ := mem_keysUsed.mp member
  obtain ⟨later, there, follows⟩ := extended.calls number call present
  exact mem_keysUsed.mpr ⟨number, later, there, follows.key.trans named⟩

/-- A call that has begun is there with its key and deadline. -/
theorem begin_call (cache : Cache V) (key : String) (policy : Policy) (deadline : Deadline) :
    ∃ call, (cache.begin key policy deadline).2.calls[cache.calls.size]? = some call ∧ call.key = key ∧
      call.deadline = deadline := by
  obtain ⟨phase, _, calls, _⟩ := begin_opens cache key policy deadline
  rw [calls]
  exact ⟨_, Array.getElem?_push_size, rfl, rfl⟩

namespace Clear

theorem of_outside {scope : Nat} (rooted : Rooted cache) (outside : cache.Outside ⟨[scope]⟩) : cache.Clear key scope := by
  refine ⟨outside.issued scope (List.mem_singleton_self _), fun number flight present within => ?_⟩
  obtain ⟨own, token, _⟩ := rooted.root number flight present
  have apart := outside.noFlight flight (Array.mem_of_getElem? present)
  rw [token] at within apart
  exact absurd (congrArg some (List.mem_singleton.mp within).symm) apart

/-- New flights have new scopes. -/
theorem step {scope : Nat} (clear : cache.Clear key scope) (rooted' : Rooted next)
    (step : cache.step? event = some next) : next.Clear key scope := by
  by_cases outside : cache.Outside ⟨[scope]⟩
  · exact of_outside rooted' (outside.step step)
  · obtain ⟨flight, member, same⟩ : ∃ flight ∈ cache.flights, flight.token.lineage.head? = some scope := by
      by_contra none
      refine outside ⟨fun other member => ?_, fun flight member same => none ⟨flight, member, same⟩⟩
      exact List.mem_singleton.mp member ▸ clear.issued
    obtain ⟨number, present⟩ := Array.mem_iff_getElem?.mp member
    obtain ⟨later, there, follows⟩ := (Extends.step step).flights number flight present
    obtain ⟨own, token, issued⟩ := rooted'.root number later there
    have inside : scope = own := by
      rw [← follows.token, token] at same
      exact (Option.some.inj same).symm
    subst inside
    refine ⟨issued, fun other found present' within => ?_⟩
    obtain ⟨own, token', _⟩ := rooted'.root other found present'
    rw [token'] at within
    obtain rfl := List.mem_singleton.mp within
    obtain rfl := rooted'.distinct number other later found there present' (token.trans token'.symm)
    obtain rfl := Option.some.inj (there.symm.trans present')
    refine follows.key.trans (clear.own number flight present ?_)
    rw [← follows.token, token]
    exact List.mem_singleton_self _

end Clear

/-- Looking for a flight leaves every flight with a scope of its own. -/
private theorem rooted_staleFlight? (rooted : Rooted cache) {slot : Nat} (policy : Policy)
    (known : cache.keys.lookup key = some slot) : Rooted (cache.staleFlight? key slot policy).2 :=
  rooted.moves ((staleFlight?_strides cache key slot policy).moves known)

/-- A call that waits within a soft bound has a new scope for it. -/
theorem beginStale_soft {call added : Call V} {waited : Nat} {soft : Deadline} {fallback : V} (rooted : Rooted cache)
    (entry : Entry V) (known : cache.keys.lookup call.key = some call.slot)
    (present : (cache.beginStale call entry).2.calls[cache.calls.size]? = some added)
    (phase : added.phase = .stale waited soft fallback) :
    ∃ own, soft.token.lineage = own :: call.deadline.token.lineage ∧
      (cache.beginStale call entry).2.Outside ⟨[own]⟩ := by
  have counted : Rooted (cache.count fun stats => { stats with staleHits := stats.staleHits + 1 }) :=
    rooted.of_frame (Nat.le_refl _) rfl
  have rooted' := rooted_staleFlight? counted call.policy known
  have size := congrArg Array.size (staleFlight?_calls
    (cache.count fun stats => { stats with staleHits := stats.staleHits + 1 }) call.key call.slot call.policy).1
  unfold beginStale at present ⊢
  simp only at present ⊢
  generalize staleFlight? (cache.count _) _ _ _ = found at size rooted' present ⊢
  rcases found with ⟨_ | flight, next⟩
  · have last : next.calls.size = cache.calls.size := size
    simp only [addCall, ← last, Array.getElem?_push_size, Option.some.injEq] at present
    rw [← present] at phase
    contradiction
  · have last : next.calls.size = cache.calls.size := size
    simp only at rooted' present ⊢
    split at present
    · simp only [addCall, leave_calls, detach, modifyFlight, ← last, Array.getElem?_push_size,
        Option.some.injEq] at present
      rw [← present] at phase
      contradiction
    · next waits =>
      simp only [addCall, ← last, Array.getElem?_push_size, Option.some.injEq] at present
      rw [if_neg waits]
      rw [← present] at phase
      cases phase
      refine ⟨next.clock.scopes.issued, rfl, ?_, fun other member same => ?_⟩
      · exact fun scope member => List.mem_singleton.mp member ▸ Nat.lt_succ_self _
      · obtain ⟨number, there⟩ := Array.mem_iff_getElem?.mp member
        obtain ⟨own, token, issued⟩ := rooted'.root number other there
        rw [token] at same
        exact absurd (Option.some.inj same) (Nat.ne_of_lt issued)

theorem begin_soft {added : Call V} {policy : Policy} {deadline soft : Deadline} {waited : Nat} {fallback : V}
    (rooted : Rooted cache) (present : (cache.begin key policy deadline).2.calls[cache.calls.size]? = some added)
    (phase : added.phase = .stale waited soft fallback) :
    ∃ own, soft.token.lineage = own :: deadline.token.lineage ∧
      (cache.begin key policy deadline).2.Outside ⟨[own]⟩ := by
  obtain ⟨_, _, calls, _⟩ := touch_frame cache key
  have rooted' := rooted.moves (touch_moves cache key [])
  rcases begin_cases cache key policy deadline with ⟨entry, _, _, same⟩ | ⟨entry, _, _, _, _, same⟩ | ⟨_, same⟩
  · rw [same, (beginHit_call ..).2, ← calls, Array.getElem?_push_size] at present
    rw [← Option.some.inj present] at phase
    contradiction
  · rw [same] at present ⊢
    exact beginStale_soft rooted' entry (lookup_touch cache key) (calls ▸ present) phase
  · rw [same, (beginCold_call ..).2, ← calls, Array.getElem?_push_size] at present
    rw [← Option.some.inj present] at phase
    contradiction

/-- The callers of the key and the soft bounds of its calls have scopes that are those of no other key's flights. -/
structure Apart (key : String) (cache : Cache V) : Prop where
  deadline : ∀ (number : Nat) (call : Call V), cache.calls[number]? = some call → call.key = key →
    ∀ scope ∈ call.deadline.token.lineage, cache.Clear key scope
  soft : ∀ (number waited : Nat) (call : Call V) (soft : Deadline) (fallback : V), cache.calls[number]? = some call →
    call.key = key → call.phase = .stale waited soft fallback →
      ∃ own, soft.token.lineage = own :: call.deadline.token.lineage ∧ cache.Clear key own

theorem Apart.step (apart : Apart key cache) (rooted : Rooted cache) (allowed : Separate key cache event)
    (step : cache.step? event = some next) : Apart key next := by
  have rooted' := rooted.step step
  constructor
  · intro number call present named scope within
    refine Clear.step ?_ rooted' step
    cases step_cameFrom step present with
    | same there => exact apart.deadline number call there named scope within
    | answered there _ same =>
      subst same
      exact apart.deadline number _ there named scope within
    | dropped there same =>
      subst same
      exact apart.deadline number _ there named scope within
    | begun _ _ same =>
      subst same
      exact allowed named scope within
  · intro number waited call soft fallback present named phase
    cases step_cameFrom step present with
    | same there =>
      obtain ⟨own, lineage, clear⟩ := apart.soft number waited call soft fallback there named phase
      exact ⟨own, lineage, clear.step rooted' step⟩
    | answered _ _ same =>
      subst same
      contradiction
    | dropped _ same =>
      subst same
      contradiction
    | begun last _ same =>
      cases step
      obtain ⟨own, lineage, outside⟩ := begin_soft rooted (last ▸ present) phase
      subst same
      exact ⟨own, lineage, .of_outside rooted' outside⟩

theorem Reachable.apart (reachable : Reachable (Separate key) cache) : Apart key cache := by
  have both : Rooted cache ∧ Apart key cache := by
    refine @Reachable.invariant V (Separate key) cache (fun cache => Rooted cache ∧ Apart key cache) reachable ?_ ?_
    · exact fun _ _ _ ⟨rooted, apart⟩ allowed step => ⟨rooted.step step, apart.step rooted allowed step⟩
    · intro maxEntries
      refine ⟨⟨?_, ?_⟩, ?_, ?_⟩
      · simp [empty]
      · simp [empty]
      · simp [empty]
      · simp [empty]
  exact both.2

/-- What the key has to do with is none of other keys' flights. -/
theorem Apart.concerns (apart : Apart key cache) (rooted : Rooted cache) {heard : Nat → Prop} {scope : Nat}
    (concerns : Concerns key heard cache.flights cache.calls scope) : heard scope ∨ cache.Clear key scope := by
  cases concerns with
  | heard own => exact .inl own
  | @flight number found present own within =>
    refine .inr ⟨rooted.known present scope within, fun other found' present' within' => ?_⟩
    obtain ⟨root, token, _⟩ := rooted.root number found present
    obtain ⟨root', token', _⟩ := rooted.root other found' present'
    rw [token] at within
    rw [token'] at within'
    obtain rfl := List.mem_singleton.mp within
    obtain rfl := List.mem_singleton.mp within'
    obtain rfl := rooted.distinct number other found found' present present' (token.trans token'.symm)
    obtain rfl := Option.some.inj (present.symm.trans present')
    exact beq_iff_eq.mp own
  | @soft number waited call soft fallback present own phase within =>
    have named : call.key = key := beq_iff_eq.mp own
    obtain ⟨root, lineage, clear⟩ := apart.soft number waited call soft fallback present named phase
    rw [lineage] at within
    rcases List.mem_cons.mp within with rfl | outer
    · exact .inr clear
    · exact .inr (apart.deadline number call present named scope outer)

/-- Every key in the cache was called. -/
theorem Reachable.called {rule : Rule V} (reachable : Reachable rule cache) :
    ∀ pair ∈ cache.keys, pair.1 ∈ keysUsed cache := by
  refine @Reachable.invariant V rule cache (fun cache => ∀ pair ∈ cache.keys, pair.1 ∈ keysUsed cache) reachable ?_ ?_
  · intro cache event next called _ step pair member
    have used := keysUsed_subset (.step step)
    by_cases inserts : Inserts cache event
    · obtain ⟨key, policy, deadline, rfl, absent⟩ := inserts
      cases step
      rw [begin_keys_of_absent absent] at member
      rcases List.mem_append.mp member with old | new
      · exact used (called pair (makeRoom_keys_subset cache old))
      · rw [List.mem_singleton.mp new]
        obtain ⟨call, present, named, _⟩ := begin_call cache key policy deadline
        exact mem_keysUsed.mpr ⟨_, call, present, named⟩
    · exact used (called pair ((step_keys step inserts).subset member))
  · intro maxEntries
    simp [empty]

/-- What is said of all events together: of which scopes the callers of the key hear, that none of these is that of
another key's flight, and that there is room for all keys. -/
structure Foreseen (key : String) (heard : List Nat) (cache : Cache V) : Prop where
  heeds : heardBy key cache ⊆ heard
  own : ∀ scope ∈ heard, ∀ (number : Nat) (flight : Flight V), cache.flights[number]? = some flight →
    scope ∈ flight.token.lineage → flight.key = key
  few : (keysUsed cache).length ≤ cache.maxEntries

theorem Reachable.foreseen (reachable : Reachable (Separate key) cache)
    (few : (keysUsed cache).length ≤ cache.maxEntries) : Foreseen key (heardBy key cache) cache := by
  refine ⟨List.Subset.refl _, fun scope member number flight present within => ?_, few⟩
  obtain ⟨caller, call, there, named, heard⟩ := mem_heardBy.mp member
  exact (reachable.apart.deadline caller call there named scope heard).own number flight present within

namespace Foreseen

variable {heard : List Nat}

/-- What can be said of the end can be said from the beginning. -/
theorem before (foreseen : Foreseen key heard next) (step : cache.step? event = some next) :
    Foreseen key heard cache := by
  have extended := Extends.step step
  refine ⟨fun scope member => foreseen.heeds (heardBy_subset extended member),
    fun scope member number flight present within => ?_, ?_⟩
  · obtain ⟨later, there, follows⟩ := extended.flights number flight present
    exact follows.key.symm.trans (foreseen.own scope member number later there (follows.token ▸ within))
  · have fewer : (keysUsed cache).length ≤ (keysUsed next).length :=
      (List.subperm_of_subset (List.nodup_dedup _) (keysUsed_subset extended)).length_le
    rw [← step_maxEntries step]
    exact Nat.le_trans fewer foreseen.few

theorem back {rule : Rule V} (run : Run rule cache next) (foreseen : Foreseen key heard next) :
    Foreseen key heard cache := by
  induction run with
  | nil => exact foreseen
  | snoc _ _ step ih => exact ih (foreseen.before step)

/-- A call on a new key drops no other one. -/
theorem room {rule : Rule V} {other : String} (foreseen : Foreseen key heard next) (reachable : Reachable rule cache)
    (step : cache.step? event = some next) (asks : event.asker.map Prod.fst = some other)
    (absent : cache.keys.lookup other = none) : cache.keys.length < cache.maxEntries := by
  have used : other ∈ keysUsed next := by
    cases event with
    | begin name policy deadline =>
      obtain rfl : name = other := Option.some.inj asks
      cases step
      obtain ⟨call, present, named, _⟩ := begin_call cache name policy deadline
      exact mem_keysUsed.mpr ⟨_, call, present, named⟩
    | _ => contradiction
  have distinct : (other :: cache.keys.map Prod.fst).Nodup := by
    refine List.nodup_cons.mpr ⟨fun member => ?_, reachable.placed.keys_nodup⟩
    obtain ⟨pair, there, rfl⟩ := List.mem_map.mp member
    simpa using List.lookup_eq_none_iff.mp absent pair there
  have all : other :: cache.keys.map Prod.fst ⊆ keysUsed next := by
    intro name member
    rcases List.mem_cons.mp member with rfl | old
    · exact used
    · obtain ⟨pair, there, rfl⟩ := List.mem_map.mp old
      exact keysUsed_subset (.step step) (reachable.called pair there)
  have fits := (List.subperm_of_subset distinct all).length_le
  rw [List.length_cons, List.length_map] at fits
  rw [← step_maxEntries step]
  exact Nat.lt_of_lt_of_le fits foreseen.few

end Foreseen

end HedgedForecast.Cache
