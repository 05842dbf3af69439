import HedgedForecast.Proofs.Cache.MirroredEvents
import HedgedForecast.Proofs.Cache.Separation

/-! # Keys are isolated

If a cache is meant for as many keys as are used, nothing that is done with one key can be seen from another one.
Take what happens in a cache and leave out all that is done with other keys: the calls on them, the turns of these
calls and of their flights, callers who go away or cancel, and removals. The rest can still happen, event by event,
and the calls on the one key are told the same at the same times, while its computations begin and end as before.
Only the numbers of slots, flights and calls are others. The names of scopes are kept, so a call that is left out
still leaves its scopes behind.
-/

namespace HedgedForecast.Cache

variable {V : Type}

/-- Each event is allowed in the state in which it comes. -/
def Obeys (rule : Rule V) : Cache V → List (Event V) → Prop
  | _, [] => True
  | cache, event :: events => rule cache event ∧ ∀ next, cache.step? event = some next → Obeys rule next events

/-- The scopes within which the key's computations run and its calls bound their waits. -/
def scopesOf (key : String) (cache : Cache V) : List Nat :=
  ((cache.flights.toList.filter (Flight.isOf key)).flatMap fun flight => flight.token.lineage) ++
    (cache.calls.toList.filter (Call.isOf key)).flatMap fun call =>
      match call.phase with
      | .stale _ soft _ => soft.token.lineage
      | _ => []

/-- Whether the event has to do with the key: it is about the key or about none, or it cancels a scope that callers
of the key hear of or that is one of the key's own. -/
def Event.isOn (key : String) (heard : List Nat) (cache : Cache V) : Event V → Bool
  | .cancel token => token.lineage.head?.any fun scope => heard.contains scope || (cache.scopesOf key).contains scope
  | event => (event.key? cache).all (· == key)

/-- The event with the numbers that flights and calls have among those of the key. -/
def Event.renumber (key : String) (cache : Cache V) : Event V → Event V
  | .flight number work => .flight (rank (Flight.isOf key) cache.flights number) work
  | .call number => .call (rank (Call.isOf key) cache.calls number)
  | .drop number => .drop (rank (Call.isOf key) cache.calls number)
  | event => event

/-- What is left of an event: itself, or only the scopes that it makes. -/
def Event.kept (key : String) (heard : List Nat) (cache next : Cache V) (event : Event V) : List (Event V) :=
  if event.isOn key heard cache then [event.renumber key cache]
  else List.replicate (next.clock.scopes.issued - cache.clock.scopes.issued) (.scope none)

/-- What is left of events when all is left out that is done with other keys. -/
def prune (key : String) (heard : List Nat) : Cache V → List (Event V) → List (Event V)
  | _, [] => []
  | cache, event :: events =>
    match cache.step? event with
    | some next => event.kept key heard cache next ++ prune key heard next events
    | none => []

variable {key : String} {cache next : Cache V} {event : Event V}

theorem mem_scopesOf {scope : Nat} :
    scope ∈ cache.scopesOf key ↔
      (∃ (number : Nat) (flight : Flight V), cache.flights[number]? = some flight ∧ flight.isOf key = true ∧
        scope ∈ flight.token.lineage) ∨
      ∃ (number waited : Nat) (call : Call V) (soft : Deadline) (fallback : V), cache.calls[number]? = some call ∧
        call.isOf key = true ∧ call.phase = .stale waited soft fallback ∧ scope ∈ soft.token.lineage := by
  simp only [scopesOf, List.mem_append, List.mem_flatMap, List.mem_filter, Array.mem_toList_iff,
    Array.mem_iff_getElem?]
  apply or_congr
  · constructor
    · rintro ⟨flight, ⟨⟨number, present⟩, own⟩, within⟩
      exact ⟨number, flight, present, own, within⟩
    · rintro ⟨number, flight, present, own, within⟩
      exact ⟨flight, ⟨⟨number, present⟩, own⟩, within⟩
  · constructor
    · rintro ⟨call, ⟨⟨number, present⟩, own⟩, within⟩
      cases phase : call.phase <;> simp only [phase, List.not_mem_nil] at within
      exact ⟨number, _, call, _, _, present, own, phase, within⟩
    · rintro ⟨number, waited, call, soft, fallback, present, own, phase, within⟩
      exact ⟨call, ⟨⟨number, present⟩, own⟩, by simpa only [phase] using within⟩

/-- The key has to do with no other scopes. -/
theorem mem_of_concerns {heard : List Nat} {scope : Nat}
    (concerns : Concerns key (· ∈ heard) cache.flights cache.calls scope) :
    scope ∈ heard ∨ scope ∈ cache.scopesOf key := by
  cases concerns with
  | heard own => exact .inl own
  | flight present own within => exact .inr (mem_scopesOf.mpr (.inl ⟨_, _, present, own, within⟩))
  | soft present own phase within => exact .inr (mem_scopesOf.mpr (.inr ⟨_, _, _, _, _, present, own, phase, within⟩))

/-- An event that has nothing to do with the key is about another key or cancels a scope. -/
theorem Event.exists_key?_of_off {heard : List Nat} (off : event.isOn key heard cache = false)
    (other : ∀ token, event ≠ .cancel token) : ∃ name, event.key? cache = some name ∧ name ≠ key := by
  have about : (event.key? cache).all (· == key) = false := by
    cases event with
    | cancel token => exact absurd rfl (other token)
    | _ => exact off
  cases named : event.key? cache with
  | none => simp [named] at about
  | some name => exact ⟨name, rfl, by simpa [named] using about⟩

namespace Mirrors

variable {heard : List Nat} {part : Cache V}

/-- Time passes in both caches. -/
theorem pass (mirrors : Mirrors key (· ∈ heard) cache part) (instant : Nat) :
    Mirrors key (· ∈ heard) { cache with clock := cache.clock.moveTo instant }
      { part with clock := part.clock.moveTo instant } :=
  ⟨mirrors.clock.moveTo instant, mirrors.room, mirrors.keys, mirrors.slots, mirrors.flights, mirrors.calls,
    mirrors.deadlines⟩

section

variable (mirrors : Mirrors key (· ∈ heard) cache part) (reachable : Reachable (Separate key) cache)
  (allowed : Separate key cache event) (step : cache.step? event = some next) (foreseen : Foreseen key heard next)

include mirrors reachable allowed step foreseen

/-- An event that has to do with the key happens in both caches. -/
theorem on (concerned : event.isOn key heard cache = true) :
    ∃ part', part.step? (event.renumber key cache) = some part' ∧ Mirrors key (· ∈ heard) next part' := by
  cases event with
  | begin other policy deadline =>
    obtain rfl : other = key := beq_iff_eq.mp concerned
    have room := foreseen.room reachable step rfl
    cases step
    obtain ⟨call, present, named, same⟩ := begin_call cache other policy deadline
    refine ⟨_, rfl, mirrors.begin room policy fun scope within => foreseen.heeds ?_⟩
    exact mem_heardBy.mpr ⟨_, call, present, named, same ▸ within⟩
  | flight number work =>
    obtain ⟨found, present, _⟩ := turnFlight?_eq_some_iff.mp step
    simp only [Event.isOn, Event.key?, present, Option.map_some, Option.all_some] at concerned
    exact mirrors.turnFlight? (fun _ => reachable.regular) (.of_present present concerned) step
  | call number =>
    obtain ⟨found, present, _⟩ := turnCall?_eq_some_iff.mp step
    simp only [Event.isOn, Event.key?, present, Option.map_some, Option.all_some] at concerned
    exact mirrors.turnCall? reachable.rooted (.of_present present concerned) step
  | drop number =>
    cases step
    cases present : cache.calls[number]? with
    | some call =>
      simp only [Event.isOn, Event.key?, present, Option.map_some, Option.all_some] at concerned
      exact ⟨_, rfl, mirrors.dropCall reachable.rooted (.of_present present concerned)⟩
    | none =>
      have beyond := rank_beyond (Call.isOf key) (Nat.le_refl _) (Array.getElem?_eq_none_iff.mp present)
      have absent : part.calls[rank (Call.isOf key) cache.calls number]? = none := by
        rw [beyond, ← mirrors.calls.size]
        exact Array.getElem?_size
      refine ⟨part, ?_, ?_⟩
      · simp only [Event.renumber, Cache.step?, Cache.dropCall, absent]
      · simp only [Cache.dropCall, present]
        exact mirrors
  | purge =>
    cases step
    exact ⟨_, rfl, mirrors.purge reachable.placed⟩
  | remove other =>
    obtain rfl : other = key := beq_iff_eq.mp concerned
    cases step
    exact ⟨_, rfl, mirrors.dropKey⟩
  | pass instant =>
    cases step
    exact ⟨_, rfl, mirrors.pass instant⟩
  | scope parent => cases parent <;> exact ⟨_, rfl, mirrors.scope _ step rfl⟩
  | cancel token =>
    cases step
    exact ⟨_, rfl, mirrors.cancel allowed⟩

/-- An event that has nothing to do with the key need not happen in the other cache. -/
theorem off (unconcerned : event.isOn key heard cache = false) :
    Mirrors key (· ∈ heard) next (part.withScopes (next.clock.scopes.issued - cache.clock.scopes.issued)) := by
  have rooted := reachable.rooted
  have rooted' := rooted.step step
  by_cases cancels : ∃ token, event = .cancel token
  · obtain ⟨token, rfl⟩ := cancels
    cases step
    refine mirrors.elsewhere rfl rfl .refl .refl .refl (Nat.le_refl _) ?_ ?_ ?_
    · exact (mirrors.clock.cancel allowed).bounded
    · exact fun scope member => List.mem_append_right _ member
    · intro scope member
      rcases List.mem_append.mp member with new | old
      · have first : token.lineage.head? = some scope := by
          cases lineage : token.lineage with
          | nil => simp [lineage] at new
          | cons own around => simpa [lineage, eq_comm] using new
        have strange : scope ∉ heard ∧ scope ∉ cache.scopesOf key := by simpa [Event.isOn, first] using unconcerned
        exact .inr fun concerns => (mem_of_concerns concerns).elim strange.1 strange.2
      · exact .inl old
  · obtain ⟨other, about, distinct⟩ := Event.exists_key?_of_off unconcerned fun token same => cancels ⟨token, same⟩
    have confined := confined_step reachable about (fun asks => foreseen.room reachable step asks) step
    have foreign {α : Type} {name : α → String} (item : α) (own : (name item == key) = true) :
        (name item != other) = true := by
      rw [beq_iff_eq.mp own]
      exact bne_iff_ne.mpr distinct.symm
    refine mirrors.elsewhere confined.now (confined.keys key distinct.symm) (confined.slots.weaken foreign)
      (confined.flights.weaken foreign) (confined.calls.weaken foreign) confined.issued ?_ ?_ ?_
    · intro scope member
      rcases confined.cancelled scope member with old | ⟨number, flight, present, _, within⟩
      · exact Nat.lt_of_lt_of_le (mirrors.clock.bounded scope old) confined.issued
      · exact rooted'.known present scope within
    · intro scope member
      have cancelled := confined.extended.cancelled ⟨[scope]⟩ ((isCancelled_singleton ..).mpr member)
      exact (isCancelled_singleton ..).mp cancelled
    · intro scope member
      rcases confined.cancelled scope member with old | ⟨number, flight, present, named, within⟩
      · exact .inl old
      · refine .inr fun concerns => distinct ?_
        rw [← named]
        rcases reachable.apart.concerns rooted concerns with own | clear
        · exact foreseen.own scope own number flight present within
        · exact (clear.step rooted' step).own number flight present within

end

end Mirrors

namespace Obeys

variable {rule : Rule V} {source target : Cache V} {events more : List (Event V)}

theorem run (obeys : Obeys rule source events) (steps : events.foldlM step? source = some target) :
    Run rule source target := by
  induction events generalizing source with
  | nil =>
    cases steps
    exact .nil
  | cons event events ih =>
    obtain ⟨middle, step, rest⟩ := Option.bind_eq_some_iff.mp steps
    have first : Run rule source middle := .single obeys.1 step
    exact first.append (ih (obeys.2 middle step) rest)

theorem append (first : Obeys rule source events) (steps : events.foldlM step? source = some target)
    (second : Obeys rule target more) : Obeys rule source (events ++ more) := by
  induction events generalizing source with
  | nil =>
    cases steps
    exact second
  | cons event events ih =>
    obtain ⟨middle, step, rest⟩ := Option.bind_eq_some_iff.mp steps
    refine ⟨first.1, fun next step' => ?_⟩
    obtain rfl := Option.some.inj (step.symm.trans step')
    exact ih (first.2 middle step) rest

/-- Events that are allowed in every state are allowed one after the other. -/
theorem of_always (always : ∀ event ∈ events, ∀ cache, rule cache event) : Obeys rule source events := by
  induction events generalizing source with
  | nil => trivial
  | cons event events ih =>
    have later : ∀ event ∈ events, ∀ cache, rule cache event :=
      fun event member => always event (List.mem_cons_of_mem _ member)
    exact ⟨always event (List.mem_cons_self ..) source, fun _ _ => ih later⟩

end Obeys

/-- So many scopes are made. -/
theorem foldlM_scopes (cache : Cache V) (count : Nat) :
    (List.replicate count (Event.scope none)).foldlM step? cache = some (cache.withScopes count) := by
  induction count generalizing cache with
  | zero => rfl
  | succ count ih =>
    have first : cache.step? (.scope none) = some (cache.withScopes 1) := rfl
    have sum : (cache.withScopes 1).withScopes count = cache.withScopes (count + 1) := by
      simp only [withScopes, Nat.add_assoc, Nat.add_comm 1]
    rw [List.replicate_succ, List.foldlM_cons, first, ← sum]
    exact ih _

/-- The event has to do with the key. -/
def Only (key : String) (heard : List Nat) : Rule V
  | cache, event => event.isOn key heard cache = true

/-- If an event obeys one rule in a cache, it obeys the other one in those that mirror the key. -/
structure Carried (key : String) (heard : List Nat) (rule rule' : Rule V) : Prop where
  scopes : ∀ cache, rule' cache (.scope none)
  event : ∀ {cache part : Cache V} {event : Event V}, Reachable (Separate key) cache →
    Mirrors key (· ∈ heard) cache part → Only key heard cache event → rule cache event →
      rule' part (event.renumber key cache)

namespace Mirrors

variable {heard : List Nat} {part target : Cache V} {events : List (Event V)}

/-- Everything in the other cache is the key's, so no scope there is that of another key's flight. -/
theorem clear (mirrors : Mirrors key (· ∈ heard) cache part) {scope : Nat} (clear : cache.Clear key scope) :
    part.Clear key scope := by
  refine ⟨mirrors.clock.issued ▸ clear.issued, fun number flight present _ => ?_⟩
  obtain ⟨_, found, _, own, mirrored⟩ := mirrors.flights.back present
  rw [mirrored.same]
  exact beq_iff_eq.mp own

/-- The key's own scopes are its own in the other cache, too. -/
theorem scopesOf_subset (mirrors : Mirrors key (· ∈ heard) cache part) : cache.scopesOf key ⊆ part.scopesOf key := by
  intro scope member
  rcases mem_scopesOf.mp member with
    ⟨number, flight, present, own, within⟩ | ⟨number, waited, call, soft, fallback, present, own, phase, within⟩
  · obtain ⟨other, there, mirrored⟩ := mirrors.flights.pair number flight present own
    rw [mirrored.same] at there
    exact mem_scopesOf.mpr (.inl ⟨_, _, there, own, within⟩)
  · obtain ⟨other, there, mirrored⟩ := mirrors.calls.pair number call present own
    obtain ⟨waited', after, _⟩ := mirrored.of_stale phase
    have own' : other.isOf key = true := by rw [mirrored.same]; exact own
    exact mem_scopesOf.mpr (.inr ⟨_, _, other, soft, fallback, there, own', after, within⟩)

/-- What callers of the key may do, they may do in the other cache. -/
theorem separate (mirrors : Mirrors key (· ∈ heard) cache part) (allowed : Separate key cache event) :
    Separate key part (event.renumber key cache) := by
  cases event with
  | begin other policy deadline => exact fun same scope within => mirrors.clear (allowed same scope within)
  | cancel token => exact fun scope within => mirrors.clock.issued ▸ allowed scope within
  | _ => trivial

/-- A scope that is not that of a flight is not that of one in the other cache. -/
theorem lawful (mirrors : Mirrors key (· ∈ heard) cache part) (allowed : Lawful cache event) :
    Lawful part (event.renumber key cache) := by
  cases event with
  | cancel token =>
    refine ⟨mirrors.clock.issued ▸ allowed.issued, fun flight member => ?_⟩
    obtain ⟨number, there⟩ := Array.mem_iff_getElem?.mp member
    obtain ⟨_, found, present, _, mirrored⟩ := mirrors.flights.back there
    rw [mirrored.same]
    exact allowed.noFlight found (Array.mem_of_getElem? present)
  | _ => trivial

/-- If time passes promptly in the cache, it passes promptly in the other one. -/
theorem prompt (mirrors : Mirrors key (· ∈ heard) cache part)
    (regular : ∀ (number : Nat) (flight : Flight V), cache.flights[number]? = some flight → flight.Regular)
    (allowed : Prompt cache event) : Prompt part (event.renumber key cache) := by
  cases event with
  | pass instant => exact ⟨mirrors.settled regular allowed.1, fun timer member => allowed.2 timer (mirrors.timers member)⟩
  | _ => trivial

/-- What has to do with the key still does so in the other cache. -/
theorem only (mirrors : Mirrors key (· ∈ heard) cache part) (concerned : Only key heard cache event) :
    Only key heard part (event.renumber key cache) := by
  have ownFlight (number : Nat) : (part.flights[number]?.map Flight.key).all (· == key) = true := by
    cases present : part.flights[number]? with
    | none => rfl
    | some flight =>
      obtain ⟨_, found, _, own, mirrored⟩ := mirrors.flights.back present
      rw [mirrored.same]
      exact own
  have ownCall (number : Nat) : (part.calls[number]?.map Call.key).all (· == key) = true := by
    cases present : part.calls[number]? with
    | none => rfl
    | some call =>
      obtain ⟨_, found, _, own, mirrored⟩ := mirrors.calls.back present
      rw [mirrored.same]
      exact own
  cases event with
  | flight number work => exact ownFlight _
  | call number => exact ownCall _
  | drop number => exact ownCall _
  | cancel token =>
    obtain ⟨scope, first, member⟩ := (Option.any_eq_true ..).mp concerned
    refine (Option.any_eq_true ..).mpr ⟨scope, first, ?_⟩
    simp only [Bool.or_eq_true, List.contains_iff_mem] at member ⊢
    exact member.imp_right fun own => mirrors.scopesOf_subset own
  | _ => exact concerned

/-- What is left of an event obeys a rule if the event does, where scopes may always be made. -/
theorem kept_obeys {rule : Rule V} (scopes : ∀ cache, rule cache (.scope none))
    (same : Only key heard cache event → rule part (event.renumber key cache)) :
    Obeys rule part (event.kept key heard cache next) := by
  unfold Event.kept
  split
  · next concerned => exact ⟨same concerned, fun _ _ => trivial⟩
  · refine .of_always fun event member cache => ?_
    rw [List.eq_of_mem_replicate member]
    exact scopes cache

/-- What is left of an event leads on. -/
theorem step (mirrors : Mirrors key (· ∈ heard) cache part) (reachable : Reachable (Separate key) cache)
    (allowed : Separate key cache event) (step : cache.step? event = some next) (foreseen : Foreseen key heard next) :
    ∃ part', (event.kept key heard cache next).foldlM step? part = some part' ∧
      Mirrors key (· ∈ heard) next part' := by
  cases concerned : event.isOn key heard cache with
  | true =>
    obtain ⟨part', step', mirrors'⟩ := mirrors.on reachable allowed step foreseen concerned
    refine ⟨part', ?_, mirrors'⟩
    rw [Event.kept, if_pos concerned, List.foldlM_cons, step']
    rfl
  | false =>
    refine ⟨_, ?_, mirrors.off reachable allowed step foreseen concerned⟩
    rw [Event.kept, concerned]
    exact foldlM_scopes part _

/-- What is left of all events leads to a cache that still mirrors the key, and obeys the rules that are carried over. -/
theorem steps (mirrors : Mirrors key (· ∈ heard) cache part) (reachable : Reachable (Separate key) cache)
    (obeys : Obeys (Separate key) cache events) (steps : events.foldlM step? cache = some target)
    (foreseen : Foreseen key heard target) :
    ∃ part', (prune key heard cache events).foldlM step? part = some part' ∧ Mirrors key (· ∈ heard) target part' ∧
      ∀ rule rule', Carried key heard rule rule' → Obeys rule cache events →
        Obeys rule' part (prune key heard cache events) := by
  induction events generalizing cache part with
  | nil =>
    cases steps
    exact ⟨part, rfl, mirrors, fun _ _ _ _ => trivial⟩
  | cons event events ih =>
    obtain ⟨middle, step, rest⟩ := Option.bind_eq_some_iff.mp steps
    have later := obeys.2 middle step
    obtain ⟨next, leads, mirrors'⟩ := mirrors.step reachable obeys.1 step (foreseen.back (later.run rest))
    obtain ⟨part', leads', mirrored, kept⟩ := ih mirrors' (reachable.step obeys.1 step) later rest
    have left : prune key heard cache (event :: events) =
        event.kept key heard cache middle ++ prune key heard middle events := by
      simp only [prune, step]
    rw [left]
    refine ⟨part', ?_, mirrored, fun rule rule' carried obeyed => ?_⟩
    · rw [List.foldlM_append, leads]
      exact leads'
    · have first : Obeys rule' part (event.kept key heard cache middle) :=
        kept_obeys carried.scopes fun concerned => carried.event reachable mirrors concerned obeyed.1
      exact first.append leads (kept rule rule' carried (obeyed.2 middle step))

end Mirrors

/-- The other call was made at the same time with the same question and stands where this one does; if it has been
answered, it was told the same at the same time. -/
structure Alike (call other : Call V) : Prop where
  question : ∀ number, other.question number = call.question number
  waits : other.flight?.isSome = call.flight?.isSome
  dropped : other.phase = .dropped ↔ call.phase = .dropped
  told : ∀ result instant, other.phase = .returned result instant ↔ call.phase = .returned result instant

theorem alike_of_mirrors {slots flights : Nat → Nat → Prop} {call other : Call V}
    (mirrors : call.Mirrors slots flights other) : Alike call other := by
  refine ⟨fun number => by rw [mirrors.same]; rfl, ?_, mirrors.dropped_iff, fun _ _ => mirrors.returned_iff⟩
  unfold Call.flight?
  have phases := mirrors.phase
  generalize call.phase = phase, other.phase = phase' at phases
  cases phases <;> rfl

/-- In a new cache there is nothing of any key. -/
theorem Mirrors.empty (key : String) (heard : Nat → Prop) (maxEntries : Nat) :
    Mirrors key heard (Cache.empty maxEntries : Cache V) (Cache.empty maxEntries) := by
  refine ⟨⟨rfl, rfl, ?_, ?_, ?_⟩, Nat.lt_of_lt_of_le Nat.zero_lt_one (Nat.le_max_right ..), .inl ⟨rfl, rfl⟩,
    ⟨rfl, ?_⟩, ⟨rfl, ?_⟩, ⟨rfl, ?_⟩, ?_⟩ <;> simp [Cache.empty]

/-- Nothing that is done with other keys can be seen from the key, if there is room for all keys that are used: the
rest of the events has to do with the key only and can happen without the others, under the same rules. Then the calls
on the key, and no others, are there and are told the same at the same times, and the key's computations, and no
others, began and ended at the same times and in the same ways. -/
theorem isolated_of_run {maxEntries : Nat} {events : List (Event V)}
    (obeys : Obeys (Separate key) (empty maxEntries) events)
    (run : events.foldlM step? (empty maxEntries) = some cache) (few : cache.keysUsed.length ≤ cache.maxEntries) :
    let rest := prune key (cache.heardBy key) (empty maxEntries) events
    ∃ part, rest.foldlM step? (empty maxEntries) = some part ∧ part.clock.now = cache.clock.now ∧
      Matches (Call.isOf key) Alike cache.calls part.calls ∧
      Matches (Flight.isOf key) (fun flight other => other = { flight with slot := other.slot }) cache.flights
        part.flights ∧
      Obeys (Only key (cache.heardBy key)) (empty maxEntries) rest ∧
      ∀ rule ∈ [Lawful, Prompt, Separate key], Obeys rule (empty maxEntries) events →
        Obeys rule (empty maxEntries) rest := by
  intro rest
  have reachable : Reachable (Separate key) cache := ⟨maxEntries, obeys.run run⟩
  obtain ⟨part, leads, mirrors, carries⟩ := (Mirrors.empty key (· ∈ cache.heardBy key) maxEntries).steps
    ⟨maxEntries, .nil⟩ obeys run (reachable.foreseen few)
  refine ⟨part, leads, mirrors.clock.now, mirrors.calls.mono fun _ _ _ _ mirrored => alike_of_mirrors mirrored,
    mirrors.flights.mono fun _ _ _ _ mirrored => mirrored.same, ?_, fun rule member obeyed => ?_⟩
  · exact carries _ _ ⟨fun _ => rfl, fun _ mirrors concerned _ => mirrors.only concerned⟩ obeys
  · simp only [List.mem_cons, List.not_mem_nil, or_false] at member
    rcases member with rfl | rfl | rfl
    · exact carries _ _ ⟨fun _ => trivial, fun _ mirrors _ => mirrors.lawful⟩ obeyed
    · exact carries _ _ ⟨fun _ => trivial, fun reachable mirrors _ => mirrors.prompt fun _ _ => reachable.regular⟩ obeyed
    · exact carries _ _ ⟨fun _ => trivial, fun _ mirrors _ => mirrors.separate⟩ obeyed

/-- Two callers ask for a value each; the second one is told first, and its key is dropped then. -/
def crossed : List (Event Nat) :=
  [.scope none, .scope none, .begin "Oslo" lenient ⟨5000, ⟨[0]⟩⟩, .begin "Rome" lenient ⟨5000, ⟨[1]⟩⟩,
    .flight 0 none, .flight 1 none, .flight 1 (some (.value 7)), .call 1, .remove "Rome", .pass 10,
    .flight 0 (some (.value 5)), .call 0]

def crossedOut : Cache Nat := (crossed.foldlM step? (empty 2)).getD (empty 2)

theorem isolated_crossed :
    Obeys (Separate "Oslo") (empty 2) crossed ∧ crossed.foldlM step? (empty 2) = some crossedOut ∧
      crossedOut.keysUsed.length ≤ crossedOut.maxEntries ∧
      ∃ (part : Cache Nat) (call : Call Nat),
        (prune "Oslo" (crossedOut.heardBy "Oslo") (empty 2) crossed).foldlM step? (empty 2) = some part ∧
        part.calls[0]? = some call ∧ call.phase = .returned (.ok 5) 10 := by
  have obeys : Obeys (Separate "Oslo") (empty 2) crossed := by
    refine ⟨trivial, ?_⟩
    rintro _ ⟨⟩
    refine ⟨trivial, ?_⟩
    rintro _ ⟨⟩
    refine ⟨fun _ scope within => ?_, fun _ _ => .of_always ?_⟩
    · obtain rfl := List.mem_singleton.mp within
      exact ⟨by decide, fun _ _ present _ => absurd present (by simp [empty])⟩
    · simp [Separate]
  have run : crossed.foldlM step? (empty 2) = some crossedOut := rfl
  have few : crossedOut.keysUsed.length ≤ crossedOut.maxEntries := by decide
  obtain ⟨part, leads, _, calls, _⟩ := isolated_of_run obeys run few
  have told : crossedOut.calls[0]? = some
      ⟨"Oslo", 0, lenient, ⟨5000, ⟨[0]⟩⟩, 0, .returned (.ok 5) 10⟩ := rfl
  obtain ⟨call, present, alike⟩ := calls.pair 0 _ told rfl
  exact ⟨obeys, run, few, part, call, leads, present, (alike.told (.ok 5) 10).mpr rfl⟩

end HedgedForecast.Cache
