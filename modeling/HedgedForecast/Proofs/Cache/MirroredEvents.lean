import HedgedForecast.Proofs.Cache.Mirrors

/-! # The same event in both caches

If a call on the key begins, ends or is given up in a cache and in one that mirrors the key, or a flight of the key
takes its turn in both, or the key is dropped from both, the second cache still mirrors the key. In particular it
can take every turn that the key's calls and flights take in the first one, and with the same result.
-/

namespace HedgedForecast.Cache

/-- The cache after so many more scopes were made. -/
def withScopes {V : Type} (cache : Cache V) (count : Nat) : Cache V :=
  { cache with clock := { cache.clock with scopes :=
      { cache.clock.scopes with issued := cache.clock.scopes.issued + count } } }

namespace Mirrors

variable {V : Type} {key : String} {heard : Nat → Prop} {cache part next : Cache V}
  {slot slot' flight flight' number number' : Nat}

/-- A call finds or makes the slot of the key in both caches. -/
theorem touch (mirrors : Mirrors key heard cache part)
    (room : cache.keys.lookup key = none → cache.keys.length < cache.maxEntries) :
    Mirrors key heard (cache.touch key).2 (part.touch key).2 ∧
      SlotAt key (cache.touch key).2 (cache.touch key).1 (part.touch key).1 := by
  have ticked : Mirrors key heard { cache with tick := cache.tick + 1 } { part with tick := part.tick + 1 } :=
    mirrors.of_frame rfl rfl rfl rfl rfl rfl rfl rfl rfl rfl rfl
  rcases mirrors.keys with ⟨absent, empty⟩ | ⟨slot, slot', known, only, points⟩
  · have spare : { cache with tick := cache.tick + 1 }.makeRoom = { cache with tick := cache.tick + 1 } :=
      makeRoom_of_lt (room absent)
    have spare' : { part with tick := part.tick + 1 }.makeRoom = { part with tick := part.tick + 1 } :=
      makeRoom_of_lt (by simpa [empty] using mirrors.room)
    have absent' : part.keys.lookup key = none := by rw [empty]; rfl
    rw [touch_absent absent, touch_absent absent', spare, spare']
    exact ticked.openSlot absent cache.tick part.tick
  · have known' : part.keys.lookup key = some slot' := by rw [only]; exact List.lookup_cons_self
    have points : SlotAt key { cache with tick := cache.tick + 1 } slot slot' := points
    rw [touch_known known, touch_known known']
    refine ⟨ticked.modifySlot points _ _ (fun _ => rfl) fun _ _ mirrored => ?_,
      slotAt_modifySlot points slot _ fun _ => rfl⟩
    exact ⟨mirrored.key, mirrored.entry, mirrored.flight, mirrored.lastRefresh⟩

/-- The mark that a refresh was started. -/
private theorem mark (mirrors : Mirrors key heard cache part) (points : SlotAt key cache slot slot') :
    Mirrors key heard
      (cache.modifySlot slot fun slot =>
        { slot with entry := slot.entry.map fun entry => { entry with refreshing := true } })
      (part.modifySlot slot' fun slot =>
        { slot with entry := slot.entry.map fun entry => { entry with refreshing := true } }) := by
  refine mirrors.modifySlot points _ _ (fun _ => rfl) fun found other mirrored =>
    ⟨mirrored.key, ?_, mirrored.flight, mirrored.lastRefresh⟩
  have entries := mirrored.entry
  generalize found.entry = entry, other.entry = entry' at entries
  cases entries with
  | none => exact .none
  | some same =>
    refine .some ?_
    rw [same]
    rfl

theorem refreshEagerly (mirrors : Mirrors key heard cache part) (points : SlotAt key cache slot slot')
    (policy : Policy) :
    Mirrors key heard (cache.refreshEagerly key slot policy) (part.refreshEagerly key slot' policy) ∧
      SlotAt key (cache.refreshEagerly key slot policy) slot slot' := by
  have marked := mark mirrors points
  have points' := slotAt_modifySlot points slot (fun slot =>
    { slot with entry := slot.entry.map fun entry => { entry with refreshing := true } }) fun _ => rfl
  have live := marked.liveFlight? points'
  unfold Cache.refreshEagerly
  simp only
  generalize Cache.liveFlight? (cache.modifySlot _ _) slot = found, Cache.liveFlight? (part.modifySlot _ _) slot' = found' at live
  cases live with
  | some _ => exact ⟨marked, points'⟩
  | none => exact ⟨(marked.launch points' policy .eager 0).1, slotAt_launch points' slot policy .eager 0⟩

/-- The holder of a stale value finds the same flight in both caches, or none. -/
theorem staleFlight? (mirrors : Mirrors key heard cache part) (points : SlotAt key cache slot slot')
    (policy : Policy) :
    Mirrors key heard (cache.staleFlight? key slot policy).2 (part.staleFlight? key slot' policy).2 ∧
      SlotAt key (cache.staleFlight? key slot policy).2 slot slot' ∧
      Option.Rel (FlightAt key (cache.staleFlight? key slot policy).2) (cache.staleFlight? key slot policy).1
        (part.staleFlight? key slot' policy).1 := by
  have live := mirrors.liveFlight? points
  unfold Cache.staleFlight?
  generalize Cache.liveFlight? cache slot = found, Cache.liveFlight? part slot' = found' at live
  cases live with
  | @some flight flight' at' =>
    exact ⟨mirrors.join at', points, .some (flightAt_modifyFlight at' flight _ fun _ => rfl)⟩
  | none =>
    simp only [mirrors.isThrottled points policy]
    split
    · exact ⟨mirrors, points, .none⟩
    · rw [mirrors.clock.now]
      have dated := mirrors.modifySlot points (fun slot => { slot with lastRefresh := some cache.clock.now })
        (fun slot => { slot with lastRefresh := some cache.clock.now }) (fun _ => rfl)
        fun _ _ mirrored => ⟨mirrored.key, mirrored.entry, mirrored.flight, rfl⟩
      have points' := slotAt_modifySlot points slot
        (fun slot => { slot with lastRefresh := some cache.clock.now }) fun _ => rfl
      obtain ⟨launched, at'⟩ := dated.launch points' policy .stale 1
      exact ⟨launched, slotAt_launch points' slot policy .stale 1, .some at'⟩

/-- A caller without a value finds the same flight in both caches. -/
theorem coldFlight (mirrors : Mirrors key heard cache part) (points : SlotAt key cache slot slot')
    (policy : Policy) :
    Mirrors key heard (cache.coldFlight key slot policy).2 (part.coldFlight key slot' policy).2 ∧
      SlotAt key (cache.coldFlight key slot policy).2 slot slot' ∧
      FlightAt key (cache.coldFlight key slot policy).2 (cache.coldFlight key slot policy).1
        (part.coldFlight key slot' policy).1 := by
  have live := mirrors.liveFlight? points
  unfold Cache.coldFlight
  generalize Cache.liveFlight? cache slot = found, Cache.liveFlight? part slot' = found' at live
  cases live with
  | @some flight flight' at' => exact ⟨mirrors.join at', points, flightAt_modifyFlight at' flight _ fun _ => rfl⟩
  | none =>
    obtain ⟨launched, at'⟩ := mirrors.launch points policy .cold 1
    exact ⟨launched, slotAt_launch points slot policy .cold 1, at'⟩

section

variable {call : Call V} (mirrors : Mirrors key heard cache part) (own : call.key = key)
  (points : SlotAt key cache call.slot slot') (heeds : ∀ scope ∈ call.deadline.token.lineage, heard scope)

include mirrors own points heeds

omit mirrors own points heeds in
/-- Counting takes no time. -/
private theorem count_clock (cache : Cache V) (change : CacheStats → CacheStats) :
    (cache.count change).clock = cache.clock := rfl

/-- A call that is answered at once. -/
private theorem serve (value : V) (instant : Nat) :
    Mirrors key heard (cache.addCall { call with phase := .returned (.ok value) instant }).2
      (part.addCall { call with slot := slot', phase := .returned (.ok value) instant }).2 :=
  mirrors.addCall (beq_iff_eq.mpr own) ⟨points, .returned .., rfl⟩ heeds nofun

theorem beginHit {entry entry' : Entry V} (mirrored : entry.Mirrors entry') :
    Mirrors key heard (cache.beginHit call entry).2 (part.beginHit { call with slot := slot' } entry').2 := by
  subst own
  have counted : Mirrors call.key heard (cache.count fun stats => { stats with hits := stats.hits + 1 })
      (part.count fun stats => { stats with hits := stats.hits + 1 }) :=
    mirrors.count ..
  have same : (entry'.eagerDue cache.clock.now && !entry'.refreshing) =
      (entry.eagerDue cache.clock.now && !entry.refreshing) := by
    rw [mirrored]
    rfl
  have value : entry'.value = entry.value := by rw [mirrored]
  unfold Cache.beginHit
  cases due : (entry.eagerDue cache.clock.now && !entry.refreshing) with
  | true =>
    obtain ⟨refreshed, points'⟩ := counted.refreshEagerly points call.policy
    simp only [value, count_clock, mirrors.clock.now, same, due, if_true, refreshed.clock.now]
    exact serve refreshed rfl points' heeds entry.value _
  | false =>
    simp only [value, count_clock, mirrors.clock.now, same, due, Bool.false_eq_true, if_false]
    exact serve counted rfl points heeds entry.value _

theorem beginCold :
    Mirrors key heard (cache.beginCold call).2 (part.beginCold { call with slot := slot' }).2 := by
  subst own
  have counted : Mirrors call.key heard (cache.count fun stats => { stats with misses := stats.misses + 1 })
      (part.count fun stats => { stats with misses := stats.misses + 1 }) :=
    mirrors.count ..
  obtain ⟨looked, points', waits⟩ := counted.coldFlight points call.policy
  exact looked.addCall (beq_self_eq_true _) ⟨points', .cold waits, rfl⟩ heeds nofun

theorem beginStale {entry entry' : Entry V} (mirrored : entry.Mirrors entry') :
    Mirrors key heard (cache.beginStale call entry).2 (part.beginStale { call with slot := slot' } entry').2 := by
  subst own
  have counted : Mirrors call.key heard (cache.count fun stats => { stats with staleHits := stats.staleHits + 1 })
      (part.count fun stats => { stats with staleHits := stats.staleHits + 1 }) :=
    mirrors.count ..
  have value : entry'.value = entry.value := by rw [mirrored]
  obtain ⟨looked, points', found⟩ := counted.staleFlight? points call.policy
  unfold Cache.beginStale
  simp only [value, count_clock, mirrors.clock.now]
  generalize Cache.staleFlight? (cache.count _) _ _ _ = looking, Cache.staleFlight? (part.count _) _ _ _ = looking'
    at looked points' found ⊢
  obtain ⟨flight?, next⟩ := looking
  obtain ⟨flight?', part'⟩ := looking'
  cases found with
  | none => exact serve looked rfl points' heeds entry.value _
  | @some flight flight' waits =>
    simp only
    split
    · have detached := looked.detach waits
      have waits' : FlightAt call.key (next.detach flight) flight flight' :=
        flightAt_modifyFlight waits flight _ fun _ => rfl
      have left := detached.leave waits' fun after there aboard => by
        obtain ⟨before, _, present, _, _, _⟩ := looked.flightAt waits
        have alone := getElem?_modify_self (fun flight : Flight V => { flight with detached := true }) present
        obtain rfl := Option.some.inj (there.symm.trans alone)
        contradiction
      have points'' : SlotAt call.key ((next.detach flight).leave flight) call.slot slot' := by
        rw [SlotAt, leave_slots]
        exact points'
      exact serve left rfl points'' heeds entry.value _
    · have bounded := looked.scope (some call.deadline.token) rfl rfl
      have soft : (call.deadline.tighten part'.clock call.policy.softTimeout).1 =
          (call.deadline.tighten next.clock call.policy.softTimeout).1 := by
        have now : part'.clock.now = next.clock.now := looked.clock.now
        have issued : part'.clock.scopes.issued = next.clock.scopes.issued := looked.clock.issued
        simp only [Deadline.tighten, Clock.childToken, Scopes.childOf, now, issued]
      rw [soft]
      refine bounded.addCall (beq_self_eq_true _) ⟨points', .stale waits _ _, rfl⟩ heeds ?_
      rintro _ _ _ ⟨⟩ scope within
      rcases List.mem_cons.mp within with rfl | outer
      · exact .inr fun member => absurd (looked.clock.bounded _ member) (Nat.lt_irrefl _)
      · exact .inl (heeds scope outer)

end

/-- A call on the key begins in the same way in both caches. -/
theorem begin (mirrors : Mirrors key heard cache part)
    (room : cache.keys.lookup key = none → cache.keys.length < cache.maxEntries) (policy : Policy)
    {deadline : Deadline} (heeds : ∀ scope ∈ deadline.token.lineage, heard scope) :
    Mirrors key heard (cache.begin key policy deadline).2 (part.begin key policy deadline).2 := by
  obtain ⟨touched, points⟩ := mirrors.touch room
  have entries := touched.entryOf points
  simp only [begin_eq, touched.clock.now]
  generalize Cache.entryOf (cache.touch key).2 _ = entry, Cache.entryOf (part.touch key).2 _ = entry' at entries
  cases entries with
  | none => exact beginCold touched rfl points heeds
  | @some entry entry' mirrored =>
    have expires : entry'.expiresAt = entry.expiresAt := by rw [mirrored]; rfl
    have servable : entry'.servableUntil = entry.servableUntil := by rw [mirrored]; rfl
    simp only [expires, servable]
    split
    · exact beginHit touched rfl points heeds mirrored
    · split
      · exact beginStale touched rfl points heeds mirrored
      · exact beginCold touched rfl points heeds

theorem evictFailed (mirrors : Mirrors key heard cache part) (points : SlotAt key cache slot slot') :
    Mirrors key heard (cache.evictFailed key slot) (part.evictFailed key slot') := by
  have has : (part.keys.lookup key == some slot') = (cache.keys.lookup key == some slot) := by
    rcases mirrors.keys with ⟨absent, empty⟩ | ⟨place, other, known, only, at'⟩
    · rw [absent, empty]
      rfl
    · rw [known, only, List.lookup_cons_self]
      simp only [Bool.beq_eq_decide_eq, decide_eq_decide, Option.some_inj]
      exact at'.eq_iff points
  unfold Cache.evictFailed
  rw [has, mirrors.isIdle points, mirrors.isSpent points]
  split
  · exact mirrors.dropKey.count ..
  · exact mirrors

theorem returnCall (mirrors : Mirrors key heard cache part) (points : Points (Call.isOf key) cache.calls number number')
    (result : Except Failure V) : Mirrors key heard (cache.returnCall number result) (part.returnCall number' result) := by
  unfold Cache.returnCall
  simp only [mirrors.clock.now]
  exact mirrors.retire points (fun _ => .returned ..) nofun

/-- A call that waits without a value ends in the same way in both caches. -/
theorem endCold (mirrors : Mirrors key heard cache part) (rooted : Rooted cache)
    (points : Points (Call.isOf key) cache.calls number number') {call : Call V} (own : call.key = key)
    (place : SlotAt key cache call.slot slot') (waits : FlightAt key cache flight flight')
    (other : Call V) (same : other.key = key) (place' : other.slot = slot') (result : Except Failure V) :
    Mirrors key heard (cache.endCold number call flight result) (part.endCold number' other flight' result) := by
  have left (answer : Except Failure V) :
      Mirrors key heard ((cache.returnCall number answer).leave flight)
        ((part.returnCall number' answer).leave flight') :=
    (mirrors.returnCall points answer).leave waits fun _ present _ => rooted.known present
  rw [endCold_eq, endCold_eq]
  cases result with
  | ok value => exact left _
  | error failure =>
    simp only
    split
    · exact left _
    · rw [own, same, place']
      refine (left _).evictFailed ?_
      rw [SlotAt, leave_slots]
      exact place

/-- A call that waits with a value to fall back on ends in the same way in both caches. -/
theorem endStale (mirrors : Mirrors key heard cache part) (rooted : Rooted cache)
    (points : Points (Call.isOf key) cache.calls number number') {call : Call V}
    (heeds : ∀ scope ∈ call.deadline.token.lineage, heard scope) (waits : FlightAt key cache flight flight')
    (other : Call V) (same : other.deadline = call.deadline) (fallback : V) (result : Except Failure V) :
    Mirrors key heard (cache.endStale number call flight fallback result)
      (part.endStale number' other flight' fallback result) := by
  have left (answer : Except Failure V) :
      Mirrors key heard ((cache.returnCall number answer).leave flight)
        ((part.returnCall number' answer).leave flight') :=
    (mirrors.returnCall points answer).leave waits fun _ present _ => rooted.known present
  have cancelled : other.deadline.isCancelled part.clock = call.deadline.isCancelled cache.clock := by
    rw [same]
    exact mirrors.clock.isCancelled fun scope within => .heard (heeds scope within)
  rw [endStale_eq, endStale_eq]
  cases result with
  | ok value => exact left _
  | error failure =>
    simp only [cancelled]
    split
    · exact left _
    · have detached := (mirrors.returnCall points (.ok fallback)).detach waits
      have rooted' : Rooted (cache.detach flight) := rooted.modifyFlight flight fun _ => rfl
      exact detached.leave (flightAt_modifyFlight waits flight _ fun _ => rfl) fun _ there _ => rooted'.known there

/-- A waiting call would be answered the same in both caches. -/
theorem answer? (mirrors : Mirrors key heard cache part) {call other : Call V}
    (present : cache.calls[number]? = some call) (own : call.isOf key = true)
    (mirrored : call.Mirrors (SlotAt key cache) (FlightAt key cache) other) :
    part.answer? other = cache.answer? call := by
  have heeds := mirrors.deadlines number call present own
  have deadline : other.deadline = call.deadline := by rw [mirrored.same]
  have cancelled : call.deadline.isCancelled part.clock = call.deadline.isCancelled cache.clock :=
    mirrors.clock.isCancelled fun scope within => .heard (heeds scope within)
  unfold Cache.answer?
  rw [deadline]
  cases phase : call.phase with
  | cold flight =>
    obtain ⟨flight', phase', waits⟩ := mirrored.of_cold phase
    simp only [phase', mirrors.resultOf waits, mirrors.clock.verdict fun scope within => .heard (heeds scope within)]
  | stale flight soft fallback =>
    obtain ⟨flight', phase', waits⟩ := mirrored.of_stale phase
    simp only [phase', mirrors.resultOf waits, cancelled, mirrors.clock.verdict fun _ => .soft present own phase]
  | returned result instant => simp only [mirrored.returned_iff.mpr phase]
  | dropped => simp only [mirrored.dropped_iff.mpr phase]

/-- A call on the key that can take its turn can do so in both caches. -/
theorem turnCall? (mirrors : Mirrors key heard cache part) (rooted : Rooted cache)
    (points : Points (Call.isOf key) cache.calls number number') (turn : cache.turnCall? number = some next) :
    ∃ part', part.turnCall? number' = some part' ∧ Mirrors key heard next part' := by
  obtain ⟨call, other, present, own, present', mirrored⟩ := mirrors.calls.found points
  have heeds := mirrors.deadlines number call present own
  have named : call.key = key := beq_iff_eq.mp own
  have named' : other.key = key := by rw [mirrored.same]; exact named
  have deadline : other.deadline = call.deadline := by rw [mirrored.same]
  obtain ⟨call', there, ⟨flight, verdict, phase, ended, rfl⟩ | ⟨flight, soft, fallback, verdict, phase, ended, rfl⟩⟩ :=
    turnCall?_eq_some_iff.mp turn
  · obtain rfl := Option.some.inj (present.symm.trans there)
    obtain ⟨flight', phase', waits⟩ := mirrored.of_cold phase
    refine ⟨_, turnCall?_eq_some_iff.mpr ⟨other, present', .inl ⟨flight', verdict, phase', ?_, rfl⟩⟩, ?_⟩
    · rw [deadline, mirrors.resultOf waits]
      exact (mirrors.clock.verdict (fun scope within => .heard (heeds scope within)) _).trans ended
    · exact mirrors.endCold rooted points named mirrored.slot waits other named' rfl _
  · obtain rfl := Option.some.inj (present.symm.trans there)
    obtain ⟨flight', phase', waits⟩ := mirrored.of_stale phase
    refine ⟨_, turnCall?_eq_some_iff.mpr
      ⟨other, present', .inr ⟨flight', soft, fallback, verdict, phase', ?_, rfl⟩⟩, ?_⟩
    · rw [mirrors.resultOf waits]
      exact (mirrors.clock.verdict (fun _ => .soft present own phase) _).trans ended
    · exact mirrors.endStale rooted points heeds waits other deadline fallback _

/-- A call on the key is given up in the same way in both caches. -/
theorem dropCall (mirrors : Mirrors key heard cache part) (rooted : Rooted cache)
    (points : Points (Call.isOf key) cache.calls number number') :
    Mirrors key heard (cache.dropCall number) (part.dropCall number') := by
  obtain ⟨call, other, present, own, present', mirrored⟩ := mirrors.calls.found points
  have gone {flight flight' : Nat} (waits : FlightAt key cache flight flight') :
      Mirrors key heard ((cache.modifyCall number fun call => { call with phase := .dropped }).leave flight)
        ((part.modifyCall number' fun call => { call with phase := .dropped }).leave flight') :=
    (mirrors.retire points (fun _ => .dropped) nofun).leave waits fun _ there _ => rooted.known there
  have phases := mirrored.phase
  unfold Cache.dropCall
  simp only [present, present']
  generalize call.phase = phase, other.phase = phase' at phases
  cases phases with
  | cold waits =>
    simp only [leave_modifyCall]
    exact gone waits
  | stale waits =>
    simp only [leave_modifyCall]
    exact gone waits
  | returned => exact mirrors
  | dropped => exact mirrors

theorem close (mirrors : Mirrors key heard cache part) (points : FlightAt key cache flight flight')
    (phase : FlightPhase V) (outcome : WorkOutcome) :
    Mirrors key heard (cache.close flight phase outcome) (part.close flight' phase outcome) := by
  unfold Cache.close
  simp only [mirrors.clock.now]
  exact mirrors.modifyFlight points (fun _ => rfl) (fun _ => rfl) (fun _ => rfl) fun _ _ => rfl

/-- The flight leaves the slot in both caches if it is there. -/
theorem uninstall (mirrors : Mirrors key heard cache part) (found other : Flight V)
    (place : SlotAt key cache found.slot other.slot) (points : FlightAt key cache flight flight') :
    Mirrors key heard (cache.uninstall flight found) (part.uninstall flight' other) := by
  refine mirrors.modifySlot place _ _ (fun slot => by split <;> rfl) fun slot slot' mirrored => ?_
  have has : (slot'.flight == some flight') = (slot.flight == some flight) := by
    have installed := mirrored.flight
    generalize slot.flight = number, slot'.flight = number' at installed
    cases installed with
    | none => rfl
    | some at' =>
      simp only [Bool.beq_eq_decide_eq, decide_eq_decide, Option.some_inj]
      exact at'.eq_iff points
  rw [has]
  split
  · exact ⟨mirrored.key, mirrored.entry, .none, mirrored.lastRefresh⟩
  · exact mirrored

theorem endFlight (mirrors : Mirrors key heard cache part) (points : FlightAt key cache flight flight')
    {found : Flight V} (place : SlotAt key cache found.slot slot') (ending : GuardEnd (WorkEnd V)) :
    Mirrors key heard (cache.endFlight flight found ending)
      (part.endFlight flight' { found with slot := slot' } ending) := by
  have failed (failure : Failure) (outcome : WorkOutcome) :
      Mirrors key heard (cache.land flight found failure outcome)
        (part.land flight' { found with slot := slot' } failure outcome) := by
    have counted := mirrors.count (fun stats => { stats with refreshFailures := stats.refreshFailures + 1 })
      fun stats => { stats with refreshFailures := stats.refreshFailures + 1 }
    exact (counted.uninstall found { found with slot := slot' } place points).close points _ _
  cases ending with
  | cancelled => exact failed ..
  | expired => exact failed ..
  | done work =>
    cases work with
    | failure failure => exact failed ..
    | panicked => exact mirrors.close points _ _
    | value value =>
      simp only [Cache.endFlight, landValue]
      split
      · exact mirrors.close points _ _
      · split
        · have stored : Mirrors key heard (cache.store flight found value)
              (part.store flight' { found with slot := slot' } value) := by
            unfold Cache.store
            simp only [mirrors.clock.now]
            exact mirrors.modifySlot place _ _ (fun _ => rfl)
              fun _ _ mirrored => ⟨mirrored.key, .some rfl, mirrored.flight, mirrored.lastRefresh⟩
          have place' : SlotAt key (cache.store flight found value) found.slot slot' :=
            slotAt_modifySlot place found.slot _ fun _ => rfl
          exact (stored.uninstall found { found with slot := slot' } place' points).close points _ _
        · exact (mirrors.uninstall found { found with slot := slot' } place points).close points _ _

/-- A flight of the key that can take its turn can do so in both caches. -/
theorem turnFlight? (mirrors : Mirrors key heard cache part)
    (regular : ∀ found, cache.flights[flight]? = some found → found.Regular)
    (points : FlightAt key cache flight flight') {work : Option (WorkEnd V)}
    (turn : cache.turnFlight? flight work = some next) :
    ∃ part', part.turnFlight? flight' work = some part' ∧ Mirrors key heard next part' := by
  obtain ⟨found, slot', present, present', own, place⟩ := mirrors.flightAt points
  obtain ⟨found', there, ⟨queued, rfl⟩ | ⟨deadline, ending, working, verdict, rfl⟩⟩ := turnFlight?_eq_some_iff.mp turn
  · obtain rfl := Option.some.inj (present.symm.trans there)
    refine ⟨_, turnFlight?_eq_some_iff.mpr ⟨_, present', .inl ⟨queued, rfl⟩⟩, ?_⟩
    unfold Cache.startFlight
    simp only [mirrors.clock.now]
    exact mirrors.modifyFlight points (fun _ => rfl) (fun _ => rfl) (fun _ => rfl) fun _ _ => rfl
  · obtain rfl := Option.some.inj (present.symm.trans there)
    refine ⟨_, turnFlight?_eq_some_iff.mpr ⟨_, present', .inr ⟨deadline, ending, working, ?_, rfl⟩⟩, ?_⟩
    · refine (mirrors.clock.verdict (fun scope within => ?_) work).trans verdict
      rw [(regular found present).own deadline working] at within
      exact .flight present (beq_iff_eq.mpr own) within
    · exact mirrors.endFlight points place ending

/-- Purging drops the key from both caches or from neither. -/
theorem purge (mirrors : Mirrors key heard cache part) (placed : Placed cache) :
    Mirrors key heard cache.purge.2 part.purge.2 := by
  have kept' : part.purge.2.keys = part.keys.filter fun pair => !(part.isIdle pair.2 && part.isSpent pair.2) := rfl
  refine ⟨mirrors.clock, mirrors.room, ?_, mirrors.slots, mirrors.flights, mirrors.calls, mirrors.deadlines⟩
  rcases mirrors.keys with ⟨absent, empty⟩ | ⟨slot, slot', known, only, points⟩
  · refine .inl ⟨?_, by rw [kept', empty]; rfl⟩
    rw [List.lookup_eq_none_iff] at absent ⊢
    exact fun pair member => absent pair (List.mem_filter.mp member).1
  · rw [only] at kept'
    cases gone : (cache.isIdle slot && cache.isSpent slot) with
    | true =>
      refine .inl ⟨?_, by simpa [kept', mirrors.isIdle points, mirrors.isSpent points] using gone⟩
      rw [List.lookup_eq_none_iff]
      intro pair member
      obtain ⟨there, kept⟩ := List.mem_filter.mp member
      rw [bne_iff_ne]
      rintro rfl
      rw [placed.only (mem_of_lookup known) there rfl, gone] at kept
      contradiction
    | false =>
      refine .inr ⟨slot, slot', lookup_filter_of_pos _ known (by simp [gone]), ?_, points⟩
      simpa [kept', mirrors.isIdle points, mirrors.isSpent points] using Bool.and_eq_false_iff.mp gone

/-- When no turn is left to be made in the cache, none is left in the other one. -/
theorem settled (mirrors : Mirrors key heard cache part)
    (regular : ∀ (number : Nat) (found : Flight V), cache.flights[number]? = some found → found.Regular) (settled : cache.Settled) :
    part.Settled := by
  constructor
  · intro number'
    rw [Option.eq_none_iff_forall_ne_some]
    intro part' turn
    obtain ⟨other, there, ⟨queued, _⟩ | ⟨deadline, ending, working, verdict, _⟩⟩ := turnFlight?_eq_some_iff.mp turn
    · obtain ⟨number, found, present, _, mirrored⟩ := mirrors.flights.back there
      have same : found.phase = .queued := by rw [mirrored.same] at queued; exact queued
      have turns : cache.turnFlight? number none = some (cache.startFlight number) :=
        turnFlight?_eq_some_iff.mpr ⟨found, present, .inl ⟨same, rfl⟩⟩
      rw [settled.flights number] at turns
      contradiction
    · obtain ⟨number, found, present, own, mirrored⟩ := mirrors.flights.back there
      have same : found.phase = .working deadline := by rw [mirrored.same] at working; exact working
      have verdict' : deadline.verdict cache.clock (none : Option (WorkEnd V)) = some ending := by
        refine (mirrors.clock.verdict (fun scope within => ?_) none).symm.trans verdict
        rw [(regular number found present).own deadline same] at within
        exact .flight present own within
      have turns : cache.turnFlight? number none = some (cache.endFlight number found ending) :=
        turnFlight?_eq_some_iff.mpr ⟨found, present, .inr ⟨deadline, ending, same, verdict', rfl⟩⟩
      rw [settled.flights number] at turns
      contradiction
  · intro number'
    cases there : part.calls[number']? with
    | none => simp [Cache.turnCall?, there]
    | some other =>
      obtain ⟨number, found, present, own, mirrored⟩ := mirrors.calls.back there
      rw [turnCall?_eq_none_iff there, mirrors.answer? present own mirrored]
      exact (turnCall?_eq_none_iff present).mp (settled.calls number)

/-- All timers of the other cache are timers of the cache. -/
theorem timers (mirrors : Mirrors key heard cache part) {timer : Nat} (member : timer ∈ part.timers) :
    timer ∈ cache.timers := by
  rcases mem_timers.mp member with ⟨number', other, deadline, there, working, rfl⟩ | ⟨number', other, there, waits⟩
  · obtain ⟨number, found, present, _, mirrored⟩ := mirrors.flights.back there
    rw [mirrored.same] at working
    exact mem_timers.mpr (.inl ⟨number, found, deadline, present, working, rfl⟩)
  · obtain ⟨number, found, present, _, mirrored⟩ := mirrors.calls.back there
    have deadline : other.deadline = found.deadline := by rw [mirrored.same]
    rcases waits with ⟨flight', phase', rfl⟩ | ⟨flight', soft, fallback, phase', rfl⟩
    · obtain ⟨flight, phase, _⟩ := mirrored.to_cold phase'
      exact mem_timers.mpr (.inr ⟨number, found, present, .inl ⟨_, phase, by rw [deadline]⟩⟩)
    · obtain ⟨flight, phase, _⟩ := mirrored.to_stale phase'
      exact mem_timers.mpr (.inr ⟨number, found, present, .inr ⟨_, _, _, phase, rfl⟩⟩)

/-- A key is mirrored as before when nothing of it has changed and no scope that it has to do with was cancelled. -/
theorem elsewhere (mirrors : Mirrors key heard cache part) (now : next.clock.now = cache.clock.now)
    (lookup : next.keys.lookup key = cache.keys.lookup key) (slots : Unchanged (Slot.isOf key) cache.slots next.slots)
    (flights : Unchanged (Flight.isOf key) cache.flights next.flights)
    (calls : Unchanged (Call.isOf key) cache.calls next.calls)
    (issued : cache.clock.scopes.issued ≤ next.clock.scopes.issued)
    (bounded : ∀ scope ∈ next.clock.scopes.cancelled, scope < next.clock.scopes.issued)
    (kept : ∀ scope ∈ cache.clock.scopes.cancelled, scope ∈ next.clock.scopes.cancelled)
    (strange : ∀ scope ∈ next.clock.scopes.cancelled, scope ∈ cache.clock.scopes.cancelled ∨
      ¬ Concerns key heard cache.flights cache.calls scope) :
    Mirrors key heard next (part.withScopes (next.clock.scopes.issued - cache.clock.scopes.issued)) := by
  have concerns : ∀ scope, Concerns key heard next.flights next.calls scope →
      Concerns key heard cache.flights cache.calls scope := by
    intro scope concerns
    cases concerns with
    | heard own => exact .heard own
    | flight present own within => exact .flight ((flights.present_iff own).mp present) own within
    | soft present own phase within => exact .soft ((calls.present_iff own).mp present) own phase within
  refine ⟨⟨mirrors.clock.now.trans now.symm, ?_, bounded, ?_, ?_⟩, mirrors.room, ?_, ?_, ?_, ?_, ?_⟩
  · rw [withScopes, mirrors.clock.issued]
    exact Nat.add_sub_cancel' issued
  · exact fun scope member => kept scope (mirrors.clock.fewer scope member)
  · intro scope own member
    rcases strange scope member with before | foreign
    · exact mirrors.clock.enough scope (concerns scope own) before
    · exact absurd (concerns scope own) foreign
  · rw [lookup]
    rcases mirrors.keys with absent | ⟨slot, slot', known, only, points⟩
    · exact .inl absent
    · exact .inr ⟨slot, slot', known, only, slots.points points⟩
  · exact (mirrors.slots.mono fun _ _ _ _ mirrored => mirrored.mono fun _ _ => flights.points).congr slots
  · exact (mirrors.flights.mono fun _ _ _ _ mirrored => mirrored.mono fun _ _ => slots.points).congr flights
  · exact (mirrors.calls.mono fun _ _ _ _ mirrored =>
      mirrored.mono (fun _ _ => slots.points) fun _ _ => flights.points).congr calls
  · exact fun number call present own => mirrors.deadlines number call ((calls.present_iff own).mp present) own

end Mirrors

end HedgedForecast.Cache
