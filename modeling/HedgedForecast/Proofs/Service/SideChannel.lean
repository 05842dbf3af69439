import HedgedForecast.Proofs.Publisher.Runs
import HedgedForecast.Proofs.Service.Scenarios
import HedgedForecast.Proofs.Service.Timers

/-! # The side channel does not matter

A service with its side channel taken out makes the same turns at the same instants: nothing else in it reads what
the side channel does, and the instants at which only the side channel has something to do pass unnoticed, since
nothing happens between timers. So two services that differ in their side channels do the same for their users.
-/

namespace HedgedForecast.Service

variable {service next last : Service} {publisher : Publisher HedgedForecast.Event} {instant : Nat}

/-- The same service with another side channel. -/
def withPublisher (service : Service) (publisher : Publisher HedgedForecast.Event) : Service :=
  { service with publisher }

/-- The services differ in their side channels at most: caches with all calls, flights and counts, clocks, providers
with all their calls, and fetches are the same. -/
def SameCore (service other : Service) : Prop :=
  service.withPublisher other.publisher = other

theorem withPublisher_self (service : Service) : service.withPublisher service.publisher = service := rfl

theorem turnHedger?_withPublisher (service : Service) (publisher : Publisher HedgedForecast.Event) :
    (service.withPublisher publisher).turnHedger? = service.turnHedger?.map (·.withPublisher publisher) := by
  simp only [turnHedger?, Option.map_map]
  rfl

theorem dropFetch_withPublisher (service : Service) (publisher : Publisher HedgedForecast.Event) (flight : Nat) :
    (service.withPublisher publisher).dropFetch flight = (service.dropFetch flight).withPublisher publisher := by
  unfold dropFetch
  have same : (service.withPublisher publisher).fetchOf = service.fetchOf := rfl
  rw [same]
  split <;> rfl

theorem beginFetch?_withPublisher (service : Service) (publisher : Publisher HedgedForecast.Event) (number : Nat) :
    (service.withPublisher publisher).beginFetch? number =
      (service.beginFetch? number).map (·.withPublisher publisher) := by
  have flights : (service.withPublisher publisher).cache.flights = service.cache.flights := rfl
  have requests : (service.withPublisher publisher).requests = service.requests := rfl
  have fetchOf : (service.withPublisher publisher).fetchOf = service.fetchOf := rfl
  unfold beginFetch?
  rw [flights, requests, fetchOf]
  cases service.cache.flights[number]? with
  | none => rfl
  | some flight =>
    cases service.requests[number]? with
    | none => rfl
    | some request =>
      simp only [Option.bind_eq_bind, Option.bind_some]
      split <;> rfl

theorem turnFlight?_withPublisher (service : Service) (publisher : Publisher HedgedForecast.Event) (number : Nat) :
    (service.withPublisher publisher).turnFlight? number =
      (service.turnFlight? number).map (·.withPublisher publisher) := by
  have same : (service.withPublisher publisher).cache.turnFlight? number
      ((service.withPublisher publisher).workOf number) = service.cache.turnFlight? number (service.workOf number) := rfl
  unfold turnFlight?
  rw [same]
  cases service.cache.turnFlight? number (service.workOf number) with
  | some cache => exact congrArg some (dropFetch_withPublisher { service with cache } publisher number)
  | none => exact beginFetch?_withPublisher service publisher number

theorem turnCore?_withPublisher (service : Service) (publisher : Publisher HedgedForecast.Event) :
    (service.withPublisher publisher).turnCore? = service.turnCore?.map (·.withPublisher publisher) := by
  have flights : (service.withPublisher publisher).turnFlights? =
      service.turnFlights?.map (·.withPublisher publisher) := by
    have same : (service.withPublisher publisher).cache.flights.size = service.cache.flights.size := rfl
    have each : (service.withPublisher publisher).turnFlight? =
        Option.map (·.withPublisher publisher) ∘ service.turnFlight? :=
      funext (turnFlight?_withPublisher service publisher)
    simp only [turnFlights?, List.map_findSome?, same, each]
  have calls : (service.withPublisher publisher).turnCalls? = service.turnCalls?.map (·.withPublisher publisher) := by
    simp only [turnCalls?, Option.map_map]
    rfl
  simp only [turnCore?, Option.orElse_eq_orElse, Option.orElse_eq_or, turnHedger?_withPublisher, flights, calls,
    Option.map_or]

theorem turnCore?_publisher (turn : service.turnCore? = some next) : next.publisher = service.publisher := by
  have same := turnCore?_withPublisher service service.publisher
  rw [withPublisher_self, turn, Option.map_some] at same
  have own := congrArg Service.publisher (Option.some.inj same)
  exact own

/-- What users do. -/
def Event.OfUser : Event → Prop
  | .begin .. | .drop _ | .purge | .scope _ | .cancel _ => True
  | _ => False

/-- What a user does, and what comes of it, does not depend on the side channel. -/
theorem step?_withPublisher {event : Event} (user : event.OfUser) (step : service.step? event = some next)
    (sound : publisher.Sound) :
    ∃ publisher', publisher'.Sound ∧
      (service.withPublisher publisher).step? event = some (next.withPublisher publisher') := by
  cases event with
  | begin request deadline =>
    cases step
    exact ⟨_, sound.notify ⟨request, service.moment⟩, rfl⟩
  | scope parent => cases parent <;> cases step <;> exact ⟨publisher, sound, rfl⟩
  | drop | purge | cancel =>
    cases step
    exact ⟨publisher, sound, rfl⟩
  | flight | leg | fetch | call | publish | pass => exact user.elim

/-- A service as a system in time whose side channel stands still. -/
def core : Simulation Service where
  now := simulation.now
  turn := turnCore?
  nextTimer service := earliestAfter service.clock.now service.coreTimers
  moveTo := simulation.moveTo

theorem Sound.withPublisher (sound : service.Sound) (publisher : Publisher HedgedForecast.Event) :
    (service.withPublisher publisher).Sound :=
  sound.move (.publish publisher)

theorem Sound.turnCore (sound : service.Sound) (turn : service.turnCore? = some next) : next.Sound := by
  have whole : service.turn? = some next := by rw [turn?_eq, turn]; rfl
  obtain ⟨event, step⟩ := turn?_step whole
  exact sound.step step

theorem Sound.moveTo (sound : service.Sound) (instant : Nat) : (simulation.moveTo instant service).Sound := by
  have step : service.step? (.pass instant) = some (simulation.moveTo instant service) := rfl
  exact sound.step step

theorem core_settles_sound (settles : core.Settles service last) (sound : service.Sound) : last.Sound :=
  settles.invariant (fun _ _ kept turn => kept.turnCore turn) sound

theorem core_reaches_sound (reaches : core.Reaches instant service last) (sound : service.Sound) : last.Sound :=
  reaches.invariant (fun _ _ kept turn => kept.turnCore turn) (fun _ instant kept _ _ => kept.moveTo instant) sound

theorem core_settles_withPublisher (settles : core.Settles service last) (publisher : Publisher HedgedForecast.Event) :
    core.Settles (service.withPublisher publisher) (last.withPublisher publisher) := by
  have same (middle : Service) :
      core.turn (middle.withPublisher publisher) = (core.turn middle).map (·.withPublisher publisher) :=
    turnCore?_withPublisher middle publisher
  induction settles with
  | still still => exact .still (by rw [same, still]; rfl)
  | turn turn _ ih => exact .turn (by rw [same, turn]; rfl) ih

theorem core_reaches_withPublisher (reaches : core.Reaches instant service last)
    (publisher : Publisher HedgedForecast.Event) :
    core.Reaches instant (service.withPublisher publisher) (last.withPublisher publisher) := by
  induction reaches with
  | timer settles timer inTime _ ih => exact .timer (core_settles_withPublisher settles publisher) timer inTime ih
  | last settles far settled =>
    exact .last (core_settles_withPublisher settles publisher) far (core_settles_withPublisher settled publisher)

/-- What happens at an instant happens without the side channel too. -/
theorem core_settles (settles : simulation.Settles service last) :
    core.Settles service (last.withPublisher service.publisher) := by
  induction settles with
  | @still service still =>
    have whole : service.turn? = none := still
    rw [turn?_eq, Option.or_eq_none_iff] at whole
    exact .still whole.1
  | @turn service next last turn rest ih =>
    have whole : service.turn? = some next := turn
    rw [turn?_eq, Option.or_eq_some_iff] at whole
    rcases whole with own | ⟨still, publishes⟩
    · rw [turnCore?_publisher own] at ih
      exact .turn own ih
    · obtain ⟨publisher, _, rfl⟩ := Option.map_eq_some_iff.mp publishes
      have back := core_settles_withPublisher ih service.publisher
      exact back

/-- The side channel makes all its turns when the rest of the service has made theirs. -/
theorem settles_of_still (still : service.turnCore? = none) (sound : service.publisher.Sound) :
    ∃ publisher, publisher.Sound ∧ simulation.Settles service (service.withPublisher publisher) ∧
      publisher.turnsLeft ≤ service.publisher.turnsLeft ∧
      (service.publisher.turn? service.clock.now ≠ none → publisher.turnsLeft < service.publisher.turnsLeft) := by
  induction left : service.publisher.turnsLeft using Nat.strongRecOn generalizing service with
  | ind left' ih =>
    subst left
    cases turn : service.publisher.turn? service.clock.now with
    | none =>
      have whole : service.turn? = none := by
        rw [turn?_eq, still, turnPublisher?, turn]
        rfl
      exact ⟨service.publisher, sound, .still whole, Nat.le_refl _, fun busy => absurd rfl busy⟩
    | some publisher =>
      have whole : service.turn? = some (service.withPublisher publisher) := by
        rw [turn?_eq, still, turnPublisher?, turn]
        rfl
      have still' : (service.withPublisher publisher).turnCore? = none := by
        rw [turnCore?_withPublisher, still]
        rfl
      have lower := Publisher.turnsLeft_turn turn
      obtain ⟨last, sound', settles, least, _⟩ := ih publisher.turnsLeft lower still' (sound.turn turn) rfl
      have fewer : last.turnsLeft < service.publisher.turnsLeft := Nat.lt_of_le_of_lt least lower
      exact ⟨last, sound', .turn whole settles, Nat.le_of_lt fewer, fun _ => fewer⟩

theorem settles_of_core (settles : core.Settles service last) (sound : service.publisher.Sound) :
    ∃ publisher, publisher.Sound ∧ simulation.Settles service (last.withPublisher publisher) := by
  induction settles with
  | still still =>
    obtain ⟨publisher, sound', settles, _⟩ := settles_of_still still sound
    exact ⟨publisher, sound', settles⟩
  | @turn service next last turn _ ih =>
    have same : next.publisher = service.publisher := turnCore?_publisher turn
    obtain ⟨publisher, sound', settles⟩ := ih (same ▸ sound)
    have whole : simulation.turn service = some next := by
      have own : service.turnCore? = some next := turn
      exact (turn?_eq service).trans (by rw [own]; rfl)
    exact ⟨publisher, sound', .turn whole settles⟩

theorem moveTo_moveTo (service : Service) {due later : Nat} (after : due ≤ later) :
    simulation.moveTo later (simulation.moveTo due service) = simulation.moveTo later service := by
  have same : max (max service.clock.now due) later = max service.clock.now later := by omega
  simp only [simulation, withClock, clock, Clock.moveTo] at same ⊢
  rw [same]

theorem moveTo_now_self (service : Service) : simulation.moveTo service.clock.now service = service := by
  have same : max service.clock.now service.clock.now = service.clock.now := Nat.max_self _
  simp only [simulation, withClock, clock, Clock.moveTo] at same ⊢
  rw [same]

theorem moveTo_now {due : Nat} (after : service.clock.now ≤ due) : (simulation.moveTo due service).clock.now = due :=
  Nat.max_eq_right after

/-- An instant at which nothing can happen may be left out. -/
theorem core_reaches_skip {due : Nat} (sound : service.Sound) (still : service.turnCore? = none)
    (none : NoneDue service.clock.now due service.coreTimers) (after : service.clock.now ≤ due) (before : due ≤ instant)
    (reaches : core.Reaches instant (simulation.moveTo due service) last) : core.Reaches instant service last := by
  have still' : (simulation.moveTo due service).turnCore? = .none := sound.turnCore?_moveTo still none
  have same : core.nextTimer (simulation.moveTo due service) = core.nextTimer service := by
    have now := moveTo_now after
    have unmoved : (simulation.moveTo due service).coreTimers = service.coreTimers := rfl
    simp only [core, now, unmoved]
    exact earliestAfter_of_none_between after none
  cases reaches with
  | @timer _ middle _ later settles timer inTime rest =>
    obtain rfl := settles.unique (.still still')
    rw [same] at timer
    obtain ⟨⟨member, ahead⟩, _⟩ := earliestAfter_eq_some_iff.mp timer
    have moved : core.moveTo later (simulation.moveTo due service) = core.moveTo later service :=
      moveTo_moveTo service (Nat.le_of_lt (none later member ahead))
    rw [moved] at rest
    exact .timer (.still still) timer inTime rest
  | last settles far settled =>
    obtain rfl := settles.unique (.still still')
    rw [same] at far
    have moved : core.moveTo instant (simulation.moveTo due service) = core.moveTo instant service :=
      moveTo_moveTo service before
    rw [moved] at settled
    exact .last (.still still) far settled

/-- What happens up to an instant happens without the side channel too. -/
theorem core_reaches (sound : service.Sound) (reaches : simulation.Reaches instant service last) :
    core.Reaches instant service (last.withPublisher service.publisher) := by
  induction reaches with
  | @timer service middle last due settles timer inTime rest ih =>
    have own := core_settles settles
    have sound' : (middle.withPublisher service.publisher).Sound := core_settles_sound own sound
    have rest' := core_reaches_withPublisher (ih ((sound'.withPublisher middle.publisher).moveTo due)) service.publisher
    obtain ⟨⟨_, ahead⟩, least⟩ := earliestAfter_eq_some_iff.mp timer
    refine own.reaches ?_
    by_cases mine : due ∈ middle.coreTimers
    · have next : core.nextTimer (middle.withPublisher service.publisher) = some due :=
        earliestAfter_eq_some_iff.mpr ⟨⟨mine, ahead⟩, fun other member => least other (List.mem_append_left _ member)⟩
      exact .timer (.still own.turn_eq_none) next inTime rest'
    · refine core_reaches_skip sound' own.turn_eq_none (fun other member later => ?_) (Nat.le_of_lt ahead) inTime rest'
      exact Nat.lt_of_le_of_ne (least other (List.mem_append_left _ member) later) fun same => mine (same ▸ member)
  | @last service middle last settles far settled =>
    have own := core_settles settles
    have settled' := core_settles_withPublisher (core_settles settled) service.publisher
    refine .last own (fun due timer => ?_) settled'
    obtain ⟨⟨member, ahead⟩, _⟩ := earliestAfter_eq_some_iff.mp timer
    obtain ⟨first, next, before⟩ := earliestAfter_of_mem (List.mem_append_left middle.publisher.timers member) ahead
    exact Nat.lt_of_lt_of_le (far first next) before

/-- A side channel without turns left has one when it is the first whose timer is due. -/
theorem publisher_busy {due : Nat} (still : service.turn? = none) (channel : service.publisher.Sound)
    (mine : due ∈ service.publisher.timers) (next : earliestAfter service.clock.now service.timers = some due) :
    service.publisher.turn? due ≠ none := by
  rw [turn?_eq, Option.or_eq_none_iff] at still
  obtain ⟨⟨_, ahead⟩, least⟩ := earliestAfter_eq_some_iff.mp next
  have first : earliestAfter service.clock.now service.publisher.timers = some due :=
    earliestAfter_eq_some_iff.mpr ⟨⟨mine, ahead⟩, fun other member => least other (List.mem_append_right _ member)⟩
  rcases channel.drained_or_due (Option.map_eq_none_iff.mp still.2) with ⟨_, none⟩ | ⟨instant, timer, busy⟩
  · rw [none] at mine
    contradiction
  · cases first.symm.trans timer
    exact busy

/-- At an instant the side channel has caught up: it has nothing to do before the limit, and what happens from then on
happens from now on. -/
structure CaughtUp (service : Service) (instant limit now : Nat) (publisher : Publisher HedgedForecast.Event) :
    Prop where
  channel : publisher.Sound
  after : service.clock.now ≤ now
  inside : now = service.clock.now ∨ now < limit
  still : ((simulation.moveTo now service).withPublisher publisher).turn? = none
  idle : ∀ timer ∈ publisher.timers, now < timer → limit ≤ timer
  back : ∀ last, simulation.Reaches instant ((simulation.moveTo now service).withPublisher publisher) last →
    simulation.Reaches instant service last

namespace CaughtUp

variable {limit now : Nat}

/-- A side channel that is idle has caught up. -/
theorem of_idle (still : service.turn? = none) (channel : service.publisher.Sound)
    (idle : ∀ timer ∈ service.publisher.timers, service.clock.now < timer → limit ≤ timer) :
    service.CaughtUp instant limit service.clock.now service.publisher := by
  refine ⟨channel, Nat.le_refl _, .inl rfl, ?_, idle, fun last reaches => ?_⟩
  · rw [moveTo_now_self]
    exact still
  · rw [moveTo_now_self] at reaches
    exact reaches

/-- What has caught up behind the first timer has caught up. -/
theorem of_timer {due : Nat} {first : Publisher HedgedForecast.Event} (still : service.turn? = none)
    (next : simulation.nextTimer service = some due) (soon : due < limit) (inTime : limit ≤ instant + 1)
    (settles : simulation.Settles (simulation.moveTo due service) ((simulation.moveTo due service).withPublisher first))
    (caught : ((simulation.moveTo due service).withPublisher first).CaughtUp instant limit now publisher) :
    service.CaughtUp instant limit now publisher := by
  obtain ⟨⟨_, ahead⟩, _⟩ := earliestAfter_eq_some_iff.mp next
  have present : (simulation.moveTo due service).clock.now = due := moveTo_now (Nat.le_of_lt ahead)
  have after : due ≤ now := present ▸ caught.after
  have moved : simulation.moveTo now ((simulation.moveTo due service).withPublisher first) =
      (simulation.moveTo now service).withPublisher first :=
    congrArg (·.withPublisher first) (moveTo_moveTo service after)
  have still' := caught.still
  have back := caught.back
  rw [moved] at still' back
  refine ⟨caught.channel, Nat.le_trans (Nat.le_of_lt ahead) after, .inr ?_, still', caught.idle, fun last reaches => ?_⟩
  · rcases caught.inside with same | early
    · rw [same]
      exact Nat.lt_of_le_of_lt (Nat.le_of_eq present) soon
    · exact early
  · exact .timer (.still still) next (by omega) (settles.reaches (back last reaches))

theorem clock (caught : service.CaughtUp instant limit now publisher) :
    ((simulation.moveTo now service).withPublisher publisher).clock.now = now :=
  moveTo_now caught.after

/-- Nothing at all is due before the limit. -/
theorem timers (caught : service.CaughtUp instant limit now publisher)
    (none : ∀ timer ∈ service.coreTimers, service.clock.now < timer → limit ≤ timer) :
    ∀ timer ∈ ((simulation.moveTo now service).withPublisher publisher).timers,
      ((simulation.moveTo now service).withPublisher publisher).clock.now < timer → limit ≤ timer := by
  intro timer member later
  rw [caught.clock] at later
  rcases List.mem_append.mp member with own | channel
  · exact none timer own (Nat.lt_of_le_of_lt caught.after later)
  · exact caught.idle timer channel later

end CaughtUp

/-- The side channel does what it has to do before the rest of the service goes on. -/
theorem exists_caughtUp (instant limit : Nat) (sound : service.Sound) (still : service.turn? = none)
    (channel : service.publisher.Sound) (none : ∀ timer ∈ service.coreTimers, service.clock.now < timer → limit ≤ timer)
    (inTime : limit ≤ instant + 1) : ∃ now publisher, service.CaughtUp instant limit now publisher := by
  induction left : service.publisher.turnsLeft using Nat.strongRecOn generalizing service with
  | ind left' ih =>
    subst left
    by_cases idle : ∀ timer ∈ service.publisher.timers, service.clock.now < timer → limit ≤ timer
    · exact ⟨_, _, .of_idle still channel idle⟩
    · obtain ⟨timer, member, later, early⟩ : ∃ timer, timer ∈ service.publisher.timers ∧
          service.clock.now < timer ∧ timer < limit := by simpa using idle
      obtain ⟨due, next, before⟩ := earliestAfter_of_mem (List.mem_append_right service.coreTimers member) later
      obtain ⟨⟨among, ahead⟩, _⟩ := earliestAfter_eq_some_iff.mp next
      have soon : due < limit := Nat.lt_of_le_of_lt before early
      have mine : due ∈ service.publisher.timers := by
        rcases List.mem_append.mp among with own | channel
        · exact absurd soon (Nat.not_lt_of_le (none due own ahead))
        · exact channel
      have now := moveTo_now (Nat.le_of_lt ahead)
      have busy : service.publisher.turn? (simulation.moveTo due service).clock.now ≠ .none := by
        rw [now]
        exact publisher_busy still channel mine next
      have stillCore : service.turnCore? = .none := by
        rw [turn?_eq, Option.or_eq_none_iff] at still
        exact still.1
      have still' : (simulation.moveTo due service).turnCore? = .none := by
        refine sound.turnCore?_moveTo stillCore fun other member ahead => ?_
        exact Nat.lt_of_lt_of_le soon (none other member ahead)
      obtain ⟨publisher, channel', settles, _, lower⟩ := settles_of_still still' channel
      obtain ⟨now', publisher', caught⟩ :=
        ih publisher.turnsLeft (lower busy) ((sound.moveTo due).withPublisher publisher) settles.turn_eq_none channel'
          (fun other member later => none other member (Nat.lt_trans ahead (now ▸ later))) rfl
      exact ⟨now', publisher', .of_timer still next soon inTime settles caught⟩

theorem reaches_of_core (sound : service.Sound) (channel : publisher.Sound) (reaches : core.Reaches instant service last) :
    ∃ publisher', publisher'.Sound ∧
      simulation.Reaches instant (service.withPublisher publisher) (last.withPublisher publisher') := by
  induction reaches generalizing publisher with
  | @timer service middle last due settles timer inTime rest ih =>
    obtain ⟨first, channel', settled⟩ := settles_of_core (core_settles_withPublisher settles publisher) channel
    obtain ⟨⟨mine, ahead⟩, least⟩ := earliestAfter_eq_some_iff.mp timer
    have sound' := core_settles_sound settles sound
    obtain ⟨now, second, caught⟩ :=
      exists_caughtUp instant due (sound'.withPublisher first) settled.turn_eq_none channel' least (by omega)
    have early : now < due := caught.inside.elim (fun same => same ▸ ahead) id
    have next : simulation.nextTimer ((simulation.moveTo now middle).withPublisher second) = some due := by
      refine earliestAfter_eq_some_iff.mpr ⟨⟨List.mem_append_left _ mine, ?_⟩, caught.timers least⟩
      exact Nat.lt_of_le_of_lt (Nat.le_of_eq caught.clock) early
    have moved : simulation.moveTo due ((simulation.moveTo now middle).withPublisher second) =
        (simulation.moveTo due middle).withPublisher second :=
      congrArg (·.withPublisher second) (moveTo_moveTo middle (Nat.le_of_lt early))
    obtain ⟨third, sound'', reaches⟩ := ih (sound'.moveTo due) caught.channel
    have goesOn := caught.back _ (.timer (.still caught.still) next inTime (moved ▸ reaches))
    exact ⟨third, sound'', settled.reaches goesOn⟩
  | @last service middle last settles far settled =>
    obtain ⟨first, channel', settled'⟩ := settles_of_core (core_settles_withPublisher settles publisher) channel
    have sound' := core_settles_sound settles sound
    have none : ∀ timer ∈ middle.coreTimers, middle.clock.now < timer → instant + 1 ≤ timer := by
      intro timer member later
      obtain ⟨next, first, before⟩ := earliestAfter_of_mem member later
      exact Nat.lt_of_lt_of_le (far next first) before
    obtain ⟨now, second, caught⟩ := exists_caughtUp instant (instant + 1) (sound'.withPublisher first)
      settled'.turn_eq_none channel' none (Nat.le_refl _)
    have moved : simulation.moveTo instant ((simulation.moveTo now middle).withPublisher second) =
        (simulation.moveTo instant middle).withPublisher second := by
      have core : simulation.moveTo instant (simulation.moveTo now middle) = simulation.moveTo instant middle := by
        rcases caught.inside with same | inTime
        · have same : now = middle.clock.now := same
          rw [same, moveTo_now_self]
        · exact moveTo_moveTo middle (Nat.le_of_lt_succ inTime)
      exact congrArg (·.withPublisher second) core
    have far' : ∀ due, simulation.nextTimer ((simulation.moveTo now middle).withPublisher second) = some due →
        instant < due := by
      intro due next
      obtain ⟨⟨member, later⟩, _⟩ := earliestAfter_eq_some_iff.mp next
      exact caught.timers none due member later
    obtain ⟨third, sound'', settles'⟩ := settles_of_core (core_settles_withPublisher settled second) caught.channel
    exact ⟨third, sound'', settled'.reaches (caught.back _ (.last (.still caught.still) far' (moved ▸ settles')))⟩

/-- A part of what users do with a service. -/
inductive Cue where
  /-- A user does something. -/
  | act (event : Event)
  /-- Time passes up to an instant. -/
  | wait (instant : Nat)

/-- Users go through a script, and a service does by itself what it can do meanwhile. -/
inductive Plays : Service → List Cue → Service → Prop
  | done {service : Service} : Plays service [] service
  | act {service next last : Service} {event : Event} {script : List Cue} (user : event.OfUser)
      (step : service.step? event = some next) (rest : Plays next script last) :
      Plays service (.act event :: script) last
  | wait {service next last : Service} {instant : Nat} {script : List Cue}
      (reaches : simulation.Reaches instant service next) (rest : Plays next script last) :
      Plays service (.wait instant :: script) last

theorem Plays.unique {script : List Cue} {other : Service} (plays : Plays service script last)
    (plays' : Plays service script other) : last = other := by
  induction plays with
  | done =>
    cases plays'
    rfl
  | act _ step _ ih =>
    cases plays' with
    | act _ step' rest =>
      cases step.symm.trans step'
      exact ih rest
  | wait reaches _ ih =>
    cases plays' with
    | wait reaches' rest =>
      obtain rfl := reaches.unique reaches'
      exact ih rest

/-- A script that one service can follow can be followed with another side channel, and all else is the same. -/
theorem Plays.withPublisher {script : List Cue} (plays : Plays service script last) (sound : service.Sound)
    (channel : publisher.Sound) :
    ∃ publisher', publisher'.Sound ∧ Plays (service.withPublisher publisher) script (last.withPublisher publisher') := by
  induction plays generalizing publisher with
  | done => exact ⟨publisher, channel, .done⟩
  | act user step _ ih =>
    obtain ⟨first, channel', step'⟩ := step?_withPublisher user step channel
    obtain ⟨second, channel'', plays⟩ := ih (sound.step step) channel'
    exact ⟨second, channel'', .act user step' plays⟩
  | @wait service next last instant script reaches _ ih =>
    obtain ⟨first, channel', reaches'⟩ := reaches_of_core sound channel (core_reaches sound reaches)
    have core := core_reaches_sound (core_reaches sound reaches) sound
    obtain ⟨second, channel'', plays⟩ := ih (core.withPublisher next.publisher) channel'
    exact ⟨second, channel'', .wait reaches' plays⟩

theorem sameCore_of_plays (fresh : service.Fresh) {capacity timeout : Nat}
    {sink : List (HedgedForecast.Event → Delivery)} {script : List Cue}
    (plays : Plays (service.withPublisher (.make capacity timeout sink)) script last) (capacity' timeout' : Nat)
    (sink' : List (HedgedForecast.Event → Delivery)) :
    (∃ last', Plays (service.withPublisher (.make capacity' timeout' sink')) script last') ∧
      ∀ last', Plays (service.withPublisher (.make capacity' timeout' sink')) script last' → SameCore last last' := by
  have sound := (Sound.fresh fresh).withPublisher (.make capacity timeout sink)
  obtain ⟨publisher, _, plays'⟩ := plays.withPublisher sound (.make capacity' timeout' sink')
  refine ⟨⟨_, plays'⟩, fun last' other => ?_⟩
  cases plays'.unique other
  rfl

/-- A user asks for a forecast and waits for a while. -/
def asking : List Cue :=
  [.act (.scope none), .act (.begin threeDaysInOslo ⟨5000, ⟨[0]⟩⟩), .wait 5]

theorem sameCore_asking :
    ∃ last, Plays (patientService.withPublisher (.make 1 1000 [])) asking last ∧
      last.hedger.calls.toList.map ProviderCall.startedAt = [0] ∧
      ((∃ last', Plays (patientService.withPublisher (.make 2 3 [fun _ => { ending := .panic }])) asking last') ∧
        ∀ last', Plays (patientService.withPublisher (.make 2 3 [fun _ => { ending := .panic }])) asking last' →
          SameCore last last') := by
  have waited (service : Service) (settled : simulation.isSettled (simulation.settle 20 service) = true)
      (far : ∀ due, simulation.nextTimer (simulation.settle 20 service) = some due → 5 < due)
      (settled' : simulation.isSettled
        (simulation.settle 20 (simulation.moveTo 5 (simulation.settle 20 service))) = true) :
      Plays service [.wait 5] (simulation.settle 20 (simulation.moveTo 5 (simulation.settle 20 service))) :=
    .wait (.last (Simulation.settles_of_isSettled 20 settled) far (Simulation.settles_of_isSettled 20 settled')) .done
  have plays : Plays (patientService.withPublisher (.make 1 1000 [])) asking _ :=
    .act trivial rfl (.act trivial rfl (waited _ rfl (by decide) rfl))
  exact ⟨_, plays, rfl, sameCore_of_plays fresh_patientService plays _ _ _⟩

end HedgedForecast.Service
