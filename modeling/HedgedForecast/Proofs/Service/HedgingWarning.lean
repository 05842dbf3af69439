import HedgedForecast.Proofs.Hedge.TimedStarts
import HedgedForecast.Proofs.Provider.Failures
import HedgedForecast.Proofs.Service.Blame
import HedgedForecast.Proofs.Service.StaleValues
import HedgedForecast.Proofs.Settings.Warnings

/-! # When hedging starts although lookups have no time for it

Settings by which a lookup has no more time than the first provider runs alone are warned about: hedging never starts.
But the timer of a fetch is that of its flight, and flights do not have the deadlines of lookups. A flight that needs
nobody goes on after all lookups are over, and so does one that a later lookup waits for, so that the timer can start
the second provider. It does so for no other flights.
-/

namespace HedgedForecast

namespace Cache

variable {V : Type} {cache next : Cache V}

theorem Reachable.launchedAt_le {rule : Rule V} (reachable : Reachable rule cache) {number : Nat} {flight : Flight V}
    (present : cache.flights[number]? = some flight) : flight.launchedAt ≤ cache.clock.now := by
  obtain ⟨maxEntries, run⟩ := reachable
  induction run generalizing flight with
  | nil => simp [empty] at present
  | @snoc middle target event before _ step ih =>
    cases there : middle.flights[number]? with
    | none =>
      obtain ⟨_, _, _, _, launched⟩ := step_launched step there present
      rw [launched.launchedAt]
      exact (Extends.step step).now
    | some earlier =>
      obtain ⟨later, here, follows⟩ := (Extends.step step).flights number earlier there
      obtain rfl := Option.some.inj (present.symm.trans here)
      rw [follows.launchedAt]
      exact Nat.le_trans (ih there) (Extends.step step).now

/-- All calls were given the same time when they began. -/
def Grants (timeout : Nat) (cache : Cache V) : Prop :=
  ∀ (number : Nat) (call : Call V), cache.calls[number]? = some call → call.deadline.instant = call.begunAt + timeout

theorem Grants.step {timeout : Nat} {event : Event V} (grants : cache.Grants timeout)
    (step : cache.step? event = some next) (begins : ∀ key policy deadline, event = .begin key policy deadline →
      deadline.instant = cache.clock.now + timeout) : next.Grants timeout := by
  intro number call present
  cases step_cameFrom step present with
  | same before => exact grants number call before
  | answered before _ same | dropped before same =>
    have earlier := grants number _ before
    rw [same]
    exact earlier
  | begun _ _ same =>
    rw [same]
    exact begins _ _ _ rfl

end Cache

namespace Service

variable {source service next : Service}

/-- Moreover every lookup has the request time of the service. -/
def Requested : Rule
  | service, .begin _ deadline => deadline.instant = service.clock.now + service.requestTimeout
  | service, event => Punctual service event

theorem Requested.punctual {event : Event} (requested : Requested service event) : Punctual service event := by
  cases event with
  | begin => trivial
  | _ => exact requested

theorem Requested.lawful {event : Event} (requested : Requested service event) : Lawful service event :=
  requested.punctual.lawful

/-- To stop the fetch of a flight is to go on without it. -/
theorem dropFetch_continues (service : Service) (number : Nat) :
    service.hedger.Continues (service.dropFetch number).hedger ∧
      (service.dropFetch number).requestTimeout = service.requestTimeout := by
  rcases dropFetch_cases service number with ⟨_, _, same⟩ | ⟨_, same⟩
  · rw [same]
    exact ⟨.drop .., rfl⟩
  · rw [same]
    exact ⟨.refl _, rfl⟩

/-- What a service was made with stays. -/
theorem Move.times (move : Move service next) :
    next.hedger.threshold = service.hedger.threshold ∧ next.requestTimeout = service.requestTimeout := by
  cases move with
  | @flight number cache turn =>
    obtain ⟨continues, requestTimeout⟩ := dropFetch_continues { service with cache } number
    exact ⟨continues.threshold, requestTimeout⟩
  | hedger works => exact ⟨works.continues.threshold, rfl⟩
  | cache | lookup | fetch | publish => exact ⟨rfl, rfl⟩

theorem Run.times (run : Run source service) :
    service.hedger.threshold = source.hedger.threshold ∧ service.requestTimeout = source.requestTimeout := by
  have kept (middle later : Service) (before : middle.hedger.threshold = source.hedger.threshold ∧
      middle.requestTimeout = source.requestTimeout) (move : Move middle later) :
      later.hedger.threshold = source.hedger.threshold ∧ later.requestTimeout = source.requestTimeout :=
    ⟨move.times.1.trans before.1, move.times.2.trans before.2⟩
  exact run.invariant ⟨rfl, rfl⟩ kept

theorem grants_step {event : Event} (grants : service.cache.Grants service.requestTimeout)
    (requested : Requested service event) (step : service.step? event = some next) :
    next.cache.Grants service.requestTimeout := by
  cases effect_of_step step with
  | lookup request deadline =>
    have began : (service.cache.begin request.cacheKey service.policy deadline).2.Grants service.requestTimeout := by
      have stepped : service.cache.step? (.begin request.cacheKey service.policy deadline) = some _ := rfl
      refine grants.step stepped ?_
      rintro _ _ _ ⟨⟩
      exact requested
    unfold Service.begin pollCall
    simp only
    cases turn : Cache.turnCall? _ _ with
    | none => exact began
    | some cache =>
      have polled : Cache.step? _ (.call _) = some cache := turn
      exact began.step polled fun _ _ _ => nofun
  | @flight number cache turn =>
    have stepped : service.cache.step? (.flight number (service.workOf number)) = some cache := turn
    have turned : cache.Grants service.requestTimeout := grants.step stepped fun _ _ _ => nofun
    intro place call present
    rw [(dropFetch_frame { service with cache } number).2.1] at present
    exact turned place call present
  | own known stepped =>
    refine grants.step stepped fun key policy deadline same => ?_
    have quiet := Event.quiet_of_own? known
    rw [same] at quiet
    exact quiet.elim
  | fetch | hedger | publish => exact grants

theorem RunBy.grants (run : RunBy Requested source service) (fresh : source.Fresh) :
    service.cache.Grants service.requestTimeout := by
  induction run with
  | nil =>
    obtain ⟨maxEntries, empty⟩ := fresh.cache
    intro number call present
    simp [empty, Cache.empty] at present
  | @snoc middle target event before requested step ih =>
    rw [(Run.single step).times.2]
    exact grants_step ih requested step

/-- The timer of a fetch gives the first provider its time alone, from the launch of the flight at least. -/
def Paced (service : Service) : Prop :=
  ∀ number fetch, service.fetchOf.lookup number = some fetch → ∃ flight run,
    service.cache.flights[number]? = some flight ∧ service.hedger.fetches[fetch]? = some run ∧
    flight.launchedAt + service.hedger.threshold ≤ run.fetch.timerAt

namespace Paced

/-- Fetches go on, and flights are not forgotten. -/
theorem goOn (paced : service.Paced) (extended : Cache.Extends next.cache service.cache)
    (continues : service.hedger.Continues next.hedger) (fetchOf : next.fetchOf = service.fetchOf) : next.Paced := by
  intro number fetch known
  rw [fetchOf] at known
  obtain ⟨flight, run, present, there, late⟩ := paced number fetch known
  obtain ⟨flight', present', follows⟩ := extended.flights number flight present
  obtain ⟨run', there', goes⟩ := continues.fetches fetch run there
  refine ⟨flight', run', present', there', ?_⟩
  rw [follows.launchedAt, continues.threshold, goes.timerAt]
  exact late

theorem move (paced : service.Paced) (sound : service.Sound) (waits : 0 < service.hedger.threshold)
    (move : Move service next) : next.Paced := by
  have extended : Cache.Extends next.cache service.cache := .run move.cache_run
  cases move with
  | @flight number cache turn =>
    have continues := (dropFetch_continues { service with cache } number).1
    exact paced.goOn extended continues (dropFetch_fetchOf ..).1
  | hedger works => exact paced.goOn extended works.continues rfl
  | cache | lookup | publish => exact paced.goOn extended (.refl _) rfl
  | @fetch number flight request deadline present =>
    intro place index known
    have known : ((number, service.hedger.fetches.size) :: service.fetchOf).lookup place = some index := known
    rw [List.lookup_cons] at known
    split at known
    · next same =>
      obtain rfl := Option.some.inj known
      obtain rfl := beq_iff_eq.mp same
      have timerAt := (Fetch.begin_alone service.clock service.hedger.providers.length waits deadline).1
      have launched := sound.cache.launchedAt_le present
      refine ⟨flight, _, present, Array.getElem?_push_size, ?_⟩
      exact Nat.le_trans (Nat.add_le_add_right launched _) (Nat.le_of_eq timerAt.symm)
    · obtain ⟨other, run, present', there, late⟩ := paced place index known
      exact ⟨other, run, present', getElem?_push_of_some _ there, late⟩

theorem run (fresh : source.Fresh) (waits : 0 < source.hedger.threshold) (run : Run source service) :
    service.Paced := by
  have kept (middle later : Service)
      (before : middle.Sound ∧ middle.hedger.threshold = source.hedger.threshold ∧ middle.Paced)
      (move : Move middle later) :
      later.Sound ∧ later.hedger.threshold = source.hedger.threshold ∧ later.Paced := by
    obtain ⟨sound, same, paced⟩ := before
    exact ⟨sound.move move, move.times.1.trans same, paced.move sound (same ▸ waits) move⟩
  have start : source.Paced := by
    intro number fetch known
    rw [fresh.fetchOf] at known
    contradiction
  exact (run.invariant ⟨.fresh fresh, rfl, start⟩ kept).2.2

end Paced

/-- Where the timer of a fetch starts a provider, it is due. -/
theorem exists_due {event : Event} {fetch : Nat} (waits : 0 < service.hedger.threshold)
    (step : service.step? event = some next) (starts : service.hedger.TimerStarts next.hedger fetch) :
    ∃ run, service.hedger.fetches[fetch]? = some run ∧ run.fetch.Due service.clock := by
  cases effect_of_step step with
  | hedger works => exact works.due starts
  | @flight number cache turn =>
    rcases dropFetch_cases { service with cache } number with ⟨_, _, same⟩ | ⟨_, same⟩
    · rw [same] at starts
      exact absurd starts (Hedger.TimerStarts.not_drop _ _)
    · rw [same] at starts
      exact absurd starts (Hedger.TimerStarts.not_of_same rfl)
  | fetch => exact absurd starts (Hedger.TimerStarts.not_begin waits _ _ _)
  | lookup | own | publish => exact absurd starts (Hedger.TimerStarts.not_of_same rfl)

/-- The flight still runs although the first provider has had its time alone since the launch. It does so because it
needs nobody, or because somebody waits for it whose request time is not over. -/
structure Outlives (service : Service) (number : Nat) (flight : Flight (List ForecastDay)) : Prop where
  present : service.cache.flights[number]? = some flight
  running : flight.isRunning = true
  uncancelled : service.clock.isCancelled flight.token = false
  past : flight.launchedAt + service.hedger.threshold ≤ service.clock.now
  kept : flight.detached = true ∨ ∃ (place : Nat) (call : Call (List ForecastDay)),
    service.cache.calls[place]? = some call ∧ call.flight? = some number ∧
      service.clock.now ≤ call.begunAt + service.requestTimeout

/-- The timer starts providers only for such flights. -/
theorem exists_outlives {event : Event} {fetch : Nat} (fresh : source.Fresh)
    (modest : ∀ provider ∈ source.hedger.providers, provider.IsModest) (waits : 0 < source.hedger.threshold)
    (run : RunBy Requested source service) (step : service.step? event = some next)
    (starts : service.hedger.TimerStarts next.hedger fetch) :
    ∃ number flight, service.fetchOf.lookup number = some fetch ∧ service.Outlives number flight := by
  have start : source.Watched := .fresh fresh modest
  have punctual : RunBy Punctual source service := run.weaken fun _ _ => Requested.punctual
  have watched : service.Watched := start.run (run.weaken fun _ _ => Requested.lawful)
  have prompt : Cache.Reachable Cache.Prompt service.cache := by
    obtain ⟨maxEntries, empty⟩ := fresh.cache
    exact ⟨maxEntries, empty ▸ start.prompt punctual⟩
  obtain ⟨fetchRun, there, due⟩ := exists_due (run.run.times.1 ▸ waits) step starts
  obtain ⟨number, flight, known, serves⟩ := watched.sound.linked.fetches fetch fetchRun there
  obtain ⟨flight', run', present', there', late⟩ := Paced.run fresh waits run.run number fetch known
  obtain rfl := Option.some.inj (serves.present.symm.trans present')
  obtain rfl := Option.some.inj (there.symm.trans there')
  have uncancelled : service.clock.isCancelled flight.token = false := by
    rw [← serves.token]
    exact due.isOpen.uncancelled
  refine ⟨number, flight, known, serves.present, ?_, uncancelled, Nat.le_trans late due.due, ?_⟩
  · by_contra ended
    exact serves.ended (by simpa using ended) due.undecided
  · have accounted := (watched.honest.weaken fun _ _ => Cache.Honest.lawful).accounted
    cases detached : flight.detached with
    | true => exact .inl rfl
    | false =>
      have books := accounted.waiters number flight serves.present
      have cancelled := accounted.cancelled_iff number flight serves.present
      rw [Service.clock] at uncancelled
      have positive : 0 < service.cache.waiting number := by
        by_contra none
        have zero : flight.waiters = 0 := by
          simp only [List.count_nil] at books
          omega
        rw [uncancelled] at cancelled
        exact absurd (cancelled.mpr ⟨detached, zero⟩) Bool.false_ne_true
      obtain ⟨place, call, waiting, own⟩ := Cache.exists_waiting positive
      have inTime := prompt.now_le_of_waiting waiting own
      have granted := run.grants fresh place call waiting
      refine .inr ⟨place, call, waiting, own, Nat.le_trans inTime (Nat.max_le.mpr ⟨?_, ?_⟩)⟩
      · exact Nat.le_of_eq granted
      · exact Nat.le_add_right ..

/-- Lookups have the request time, nobody cancels anything, and time moves on from timer to timer. -/
def Ordinary : Rule
  | service, .begin _ deadline => deadline.instant = service.clock.now + service.requestTimeout
  | service, .pass instant =>
      service.turn?.isNone = true ∧ ∀ timer ∈ service.timers, service.clock.now < timer → instant ≤ timer
  | _, .cancel _ => False
  | _, _ => True

instance (service : Service) (event : Event) : Decidable (Ordinary service event) :=
  match event with
  | .begin _ deadline => inferInstanceAs (Decidable (deadline.instant = service.clock.now + service.requestTimeout))
  | .pass instant => inferInstanceAs (Decidable (service.turn?.isNone = true ∧
      ∀ timer ∈ service.timers, service.clock.now < timer → instant ≤ timer))
  | .cancel _ => inferInstanceAs (Decidable False)
  | .flight _ | .leg _ _ | .fetch _ | .call _ | .publish | .drop _ | .purge | .scope _ =>
    inferInstanceAs (Decidable True)

theorem Ordinary.requested {event : Event} (ordinary : Ordinary service event) : Requested service event := by
  cases event with
  | pass => exact ⟨Option.isNone_iff_eq_none.mp ordinary.1, ordinary.2⟩
  | begin => exact ordinary
  | cancel => exact ordinary.elim
  | _ => trivial

/-- Events make a run as far as they are allowed and can happen, one after the other. -/
theorem RunBy.of_events {rule : Rule} [∀ service event, Decidable (rule service event)] {events : List Event}
    (run : RunBy rule source service)
    (steps : events.foldlM (fun service event => if rule service event then service.step? event else none) service =
      some next) : RunBy rule source next := by
  induction events generalizing service with
  | nil => cases steps; exact run
  | cons event events ih =>
    obtain ⟨middle, step, rest⟩ := Option.bind_eq_some_iff.mp steps
    obtain ⟨allowed, step⟩ := Option.ite_none_right_eq_some.mp step
    exact ih (.snoc run allowed step) rest

/-- Two lookups of the same forecast, the second sixty milliseconds after the first, which it outlives. -/
def relayed : List Event :=
  [.scope none, .begin threeDaysInOslo ⟨100, ⟨[0]⟩⟩, .publish, .publish, .flight 0, .flight 0, .leg 0 0, .pass 60,
    .scope none, .begin threeDaysInOslo ⟨160, ⟨[4]⟩⟩, .publish, .publish, .pass 100, .call 0, .pass 150]

/-- The timer of their fetch starts the second provider, which is called. -/
theorem exists_relayed : ∃ source service next last,
    ofSettings (fun _ => .silent) .epoch Settings.hasty = .ok source ∧
    relayed.foldlM (fun service event => if Ordinary service event then service.step? event else none) source =
      some service ∧
    service.step? (.fetch 0) = some next ∧ service.hedger.TimerStarts next.hedger 0 ∧
    next.step? (.leg 0 1) = some last ∧
    last.hedger.calls.toList.map ProviderCall.provider = [OpenMeteo.name, WeatherApi.name] := by
  refine ⟨_, _, _, _, rfl, rfl, rfl, ⟨_, rfl, rfl, ?_⟩, rfl, rfl⟩
  decide

/-- The service is new and has the times of the settings. Its providers may do anything but fail in ways for which
callers would be blamed. -/
structure KeepsTo (settings : Settings) (service : Service) : Prop where
  fresh : service.Fresh
  threshold : service.hedger.threshold = settings.lookup.primaryMaxDuration.toNat
  requestTimeout : service.requestTimeout = settings.lookup.requestTimeout.toNat
  modest : ∀ provider ∈ service.hedger.providers, provider.IsModest

theorem keepsTo_of_assemble {networks : Networks} {startedAt : Moment} {settings : Settings}
    (made : assemble networks startedAt settings = .ok service) : KeepsTo settings service := by
  have describes := describes_of_assemble made
  refine ⟨describes.fresh, describes.threshold, describes.requestTimeout, fun provider member => ?_⟩
  rw [describes.providers] at member
  obtain ⟨adapter, _, rfl⟩ := List.mem_map.mp member
  exact adapter.isModest_providerOver _

end Service

namespace Settings

variable {settings : Settings}

/-- What is true of the warning that hedging never starts. -/
structure HedgingWarning (settings : Settings) : Prop where
  /-- It is given if lookups have no more time than the first provider runs alone. -/
  given : hedgingNeverStarts ∈ settings.check.warnings ↔
    settings.lookup.requestTimeout.toNat ≤ settings.lookup.primaryMaxDuration.toNat
  assembled : ∀ transport startedAt, ∃ source, Service.ofSettings transport startedAt settings = .ok source ∧
    Service.KeepsTo settings source
  /-- Where it is given, a flight for which the timer starts a provider needs nobody, or somebody waits for it who came
  later than the launch by as much as the request time is shorter. -/
  outlived : hedgingNeverStarts ∈ settings.check.warnings →
    ∀ (source service next : Service) (event : Service.Event) (fetch : Nat), Service.KeepsTo settings source →
    Service.RunBy Service.Requested source service → service.step? event = some next →
    service.hedger.TimerStarts next.hedger fetch →
    ∃ number flight, service.fetchOf.lookup number = some fetch ∧ service.Outlives number flight ∧
      (flight.detached = true ∨ ∃ (place : Nat) (call : Call (List ForecastDay)),
        service.cache.calls[place]? = some call ∧ call.flight? = some number ∧ flight.launchedAt +
          (settings.lookup.primaryMaxDuration.toNat - settings.lookup.requestTimeout.toNat) ≤ call.begunAt)
  /-- So it is true of flights that need somebody and that nobody joins after the launch, but for the instant at which
  the request time is over if the first provider runs alone for just as long. -/
  alone : hedgingNeverStarts ∈ settings.check.warnings →
    ∀ (source service next : Service) (event : Service.Event) (number fetch : Nat)
      (flight : Flight (List ForecastDay)), Service.KeepsTo settings source →
    Service.RunBy Service.Requested source service → service.step? event = some next →
    service.fetchOf.lookup number = some fetch → service.cache.flights[number]? = some flight →
    flight.detached = false →
    (∀ (place : Nat) (call : Call (List ForecastDay)), service.cache.calls[place]? = some call →
      call.flight? = some number → call.begunAt = flight.launchedAt) →
    service.hedger.TimerStarts next.hedger fetch →
    settings.lookup.requestTimeout = settings.lookup.primaryMaxDuration ∧
      service.clock.now = flight.launchedAt + settings.lookup.requestTimeout.toNat

/-- Under settings without errors the timer starts providers only for flights that outlive the time of the first. -/
theorem exists_outlives (valid : settings.check.isValid) {source service next : Service} {event : Service.Event}
    {fetch : Nat} (keeps : Service.KeepsTo settings source) (run : Service.RunBy Service.Requested source service)
    (step : service.step? event = some next) (starts : service.hedger.TimerStarts next.hedger fetch) :
    service.hedger.threshold = settings.lookup.primaryMaxDuration.toNat ∧
      service.requestTimeout = settings.lookup.requestTimeout.toNat ∧
      ∃ number flight, service.fetchOf.lookup number = some fetch ∧ service.Outlives number flight := by
  obtain ⟨threshold, requestTimeout⟩ := run.run.times
  have waits : 0 < source.hedger.threshold := by
    rw [keeps.threshold]
    exact (lookup_of_isValid valid).1
  exact ⟨threshold.trans keeps.threshold, requestTimeout.trans keeps.requestTimeout,
    Service.exists_outlives keeps.fresh keeps.modest waits run step starts⟩

theorem hedgingWarning_of_isValid (valid : settings.check.isValid) : settings.HedgingWarning where
  given := hedgingNeverStarts_mem_iff valid
  assembled := by
    intro transport startedAt
    have made := Service.assemble_eq_new (.steady transport) startedAt
      (Adapter.ofSettings_ne_nil (providers_isValid valid))
    exact ⟨_, made, Service.keepsTo_of_assemble made⟩
  outlived := by
    intro warned source service next event fetch keeps run step starts
    have short := (hedgingNeverStarts_mem_iff valid).mp warned
    obtain ⟨threshold, requestTimeout, number, flight, known, outlives⟩ := exists_outlives valid keeps run step starts
    refine ⟨number, flight, known, outlives, outlives.kept.imp_right ?_⟩
    rintro ⟨place, call, present, own, inTime⟩
    have past := outlives.past
    exact ⟨place, call, present, own, by omega⟩
  alone := by
    intro warned source service next event number fetch flight keeps run step known present attached together starts
    have short := (hedgingNeverStarts_mem_iff valid).mp warned
    obtain ⟨threshold, requestTimeout, other, flight', known', outlives⟩ :=
      exists_outlives valid keeps run step starts
    have watched : service.Watched :=
      (Service.Watched.fresh keeps.fresh keeps.modest).run (run.weaken fun _ _ => Service.Requested.lawful)
    obtain rfl := watched.candid.fetch_unique watched.honest.rooted known known'
    obtain rfl := Option.some.inj (present.symm.trans outlives.present)
    have past := outlives.past
    rcases outlives.kept with detached | ⟨place, call, there, own, inTime⟩
    · rw [attached] at detached
      contradiction
    · rw [together place call there own] at inTime
      exact ⟨UInt64.toNat_inj.mp (by omega), by omega⟩

/-- In the run of two lookups the timer starts the second provider, which is called for the sake of the later one. -/
theorem hedgingWarning_hasty : ∃ source service next last number flight, hasty.check.isValid ∧
    hedgingNeverStarts ∈ hasty.check.warnings ∧ Service.KeepsTo hasty source ∧
    Service.RunBy Service.Requested source service ∧ service.step? (.fetch 0) = some next ∧
    service.hedger.TimerStarts next.hedger 0 ∧ next.step? (.leg 0 1) = some last ∧
    last.hedger.calls.toList.map ProviderCall.provider = [OpenMeteo.name, WeatherApi.name] ∧
    service.fetchOf.lookup number = some 0 ∧ service.Outlives number flight ∧ hasty.HedgingWarning := by
  obtain ⟨source, service, next, last, made, steps, step, starts, begins, called⟩ := Service.exists_relayed
  have keeps := Service.keepsTo_of_assemble made
  have run : Service.RunBy Service.Requested source service :=
    (Service.RunBy.nil.of_events steps).weaken fun _ _ => Service.Ordinary.requested
  have warning := hedgingWarning_of_isValid isValid_hasty
  obtain ⟨number, flight, known, outlives, _⟩ :=
    warning.outlived hedgingNeverStarts_mem_hasty source service next (.fetch 0) 0 keeps run step starts
  exact ⟨source, service, next, last, number, flight, isValid_hasty, hedgingNeverStarts_mem_hasty, keeps, run, step,
    starts, begins, called, known, outlives, warning⟩

/-- Hedging does start in spite of the warning. -/
theorem not_never_timerStarts : ¬∀ (settings : Settings) (transport : Web.Transport) (startedAt : Moment)
    (source service next : Service) (event : Service.Event) (fetch : Nat), settings.check.isValid →
    hedgingNeverStarts ∈ settings.check.warnings → Service.ofSettings transport startedAt settings = .ok source →
    Service.RunBy Service.Ordinary source service → Service.Ordinary service event →
    service.step? event = some next → ¬service.hedger.TimerStarts next.hedger fetch := by
  intro never
  obtain ⟨source, service, next, _, made, steps, step, starts, _⟩ := Service.exists_relayed
  have run : Service.RunBy Service.Ordinary source service := Service.RunBy.nil.of_events steps
  have allowed : Service.Ordinary service (.fetch 0) := trivial
  exact never hasty _ _ source service next (.fetch 0) 0 isValid_hasty hedgingNeverStarts_mem_hasty made run allowed
    step starts

end Settings

end HedgedForecast
