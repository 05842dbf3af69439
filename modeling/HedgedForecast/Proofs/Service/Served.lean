import HedgedForecast.Proofs.Cache.ReadOrder
import HedgedForecast.Proofs.Hedge.Answers
import HedgedForecast.Proofs.Requests
import HedgedForecast.Proofs.Service.Load

/-! # Where forecasts come from

The days that a lookup returns are those of a flight of its key. The flight had them from its own fetch, and the
fetch from the call of a provider, which was for the request that launched the flight. Requests with one key ask
for the same forecast, so a lookup is served what some provider of the chain has told for its own question.
-/

namespace HedgedForecast

/-- All days that the provider may tell are those asked for: as many, and in order. -/
structure Provider.Thorough (provider : Provider) : Prop where
  size : ∀ request days, provider.MayTell request days → days.length = request.days
  ascending : ∀ request days, provider.MayTell request days → (days.map ForecastDay.date).Pairwise (· < ·)

namespace Cache

variable {V : Type} {rule : Rule V} {cache next : Cache V} {number instant : Nat} {call : Call V} {value : V}

/-- A quiet event launches no flight. -/
theorem Event.Quiet.earlier {event : Event V} (quiet : event.Quiet) (step : cache.step? event = some next)
    {later : Flight V} (present : next.flights[number]? = some later) :
    ∃ flight, cache.flights[number]? = some flight ∧ later.Rebooked flight := by
  obtain ⟨size, kept⟩ := quiet.flights step
  obtain ⟨inside, _⟩ := Array.getElem?_eq_some_iff.mp present
  have before : cache.flights[number]? = some _ := Array.getElem?_eq_getElem (size ▸ inside)
  obtain ⟨later', there, rebooked⟩ := kept number _ before
  obtain rfl := Option.some.inj (present.symm.trans there)
  exact ⟨_, before, rebooked⟩

/-- What a call returns some flight of its key has landed with. -/
theorem Reachable.landed_of_returned (reachable : Reachable rule cache) (present : cache.calls[number]? = some call)
    (returned : call.phase = .returned (.ok value) instant) :
    ∃ (place : Nat) (flight : Flight V),
      cache.flights[place]? = some flight ∧ flight.key = call.key ∧ flight.phase = .landed (.ok value) := by
  have landed {policy : Policy} {place ended : Nat} {own : V}
      (origin : Origin rule cache call.key policy place own ended) :
      ∃ (place : Nat) (flight : Flight V),
        cache.flights[place]? = some flight ∧ flight.key = call.key ∧ flight.phase = .landed (.ok own) := by
    obtain ⟨flight, there, key, _, landed, _⟩ := origin.landed
    exact ⟨place, flight, there, key, landed⟩
  cases reachable.stands present with
  | served phase source =>
    rw [returned] at phase
    cases phase
    cases source with
    | fresh found same _ => exact same ▸ landed found.origin
    | stale found same _ _ _ _ => exact same ▸ landed found.origin
    | flight _ origin _ _ => exact landed origin
  | failed phase | dropped phase | cold phase | stale phase =>
    rw [returned] at phase
    cases phase

end Cache

namespace Service

variable {service next source middle : Service} {chain : List Provider}

/-- Fetches belong to the requests of their flights, and flights land with what their fetches were told. -/
structure Truthful (chain : List Provider) (service : Service) : Prop where
  hedger : service.hedger.Faithful chain
  asked : ∀ number fetch, service.fetchOf.lookup number = some fetch →
    ∃ run, service.hedger.fetches[fetch]? = some run ∧ service.requests[number]? = some run.request
  landed : ∀ (number : Nat) (flight : Flight (List ForecastDay)) (days : List ForecastDay),
    service.cache.flights[number]? = some flight → flight.phase = .landed (.ok days) →
    ∃ request, service.requests[number]? = some request ∧ ∃ call ∈ service.hedger.calls, call.Answered request days

namespace Truthful

theorem fresh (fresh : source.Fresh) : source.Truthful source.hedger.providers := by
  obtain ⟨maxEntries, empty⟩ := fresh.cache
  refine ⟨.empty fresh.calls fresh.fetches, ?_, ?_⟩
  · rw [fresh.fetchOf]
    exact nofun
  · rw [empty]
    simp [Cache.empty]

/-- The fetch of a flight gives what a provider has told for the request of the flight. -/
theorem answered_of_workOf (truthful : service.Truthful chain) {number : Nat} {days : List ForecastDay}
    (gives : service.workOf number = some (.value days)) :
    ∃ request, service.requests[number]? = some request ∧
      ∃ call ∈ service.hedger.calls, call.Answered request days := by
  unfold workOf at gives
  split at gives
  · next own ended =>
    cases gives
    obtain ⟨fetch, known, result⟩ := Option.bind_eq_some_iff.mp ended
    obtain ⟨run, there, decided⟩ := Option.bind_eq_some_iff.mp result
    obtain ⟨run', there', asked⟩ := truthful.asked number fetch known
    obtain rfl := Option.some.inj (there.symm.trans there')
    exact ⟨run.request, asked, truthful.hedger.fetches run (Array.mem_of_getElem? there) days (.inl decided)⟩
  · cases gives
  · cases gives

/-- Fetches go on, and perhaps the clock. -/
theorem continues (truthful : service.Truthful chain) {hedger : Hedger} (faithful : hedger.Faithful chain)
    (logs : service.hedger.Logs hedger) (continues : service.hedger.Continues hedger) (clock : Clock) :
    ({ service with hedger }.withClock clock).Truthful chain := by
  refine ⟨faithful, fun number fetch known => ?_, fun number flight days present landed => ?_⟩
  · obtain ⟨run, there, asked⟩ := truthful.asked number fetch known
    obtain ⟨later, there', goes⟩ := continues.fetches fetch run there
    exact ⟨later, there', goes.request ▸ asked⟩
  · obtain ⟨request, asked, call, logged, answered⟩ := truthful.landed number flight days present landed
    exact ⟨request, asked, call, logs.kept call logged answered.ended, answered⟩

theorem dropFetch (truthful : service.Truthful chain) (number : Nat) : (service.dropFetch number).Truthful chain := by
  rcases dropFetch_cases service number with ⟨fetch, _, same⟩ | ⟨_, same⟩
  · rw [same]
    exact truthful.continues (truthful.hedger.drop service.clock fetch) (.drop ..) (.drop ..) _
  · rw [same]
    exact truthful

/-- A flight lands with the days of its fetch. -/
theorem flight (truthful : service.Truthful chain) {number : Nat} {cache : Cache (List ForecastDay)}
    (turn : service.cache.turnFlight? number (service.workOf number) = some cache) :
    ({ service with cache } : Service).Truthful chain := by
  obtain ⟨flight, later, present, turned, _, here, others⟩ := Cache.turnFlight?_flights turn
  refine ⟨truthful.hedger, truthful.asked, fun place flight' days there landed => ?_⟩
  by_cases same : number = place
  · subst same
    obtain rfl := Option.some.inj (here.symm.trans there)
    cases turned with
    | started => contradiction
    | ended _ verdict =>
      obtain rfl := Flight.endPhase_ok landed
      obtain ⟨_, absurd⟩ | ⟨_, _, absurd⟩ | ⟨_, _, result, gives, done⟩ := Deadline.verdict_cases verdict
      · contradiction
      · contradiction
      · cases done
        exact truthful.answered_of_workOf gives
  · exact truthful.landed place flight' days ((others place same).symm.trans there) landed

/-- The flight that a lookup may launch has not landed. -/
theorem lookup (truthful : service.Truthful chain) {cache : Cache (List ForecastDay)} {requests : Array Request}
    {request : Request} {deadline : Deadline} {publisher : Publisher HedgedForecast.Event}
    (began : (service.cache.begin request.cacheKey service.policy deadline).2 = cache)
    (known : ∀ (number : Nat) (asked : Request), service.requests[number]? = some asked →
      requests[number]? = some asked) :
    ({ service with cache, requests, publisher } : Service).Truthful chain := by
  have altered := Cache.Alters.begin service.cache request.cacheKey service.policy deadline
  rw [began] at altered
  refine ⟨truthful.hedger, fun number fetch own => ?_, fun number later days present landed => ?_⟩
  · obtain ⟨run, there, asked⟩ := truthful.asked number fetch own
    exact ⟨run, there, known number _ asked⟩
  · cases before : service.cache.flights[number]? with
    | none =>
      obtain ⟨_, _, _, launched⟩ := altered.launched number later before present
      rw [launched.phase] at landed
      contradiction
    | some flight =>
      obtain ⟨later', there, rebooked⟩ := altered.kept number flight before
      obtain rfl := Option.some.inj (present.symm.trans there)
      rw [rebooked.same] at landed
      obtain ⟨asked, own, answered⟩ := truthful.landed number flight days before landed
      exact ⟨asked, known number asked own, answered⟩

/-- A fetch begins for the request of its flight. -/
theorem fetch (truthful : service.Truthful chain) {number : Nat} {request : Request} (deadline : Deadline)
    (asked : service.requests[number]? = some request) :
    Truthful chain ({ service with
      hedger := (service.hedger.begin service.clock request deadline).2.1
      fetchOf := (number, service.hedger.fetches.size) :: service.fetchOf }.withClock
        (service.hedger.begin service.clock request deadline).2.2) := by
  have faithful := truthful.hedger.begin service.clock request deadline
  obtain ⟨fetch, clock, same, _⟩ := Hedger.begin_eq service.hedger service.clock request deadline
  rw [same] at faithful ⊢
  refine ⟨faithful, fun place own known => ?_, truthful.landed⟩
  have known : ((number, service.hedger.fetches.size) :: service.fetchOf).lookup place = some own := known
  rw [List.lookup_cons] at known
  split at known
  · next here =>
    obtain rfl := Option.some.inj known
    obtain rfl := beq_iff_eq.mp here
    exact ⟨_, Array.getElem?_push_size, asked⟩
  · obtain ⟨run, there, before⟩ := truthful.asked place own known
    exact ⟨run, getElem?_push_of_some _ there, before⟩

/-- Whatever happens, nobody makes up days. -/
theorem move (truthful : service.Truthful chain) (sound : service.Sound) (move : Move service next) :
    next.Truthful chain := by
  cases move with
  | cache quiet step =>
    refine ⟨truthful.hedger, truthful.asked, fun number later days present landed => ?_⟩
    obtain ⟨flight, before, rebooked⟩ := quiet.earlier step present
    rw [rebooked.same] at landed
    exact truthful.landed number flight days before landed
  | lookup request deadline publisher began asked =>
    refine truthful.lookup began fun number own present => ?_
    subst asked
    split
    · exact getElem?_push_of_some _ present
    · exact present
  | flight turn => exact (truthful.flight turn).dropFetch _
  | fetch _ asked _ _ => exact truthful.fetch _ asked
  | hedger works => exact truthful.continues (truthful.hedger.works sound.ledger works) (.works works) works.continues _
  | publish => exact ⟨truthful.hedger, truthful.asked, truthful.landed⟩

/-- The providers of the first service answer for every run. -/
theorem run (fresh : source.Fresh) (run : Run source service) : service.Truthful source.hedger.providers := by
  have kept (service next : Service) (both : service.Sound ∧ service.Truthful source.hedger.providers)
      (move : Move service next) : next.Sound ∧ next.Truthful source.hedger.providers :=
    ⟨both.1.move move, both.2.move both.1 move⟩
  exact (run.invariant ⟨.fresh fresh, .fresh fresh⟩ kept).2

end Truthful

/-- A lookup that has begun may be answered at once. -/
theorem begin_run (service : Service) (request : Request) (deadline : Deadline) :
    Cache.Run Cache.Exclusive (service.cache.begin request.cacheKey service.policy deadline).2
      (service.begin request deadline).2.cache := by
  unfold Service.begin pollCall
  generalize service.cache.begin request.cacheKey service.policy deadline = begun
  simp only
  cases turn : begun.2.turnCall? begun.1 with
  | none => exact .nil
  | some cache => exact .single (show Cache.Exclusive begun.2 (.call begun.1) from trivial) turn

/-- A lookup keeps the key of its request. -/
theorem key_of_begin {request : Request} {deadline : Deadline} (run : Run (middle.begin request deadline).2 service)
    {call : Call (List ForecastDay)}
    (present : service.cache.calls[(middle.begin request deadline).1]? = some call) : call.key = request.cacheKey := by
  obtain ⟨_, number, _, _⟩ := Cache.begin_opens middle.cache request.cacheKey middle.policy deadline
  have present : service.cache.calls[(middle.cache.begin request.cacheKey middle.policy deadline).1]? = some call :=
    present
  rw [number] at present
  exact (((begin_run middle request deadline).append run.cache_run).call_of_begin present).1

/-- A provider of the chain has been called for the same forecast and has told these days, which are all. -/
structure Served (chain : List Provider) (service : Service) (request : Request) (days : List ForecastDay) : Prop where
  told : ∃ provider ∈ chain, ∃ call ∈ service.hedger.calls, ∃ asked : Request,
    call.CalledBy provider ∧ call.Answered asked days ∧ provider.MayTell asked days ∧ asked.Alike request
  size : days.length = request.days
  ascending : (days.map ForecastDay.date).Pairwise (· < ·)

/-- Whatever a lookup returns was told for its own question, and nothing of it is missing. -/
theorem served_of_run {request : Request} {deadline : Deadline} {call : Call (List ForecastDay)}
    {days : List ForecastDay} {instant : Nat} (fresh : source.Fresh)
    (thorough : ∀ provider ∈ source.hedger.providers, provider.Thorough) (before : Run source middle)
    (later : Run (middle.begin request deadline).2 service)
    (present : service.cache.calls[(middle.begin request deadline).1]? = some call)
    (returned : call.phase = .returned (.ok days) instant) :
    Served source.hedger.providers service request days := by
  have began : middle.step? (.begin request deadline) = some _ := rfl
  have run : Run source service := (before.snoc began).append later
  have sound : service.Sound := Reachable.sound ⟨source, fresh, run⟩
  have truthful := Truthful.run fresh run
  obtain ⟨place, flight, there, key, landed⟩ := sound.cache.landed_of_returned present returned
  obtain ⟨asked, own, logged, member, answered⟩ := truthful.landed place flight days there landed
  obtain ⟨provider, inside, calledBy⟩ := truthful.hedger.calls logged member
  have tells : provider.MayTell asked days := answered.request ▸ calledBy.tells days answered.ending
  have alike : asked.Alike request := by
    rw [← Request.cacheKey_eq_iff, ← sound.linked.keys place flight asked there own, key]
    exact key_of_begin later present
  constructor
  · exact ⟨provider, inside, logged, member, asked, calledBy, answered, tells, alike⟩
  · exact ((thorough provider inside).size asked days tells).trans alike.days
  · exact (thorough provider inside).ascending asked days tells

/-- A provider that makes up as many days as it is asked for. -/
def inventiveProvider (name : String) : Provider where
  name
  steps := [{ delay := 5, ending := fun request => some (.value (sampleDays request.days 12.0)) }]

theorem thorough_inventiveProvider (name : String) : (inventiveProvider name).Thorough := by
  have told {request : Request} {days : List ForecastDay} (tells : (inventiveProvider name).MayTell request days) :
      days.map ForecastDay.date = sampleStart.consecutive request.days := by
    obtain ⟨step, own, ending⟩ := tells
    cases List.mem_singleton.mp own
    cases ending
    simp [sampleDays, Function.comp_def]
  have all : ∀ count < 15, (sampleStart.consecutive count).length = count ∧
      (sampleStart.consecutive count).Pairwise (· < ·) := by decide
  constructor
  · intro request days tells
    rw [← List.length_map ForecastDay.date, told tells]
    exact (all request.days request.days_lt).1
  · intro request days tells
    rw [told tells]
    exact (all request.days request.days_lt).2

theorem thorough_slowProvider (name : String) : (slowProvider name).Thorough := by
  have silent {request : Request} {days : List ForecastDay} : ¬(slowProvider name).MayTell request days := by
    rintro ⟨step, own, ending⟩
    cases List.mem_singleton.mp own
    contradiction
  exact ⟨fun _ _ tells => absurd tells silent, fun _ _ tells => absurd tells silent⟩

/-- A service whose first provider does not answer. -/
def hedgedService : Service :=
  { patientService with hedger := { threshold := 10, providers := [slowProvider "first", inventiveProvider "second"] } }

theorem fresh_hedgedService : hedgedService.Fresh where
  cache := ⟨1, rfl⟩
  calls := rfl
  fetches := rfl
  requests := rfl
  fetchOf := rfl
  chain := ⟨⟨["first", "second"], by decide⟩, rfl⟩

def threeDaysInOSLO : Request :=
  { threeDaysInOslo with city := "OSLO", city_ne_empty := by decide }

/-- A second caller joins the lookup that is under way. -/
def joining : List Event :=
  [.pass 15, .leg 0 1, .fetch 0, .flight 0, .call 1]

theorem served_joining :
    ∃ middle service call, lookingUp.foldlM step? hedgedService = some middle ∧
      joining.foldlM step? (middle.begin threeDaysInOSLO ⟨5000, ⟨[0]⟩⟩).2 = some service ∧
      service.cache.calls[1]? = some call ∧ call.phase = .returned (.ok (sampleDays 3 12.0)) 15 ∧
      Served hedgedService.hedger.providers service threeDaysInOSLO (sampleDays 3 12.0) := by
  obtain ⟨middle, service, call, before, later, number, present, returned⟩ : ∃ middle service call,
      lookingUp.foldlM step? hedgedService = some middle ∧
      joining.foldlM step? (middle.begin threeDaysInOSLO ⟨5000, ⟨[0]⟩⟩).2 = some service ∧
      (middle.begin threeDaysInOSLO ⟨5000, ⟨[0]⟩⟩).1 = 1 ∧ service.cache.calls[1]? = some call ∧
      call.phase = .returned (.ok (sampleDays 3 12.0)) 15 :=
    ⟨_, _, _, rfl, rfl, rfl, rfl, rfl⟩
  have thorough : ∀ provider ∈ hedgedService.hedger.providers, provider.Thorough := by
    intro provider member
    rcases List.mem_pair.mp member with rfl | rfl
    · exact thorough_slowProvider "first"
    · exact thorough_inventiveProvider "second"
  refine ⟨middle, service, call, before, later, present, returned, ?_⟩
  exact served_of_run fresh_hedgedService thorough (.of_events before) (.of_events later) (number ▸ present) returned

end Service

end HedgedForecast
