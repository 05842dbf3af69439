import HedgedForecast.Proofs.Cache.SingleFlight
import HedgedForecast.Proofs.Hedge.Keeping
import HedgedForecast.Proofs.Simulation
import HedgedForecast.Provider.Chain
import HedgedForecast.Service.Assembly

/-! # Runs of a service

A service is driven by events: lookups begin, flights, fetches, legs and waiting callers take their turns in
any order, callers go away or cancel their scopes, what is spent is purged, time passes. To the cache of a
service this is a run in which no key is removed. What a service does by itself is one such run.
-/

namespace HedgedForecast

namespace Cache

variable {V : Type} {cache next : Cache V}

/-- Neither does a call begin, nor does a flight take its turn, nor is a key removed. -/
def Event.Quiet : Event V → Prop
  | .begin .. | .flight .. | .remove _ => False
  | _ => True

theorem Event.Quiet.exclusive {event : Event V} (quiet : event.Quiet) (cache : Cache V) : Exclusive cache event := by
  cases event with
  | remove key => exact quiet.elim
  | _ => trivial

/-- Scopes that others make and cancel are events. -/
theorem Run.of_ticks {rule : Rule V} {clock : Clock} (allows : ∀ cache event, Event.Quiet event → rule cache event)
    (ticks : Relation.ReflTransGen Fetch.Ticks cache.clock clock) : Run rule cache { cache with clock } := by
  induction ticks with
  | refl => exact .nil
  | @tail middle _ _ tick ih =>
    let here : Cache V := { cache with clock := middle }
    cases tick with
    | same => exact ih
    | scope parent => exact .snoc ih (allows here (.scope (some parent)) trivial) rfl
    | cancel token => exact .snoc ih (allows here (.cancel token) trivial) rfl

end Cache

/-- No name is repeated, and none is one of those seen before. -/
theorem repeatedName?_eq_none_iff {seen names : List String} :
    repeatedName? seen names = none ↔ names.Nodup ∧ ∀ name ∈ names, name ∉ seen := by
  induction names generalizing seen with
  | nil => simp [repeatedName?]
  | cons name rest ih =>
    simp only [repeatedName?, List.contains_iff_mem, List.nodup_cons, List.forall_mem_cons]
    split
    · next seen => simp [seen]
    · next new =>
      rw [ih]
      grind

theorem ProviderChain.nodup (chain : ProviderChain) : chain.names.Nodup :=
  (repeatedName?_eq_none_iff.mp chain.distinct).1

theorem ProviderChain.exists_make {names : List String} (nodup : names.Nodup) :
    ∃ chain, make names = .ok chain ∧ chain.names = names := by
  have distinct : repeatedName? [] names = none :=
    repeatedName?_eq_none_iff.mpr ⟨nodup, fun _ _ => List.not_mem_nil⟩
  unfold make
  split
  · exact ⟨_, rfl, rfl⟩
  · next name repeated =>
    rw [distinct] at repeated
    contradiction

namespace Service

/-- What may happen to a service. -/
inductive Event where
  | begin (request : Request) (deadline : Deadline)
  /-- A flight begins or ends, or its fetch begins. -/
  | flight (number : Nat)
  /-- A leg of a fetch calls its provider, or ends with its call. -/
  | leg (fetch place : Nat)
  /-- A fetch looks at what has happened. -/
  | fetch (number : Nat)
  /-- A caller gets its answer. -/
  | call (number : Nat)
  /-- The side channel goes on. -/
  | publish
  /-- A caller goes away. -/
  | drop (number : Nat)
  | purge
  | pass (instant : Nat)
  | scope (parent : Option Token)
  | cancel (token : Token)

/-- The turn of one leg of a fetch. -/
def turnLeg? (service : Service) (number place : Nat) : Option Service := do
  let run ← service.hedger.fetches[number]?
  let leg ← run.fetch.legs[place]?
  let hedger ← (service.hedger.beginLeg? service.clock number run leg).or
    (service.hedger.endLeg? service.clock number run leg)
  return { service with hedger }

/-- The turn of one fetch. -/
def turnFetch? (service : Service) (number : Nat) : Option Service := do
  let run ← service.hedger.fetches[number]?
  let (hedger, clock) ← service.hedger.turnFetch? service.clock number run
  return { service with hedger }.withClock clock

/-- The service after an event; a turn that cannot be made is no event. -/
def step? (service : Service) : Event → Option Service
  | .begin request deadline => some (service.begin request deadline).2
  | .flight number => service.turnFlight? number
  | .leg fetch place => service.turnLeg? fetch place
  | .fetch number => service.turnFetch? number
  | .call number => (service.cache.turnCall? number).map fun cache => { service with cache }
  | .publish => service.turnPublisher?
  | .drop number => some { service with cache := service.cache.dropCall number }
  | .purge => some { service with cache := service.cache.purge.2 }
  | .pass instant => some (service.withClock (service.clock.moveTo instant))
  | .scope none => some (service.withClock service.clock.freshToken.2)
  | .scope (some parent) => some (service.withClock (service.clock.childToken parent).2)
  | .cancel token => some (service.withClock (service.clock.cancel token))

/-- A service that has done nothing yet. -/
structure Fresh (service : Service) : Prop where
  cache : ∃ maxEntries, service.cache = Cache.empty maxEntries
  calls : service.hedger.calls = #[]
  fetches : service.hedger.fetches = #[]
  requests : service.requests = #[]
  fetchOf : service.fetchOf = []
  chain : ∃ chain : ProviderChain, service.hedger.providers.map Provider.name = chain.names

/-- A sequence of events leads from one service to another. -/
inductive Run (source : Service) : Service → Prop
  | nil : Run source source
  | snoc {middle target : Service} {event : Event} (run : Run source middle)
      (step : middle.step? event = some target) : Run source target

/-- A run from a new service leads to the service. -/
def Reachable (service : Service) : Prop :=
  ∃ source, Fresh source ∧ Run source service

variable {service next : Service}

namespace Run

variable {source middle target : Service}

theorem single {event : Event} (step : source.step? event = some target) : Run source target :=
  .snoc .nil step

theorem append (left : Run source middle) (right : Run middle target) : Run source target := by
  induction right with
  | nil => exact left
  | snoc _ step ih => exact .snoc ih step

theorem of_events {events : List Event} (steps : events.foldlM step? source = some target) : Run source target := by
  induction events generalizing source with
  | nil => cases steps; exact .nil
  | cons event events ih =>
    obtain ⟨middle, step, rest⟩ := Option.bind_eq_some_iff.mp steps
    exact (single step).append (ih rest)

end Run

theorem Reachable.extend (reachable : service.Reachable) (run : Run service next) : next.Reachable := by
  obtain ⟨source, fresh, before⟩ := reachable
  exact ⟨source, fresh, before.append run⟩

/-- A flight has a fetch that is stopped, or none. -/
theorem dropFetch_cases (service : Service) (flight : Nat) :
    (∃ fetch, service.fetchOf.lookup flight = some fetch ∧ service.dropFetch flight =
        { service with hedger := (service.hedger.drop service.clock fetch).1 }.withClock
          (service.hedger.drop service.clock fetch).2) ∨
      service.fetchOf.lookup flight = none ∧ service.dropFetch flight = service := by
  unfold dropFetch
  cases known : service.fetchOf.lookup flight with
  | some fetch => exact .inl ⟨fetch, rfl, rfl⟩
  | none => exact .inr ⟨rfl, rfl⟩

/-- A part of what an event does to a service. -/
inductive Move (service : Service) : Service → Prop
  /-- The cache does something else than to launch, begin or end a flight. -/
  | cache {event : Cache.Event (List ForecastDay)} {cache : Cache (List ForecastDay)} (quiet : event.Quiet)
      (step : service.cache.step? event = some cache) : Move service { service with cache }
  /-- A lookup begins; if it launches a flight, that is for its request. -/
  | lookup {cache : Cache (List ForecastDay)} {requests : Array Request} (request : Request) (deadline : Deadline)
      (publisher : Publisher HedgedForecast.Event)
      (began : (service.cache.begin request.cacheKey service.policy deadline).2 = cache)
      (asked : requests = if service.requests.size < cache.flights.size then service.requests.push request
        else service.requests) : Move service { service with cache, requests, publisher }
  /-- A flight begins or ends. It has no fetch afterwards that goes on. -/
  | flight {number : Nat} {cache : Cache (List ForecastDay)}
      (turn : service.cache.turnFlight? number (service.workOf number) = some cache) :
      Move service ({ service with cache }.dropFetch number)
  /-- A flight that works and has no fetch begins one. -/
  | fetch {number : Nat} {flight : Flight (List ForecastDay)} {request : Request} {deadline : Deadline}
      (present : service.cache.flights[number]? = some flight) (asked : service.requests[number]? = some request)
      (working : flight.phase = .working deadline) (none : service.fetchOf.lookup number = none) :
      Move service ({ service with
        hedger := (service.hedger.begin service.clock request deadline).2.1
        fetchOf := (number, service.hedger.fetches.size) :: service.fetchOf }.withClock
          (service.hedger.begin service.clock request deadline).2.2)
  | hedger {hedger : Hedger} {clock : Clock} (works : service.hedger.Works service.clock hedger clock) :
      Move service ({ service with hedger }.withClock clock)
  | publish (publisher : Publisher HedgedForecast.Event) : Move service { service with publisher }

theorem pollCall_moves (service : Service) (call : Nat) :
    Relation.ReflTransGen Move service (service.pollCall call) := by
  unfold pollCall
  cases turn : service.cache.turnCall? call with
  | none => exact .refl
  | some cache =>
    have quiet : Cache.Event.Quiet (.call call : Cache.Event (List ForecastDay)) := trivial
    exact .single (.cache quiet turn)

/-- What the event is to the cache, if it concerns nothing else. -/
def Event.own? : Event → Option (Cache.Event (List ForecastDay))
  | .call number => some (.call number)
  | .drop number => some (.drop number)
  | .purge => some .purge
  | .pass instant => some (.pass instant)
  | .scope parent => some (.scope parent)
  | .cancel token => some (.cancel token)
  | _ => none

theorem Event.quiet_of_own? {event : Event} {own : Cache.Event (List ForecastDay)} (known : event.own? = some own) :
    own.Quiet := by
  cases event <;> cases known <;> trivial

/-- What each event does. -/
inductive Effect (service : Service) : Event → Service → Prop
  | lookup (request : Request) (deadline : Deadline) :
      Effect service (.begin request deadline) (service.begin request deadline).2
  /-- A flight begins or ends. -/
  | flight {number : Nat} {cache : Cache (List ForecastDay)}
      (turn : service.cache.turnFlight? number (service.workOf number) = some cache) :
      Effect service (.flight number) (({ service with cache } : Service).dropFetch number)
  /-- A flight that works and can do neither gets a fetch. -/
  | fetch {number : Nat} {flight : Flight (List ForecastDay)} {request : Request} {deadline : Deadline}
      (still : service.cache.turnFlight? number (service.workOf number) = none)
      (present : service.cache.flights[number]? = some flight) (asked : service.requests[number]? = some request)
      (working : flight.phase = .working deadline) (none : service.fetchOf.lookup number = none) :
      Effect service (.flight number) ({ service with
        hedger := (service.hedger.begin service.clock request deadline).2.1
        fetchOf := (number, service.hedger.fetches.size) :: service.fetchOf }.withClock
          (service.hedger.begin service.clock request deadline).2.2)
  | hedger {event : Event} {hedger : Hedger} {clock : Clock} (works : service.hedger.Works service.clock hedger clock) :
      Effect service event ({ service with hedger }.withClock clock)
  | own {event : Event} {own : Cache.Event (List ForecastDay)} {cache : Cache (List ForecastDay)}
      (known : event.own? = some own) (step : service.cache.step? own = some cache) :
      Effect service event { service with cache }
  | publish (publisher : Publisher HedgedForecast.Event) : Effect service .publish { service with publisher }

theorem effect_of_turnFlight? {number : Nat} (turn : service.turnFlight? number = some next) :
    Effect service (.flight number) next := by
  unfold turnFlight? at turn
  cases turned : service.cache.turnFlight? number (service.workOf number) with
  | some cache =>
    rw [turned] at turn
    cases turn
    exact .flight turned
  | none =>
    simp only [turned, beginFetch?, Option.bind_eq_bind, Option.bind_eq_some_iff] at turn
    obtain ⟨flight, present, request, asked, turn⟩ := turn
    split at turn
    · next deadline working none =>
      cases turn
      exact .fetch turned present asked working none
    · contradiction

theorem effect_of_step {event : Event} (step : service.step? event = some next) : Effect service event next := by
  have own {event : Event} (own : Cache.Event (List ForecastDay)) {cache : Cache (List ForecastDay)}
      (known : event.own? = some own) (step : service.cache.step? own = some cache) :
      Effect service event { service with cache } := .own known step
  cases event with
  | begin request deadline => cases step; exact .lookup request deadline
  | flight number => exact effect_of_turnFlight? step
  | leg number place =>
    simp only [step?, turnLeg?, Option.bind_eq_bind, Option.bind_eq_some_iff] at step
    obtain ⟨run, present, leg, there, hedger, turned, same⟩ := step
    have member := List.mem_of_getElem? there
    cases same
    rcases Option.or_eq_some_iff.mp turned with begun | ⟨_, ended⟩
    · exact .hedger (.beginLeg present member begun)
    · exact .hedger (.endLeg present member ended)
  | fetch number =>
    simp only [step?, turnFetch?, Option.bind_eq_bind, Option.bind_eq_some_iff] at step
    obtain ⟨run, present, ⟨hedger, clock⟩, turned, same⟩ := step
    cases same
    exact .hedger (.turnFetch present turned)
  | call number =>
    obtain ⟨cache, turned, rfl⟩ := Option.map_eq_some_iff.mp step
    exact own (.call number) rfl turned
  | publish =>
    obtain ⟨publisher, _, rfl⟩ := Option.map_eq_some_iff.mp step
    exact .publish publisher
  | drop number => cases step; exact own (.drop number) rfl rfl
  | purge => cases step; exact own .purge rfl rfl
  | pass instant => cases step; exact own (.pass instant) rfl rfl
  | scope parent =>
    cases parent with
    | none => cases step; exact own (.scope none) rfl rfl
    | some parent => cases step; exact own (.scope (some parent)) rfl rfl
  | cancel token => cases step; exact own (.cancel token) rfl rfl

/-- An event is one move, or a lookup that begins and may be answered at once. -/
theorem step_moves {event : Event} (step : service.step? event = some next) :
    Relation.ReflTransGen Move service next := by
  cases effect_of_step step with
  | lookup request deadline =>
    have began : Move service _ :=
      .lookup request deadline (service.publisher.notify ⟨request, service.moment⟩) rfl rfl
    exact .head began (pollCall_moves ..)
  | flight turn => exact .single (.flight turn)
  | fetch _ present asked working none => exact .single (.fetch present asked working none)
  | hedger works => exact .single (.hedger works)
  | own known stepped => exact .single (.cache (Event.quiet_of_own? known) stepped)
  | publish publisher => exact .single (.publish publisher)

/-- What is kept by each move holds at the end of a run if it held at its start. -/
theorem Run.invariant {property : Service → Prop} (run : Run service next) (initial : property service)
    (kept : ∀ service next, property service → Move service next → property next) : property next := by
  induction run with
  | nil => exact initial
  | snoc _ step ih =>
    have moves := step_moves step
    clear step
    induction moves with
    | refl => exact ih
    | tail _ move kept' => exact kept _ _ kept' move

/-- What is kept by each move holds of every service that can be reached. -/
theorem Reachable.invariant {property : Service → Prop} (reachable : service.Reachable)
    (kept : ∀ service next, property service → Move service next → property next)
    (initial : ∀ service, Fresh service → property service) : property service := by
  obtain ⟨source, fresh, run⟩ := reachable
  exact run.invariant (initial source fresh) kept

/-- What happens to a service is a run of its cache by every rule under which flights take their turns, calls begin
under the policy of the service, and quiet events happen. -/
theorem Move.cache_runBy {rule : Cache.Rule (List ForecastDay)} (move : Move service next)
    (quiets : ∀ cache event, Cache.Event.Quiet event → rule cache event)
    (begins : ∀ cache key deadline, rule cache (.begin key service.policy deadline))
    (turns : ∀ cache number work, rule cache (.flight number work)) : Cache.Run rule service.cache next.cache := by
  cases move with
  | cache quiet step => exact .single (quiets _ _ quiet) step
  | lookup request deadline publisher began =>
    have step : service.cache.step? (.begin request.cacheKey service.policy deadline) = some _ := congrArg some began
    exact .single (begins _ _ _) step
  | @flight number cache turn =>
    have turned : Cache.Run rule service.cache cache := .single (turns _ number (service.workOf number)) turn
    rcases dropFetch_cases { service with cache } number with ⟨fetch, _, same⟩ | ⟨_, same⟩
    · rw [same]
      exact turned.append (.of_ticks quiets (.single (Hedger.drop_ticks ..)))
    · rw [same]
      exact turned
  | fetch => exact .of_ticks quiets (Fetch.begin_ticks ..)
  | hedger works => exact .of_ticks quiets (.single works.ticks)
  | publish => exact .nil

/-- Whatever happens to a service is a run of its cache, and no key is removed. -/
theorem Move.cache_run (move : Move service next) : Cache.Run Cache.Exclusive service.cache next.cache :=
  move.cache_runBy (fun cache _ quiet => quiet.exclusive cache) (fun _ _ _ => trivial) fun _ _ _ => trivial

theorem Run.cache_run (run : Run service next) : Cache.Run Cache.Exclusive service.cache next.cache := by
  have kept (middle later : Service) (before : Cache.Run Cache.Exclusive service.cache middle.cache)
      (move : Move middle later) : Cache.Run Cache.Exclusive service.cache later.cache := before.append move.cache_run
  exact run.invariant .nil kept

end Service

end HedgedForecast
