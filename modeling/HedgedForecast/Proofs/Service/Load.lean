import HedgedForecast.Proofs.Cache.Attendance
import HedgedForecast.Proofs.Cache.SlotUse
import HedgedForecast.Proofs.Service.Runs

/-! # The load on providers

A flight of a service has one fetch at most, which works within the scope of the flight and is stopped with it.
So every provider call that runs belongs to a flight in progress. A key has one of those, its fetch has two legs
at most, and it calls no provider twice.
-/

namespace HedgedForecast

namespace Cache

variable {V : Type} {cache next : Cache V}

/-- No scope lies within those of two flights. -/
theorem Rooted.apart (rooted : Rooted cache) {m n : Nat} {flight other : Flight V} {token : Token}
    (present : cache.flights[m]? = some flight) (present' : cache.flights[n]? = some other)
    (inside : token.isWithin flight.token = true) (inside' : token.isWithin other.token = true) : m = n := by
  obtain ⟨scope, own, _⟩ := rooted.root m flight present
  obtain ⟨scope', own', _⟩ := rooted.root n other present'
  apply rooted.distinct m n flight other present present'
  rw [own] at inside
  rw [own'] at inside'
  have nested : [scope] <:+ [scope'] :=
    List.suffix_of_suffix_length_le (Token.isWithin_iff.mp inside) (Token.isWithin_iff.mp inside') (Nat.le_refl _)
  rw [own, own', nested.eq_of_length rfl]

/-- The flights are the same, but for their books, after a quiet event. -/
theorem Event.Quiet.flights {event : Event V} (quiet : event.Quiet) (step : cache.step? event = some next) :
    next.flights.size = cache.flights.size ∧ ∀ (number : Nat) (flight : Flight V),
      cache.flights[number]? = some flight →
        ∃ later, next.flights[number]? = some later ∧ later.Rebooked flight := by
  have kept (number : Nat) (flight : Flight V) (present : cache.flights[number]? = some flight) :
      ∃ later, next.flights[number]? = some later ∧ later.Rebooked flight := by
    obtain ⟨later, there, same | ⟨work, rfl, _⟩⟩ := step_flights step present
    · exact ⟨later, there, same⟩
    · exact quiet.elim
  refine ⟨Nat.le_antisymm ?_ ?_, kept⟩
  · apply size_le_of_present
    intro number later present
    cases there : cache.flights[number]? with
    | some flight => exact ⟨flight, rfl⟩
    | none =>
      obtain ⟨key, policy, deadline, rfl, _⟩ := step_launched step there present
      exact quiet.elim
  · apply size_le_of_present
    intro number flight present
    obtain ⟨later, there, _⟩ := kept number flight present
    exact ⟨later, there⟩

end Cache

namespace Service

variable {service next : Service}

/-- The fetch is that of the flight. It does not go on without the flight. -/
structure Serves (service : Service) (number : Nat) (flight : Flight (List ForecastDay)) (run : FetchRun) : Prop where
  present : service.cache.flights[number]? = some flight
  request : service.requests[number]? = some run.request
  token : run.fetch.deadline.token = flight.token
  ended : flight.isRunning = false → run.fetch.result ≠ none

/-- Flights, their requests and their fetches fit together. -/
structure Linked (service : Service) : Prop where
  requests : service.requests.size = service.cache.flights.size
  keys : ∀ (number : Nat) (flight : Flight (List ForecastDay)) (request : Request),
    service.cache.flights[number]? = some flight → service.requests[number]? = some request →
    flight.key = request.cacheKey
  fetches : ∀ (fetch : Nat) (run : FetchRun), service.hedger.fetches[fetch]? = some run →
    ∃ number flight, service.fetchOf.lookup number = some fetch ∧ service.Serves number flight run

namespace Linked

/-- Fetches and flights go on. A flight that ends leaves no fetch that goes on. -/
theorem goOn (linked : service.Linked) (continues : service.hedger.Continues next.hedger)
    (requests : next.requests = service.requests) (fetchOf : next.fetchOf = service.fetchOf)
    (size : next.cache.flights.size = service.cache.flights.size)
    (kept : ∀ (number : Nat) (flight : Flight (List ForecastDay)), service.cache.flights[number]? = some flight →
      ∃ later, next.cache.flights[number]? = some later ∧ later.key = flight.key ∧ later.token = flight.token ∧
        (later.isRunning = false → flight.isRunning = false ∨ ∀ (fetch : Nat) (run : FetchRun),
          service.fetchOf.lookup number = some fetch → next.hedger.fetches[fetch]? = some run →
          run.fetch.result ≠ none)) : next.Linked := by
  constructor
  · rw [requests, size]
    exact linked.requests
  · intro number later request present asked
    obtain ⟨inside, _⟩ := Array.getElem?_eq_some_iff.mp present
    have before : service.cache.flights[number]? = some _ := Array.getElem?_eq_getElem (size ▸ inside)
    obtain ⟨later', there, key, _, _⟩ := kept number _ before
    obtain rfl := Option.some.inj (present.symm.trans there)
    rw [key]
    exact linked.keys number _ request before (requests ▸ asked)
  · intro fetch later present
    obtain ⟨run, before, goes⟩ := continues.earlier present
    obtain ⟨number, flight, own, serves⟩ := linked.fetches fetch run before
    obtain ⟨flight', there, _, token, ended⟩ := kept number flight serves.present
    refine ⟨number, flight', fetchOf ▸ own, there, ?_, ?_, fun finished => ?_⟩
    · rw [requests, goes.request]
      exact serves.request
    · rw [goes.deadline, token]
      exact serves.token
    · rcases ended finished with already | stopped
      · exact goes.decided (serves.ended already)
      · exact stopped fetch later own present

/-- A quiet event of the cache is nothing to fetches. -/
theorem quiet (linked : service.Linked) {event : Cache.Event (List ForecastDay)} {cache : Cache (List ForecastDay)}
    (quiet : event.Quiet) (step : service.cache.step? event = some cache) :
    ({ service with cache } : Service).Linked := by
  obtain ⟨size, kept⟩ := quiet.flights step
  refine linked.goOn (.refl _) rfl rfl size fun number flight present => ?_
  obtain ⟨later, there, rebooked⟩ := kept number flight present
  have same := rebooked.same
  refine ⟨later, there, by rw [same], by rw [same], fun finished => .inl ?_⟩
  rw [same] at finished
  exact finished

/-- A call launches a flight and leaves the request of it, or does neither. -/
theorem requests_begin (linked : service.Linked) (placed : Cache.Placed service.cache) (request : Request)
    (deadline : Deadline) :
    let cache := (service.cache.begin request.cacheKey service.policy deadline).2
    let requests := if service.requests.size < cache.flights.size then service.requests.push request
      else service.requests
    cache.flights.size = service.requests.size ∧ requests = service.requests ∨
      cache.flights.size = service.requests.size + 1 ∧ requests = service.requests.push request := by
  intro cache requests
  have most : cache.flights.size ≤ service.cache.flights.size + 1 := placed.size_begin ..
  have least : service.cache.flights.size ≤ cache.flights.size := by
    apply size_le_of_present
    intro number flight present
    obtain ⟨later, there, _⟩ :=
      (Cache.Alters.begin service.cache request.cacheKey service.policy deadline).kept number flight present
    exact ⟨later, there⟩
  have same := linked.requests
  by_cases new : service.requests.size < cache.flights.size
  · exact .inr ⟨by omega, if_pos new⟩
  · exact .inl ⟨by omega, if_neg new⟩

/-- A lookup that launches a flight leaves its request with it. -/
theorem lookup (linked : service.Linked) (placed : Cache.Placed service.cache) (request : Request)
    (deadline : Deadline) (publisher : Publisher HedgedForecast.Event) :
    let cache := (service.cache.begin request.cacheKey service.policy deadline).2
    let requests := if service.requests.size < cache.flights.size then service.requests.push request
      else service.requests
    ({ service with cache, requests, publisher } : Service).Linked := by
  intro cache requests
  have altered : Cache.Alters (some (request.cacheKey, service.policy)) service.cache cache :=
    .begin service.cache request.cacheKey service.policy deadline
  have way := linked.requests_begin placed request deadline
  have known {number : Nat} {asked : Request} (present : service.requests[number]? = some asked) :
      requests[number]? = some asked := by
    rcases way with ⟨_, still⟩ | ⟨_, grown⟩
    · exact (congrArg (·[number]?) still).trans present
    · exact (congrArg (·[number]?) grown).trans (getElem?_push_of_some _ present)
  constructor
  · rcases way with ⟨size, still⟩ | ⟨size, grown⟩
    · exact (congrArg Array.size still).trans size.symm
    · exact (congrArg Array.size grown).trans ((Array.size_push ..).trans size.symm)
  · intro number later asked present there
    cases before : service.cache.flights[number]? with
    | some flight =>
      obtain ⟨later', present', rebooked⟩ := altered.kept number flight before
      obtain rfl := Option.some.inj (present.symm.trans present')
      have inside : number < service.requests.size :=
        linked.requests ▸ (Array.getElem?_eq_some_iff.mp before).1
      have old := known (Array.getElem?_eq_getElem inside)
      obtain rfl := Option.some.inj (there.symm.trans old)
      rw [rebooked.same]
      exact linked.keys number flight _ before (Array.getElem?_eq_getElem inside)
    | none =>
      obtain ⟨key, policy, own, launched⟩ := altered.launched number later before present
      cases own
      have inside : number < cache.flights.size := (Array.getElem?_eq_some_iff.mp present).1
      have outside : service.requests.size ≤ number := linked.requests ▸ Array.getElem?_eq_none_iff.mp before
      rcases way with ⟨size, _⟩ | ⟨size, grown⟩
      · exact absurd (Nat.lt_of_lt_of_eq inside size) (Nat.not_lt_of_le outside)
      · have least : number ≤ service.requests.size := Nat.le_of_lt_succ (Nat.lt_of_lt_of_eq inside size)
        obtain rfl : number = service.requests.size := Nat.le_antisymm least outside
        have new : request = asked := Option.some.inj
          (Array.getElem?_push_size.symm.trans ((congrArg (·[service.requests.size]?) grown).symm.trans there))
        rw [← new]
        exact launched.key
  · intro fetch run present
    obtain ⟨number, flight, own, serves⟩ := linked.fetches fetch run present
    obtain ⟨later, there, rebooked⟩ := altered.kept number flight serves.present
    refine ⟨number, later, own, there, known serves.request, ?_, fun finished => serves.ended ?_⟩
    · rw [rebooked.same]
      exact serves.token
    · rw [rebooked.same] at finished
      exact finished

/-- The fetch of a flight that took its turn is stopped. -/
theorem flight (linked : service.Linked) {number : Nat} {cache : Cache (List ForecastDay)}
    (turn : service.cache.turnFlight? number (service.workOf number) = some cache) :
    ({ service with cache }.dropFetch number).Linked := by
  obtain ⟨flight, later, present, turned, _, here, others⟩ := Cache.turnFlight?_flights turn
  have size : cache.flights.size = service.cache.flights.size := Cache.turnFlight?_size turn
  have kept {next : Service} (flights : next.cache.flights = cache.flights)
      (stopped : ∀ (fetch : Nat) (run : FetchRun), service.fetchOf.lookup number = some fetch →
        next.hedger.fetches[fetch]? = some run → run.fetch.result ≠ none)
      (n : Nat) (before : Flight (List ForecastDay)) (there : service.cache.flights[n]? = some before) :
      ∃ later, next.cache.flights[n]? = some later ∧ later.key = before.key ∧ later.token = before.token ∧
        (later.isRunning = false → before.isRunning = false ∨ ∀ (fetch : Nat) (run : FetchRun),
          service.fetchOf.lookup n = some fetch → next.hedger.fetches[fetch]? = some run →
          run.fetch.result ≠ none) := by
    rw [flights]
    by_cases same : number = n
    · subst same
      obtain rfl := Option.some.inj (present.symm.trans there)
      have frame : later.key = flight.key ∧ later.token = flight.token := by
        cases turned <;> exact ⟨rfl, rfl⟩
      exact ⟨later, here, frame.1, frame.2, fun _ => .inr stopped⟩
    · exact ⟨before, (others n same).trans there, rfl, rfl, .inl⟩
  rcases dropFetch_cases { service with cache } number with ⟨fetch, own, same⟩ | ⟨none, same⟩
  · rw [same]
    refine linked.goOn (.drop ..) rfl rfl size (kept rfl fun fetch' run own' there => ?_)
    obtain rfl := Option.some.inj (own.symm.trans own')
    exact Hedger.drop_decided there
  · rw [same]
    exact linked.goOn (.refl _) rfl rfl size (kept rfl fun fetch run own _ => nomatch none.symm.trans own)

/-- A flight that had no fetch has one. -/
theorem fetch (linked : service.Linked) {number : Nat} {flight : Flight (List ForecastDay)} {request : Request}
    {deadline : Deadline} (present : service.cache.flights[number]? = some flight)
    (asked : service.requests[number]? = some request) (working : flight.phase = .working deadline)
    (own : deadline.token = flight.token) (none : service.fetchOf.lookup number = none) :
    Linked ({ service with
      hedger := (service.hedger.begin service.clock request deadline).2.1
      fetchOf := (number, service.hedger.fetches.size) :: service.fetchOf }.withClock
        (service.hedger.begin service.clock request deadline).2.2) := by
  obtain ⟨fetch, clock, same, opened⟩ := Hedger.begin_eq service.hedger service.clock request deadline
  rw [same]
  constructor
  · exact linked.requests
  · exact linked.keys
  · intro place run there
    rcases getElem?_push_cases there with ⟨_, old⟩ | ⟨rfl, rfl⟩
    · obtain ⟨other, flight', known, serves⟩ := linked.fetches place run old
      have distinct : (other == number) = false := by
        rw [beq_eq_false_iff_ne]
        rintro rfl
        rw [none] at known
        contradiction
      refine ⟨other, flight', ?_, serves.present, serves.request, serves.token, serves.ended⟩
      exact (List.lookup_cons ..).trans (by rw [distinct]; exact known)
    · refine ⟨number, flight, List.lookup_cons_self, present, asked, ?_, fun finished => ?_⟩
      · rw [opened.deadline]
        exact own
      · simp [Flight.isRunning, working] at finished

end Linked

/-- All parts of a service are in order, and fit together. -/
structure Sound (service : Service) : Prop where
  cache : Cache.Reachable Cache.Exclusive service.cache
  names : (service.hedger.providers.map Provider.name).Nodup
  ledger : service.hedger.Ledger service.clock
  linked : service.Linked

namespace Sound

/-- A flight that begins its fetch shares no scope with the fetches of others. -/
theorem apart (sound : service.Sound) {number : Nat} {flight : Flight (List ForecastDay)}
    (present : service.cache.flights[number]? = some flight) (none : service.fetchOf.lookup number = none)
    {fetch : Nat} {run : FetchRun} {token : Token} (there : service.hedger.fetches[fetch]? = some run)
    (inside : token.isWithin run.fetch.deadline.token = true) : token.isWithin flight.token = false := by
  by_contra within
  obtain ⟨other, flight', known, serves⟩ := sound.linked.fetches fetch run there
  rw [serves.token] at inside
  have same := sound.cache.rooted.apart serves.present present inside (by simpa using within)
  rw [same, none] at known
  contradiction

theorem move (sound : service.Sound) (move : Move service next) : next.Sound := by
  have cache : Cache.Reachable Cache.Exclusive next.cache := sound.cache.extend move.cache_run
  cases move with
  | cache quiet step =>
    exact ⟨cache, sound.names, sound.ledger.tick (Cache.Extends.step step).now, sound.linked.quiet quiet step⟩
  | lookup request deadline publisher began asked =>
    subst began asked
    have altered := Cache.Alters.begin service.cache request.cacheKey service.policy deadline
    exact ⟨cache, sound.names, sound.ledger.tick (Nat.le_of_eq altered.now.symm), sound.linked.lookup sound.cache.placed ..⟩
  | @flight number later turn =>
    have linked := sound.linked.flight turn
    obtain ⟨_, _, _, _, same, _⟩ := Cache.turnFlight?_flights turn
    have turned : service.hedger.Ledger later.clock := by
      rw [same]
      exact sound.ledger
    rcases dropFetch_cases { service with cache := later } number with ⟨fetch, _, same⟩ | ⟨_, same⟩
    · have names := sound.names
      rw [← (Hedger.Continues.drop service.hedger later.clock fetch).names] at names
      rw [same] at cache linked ⊢
      exact ⟨cache, names, turned.drop fetch, linked⟩
    · rw [same] at cache linked ⊢
      exact ⟨cache, sound.names, turned, linked⟩
  | @fetch number flight request deadline present asked working none =>
    have own := (sound.cache.regular present).own deadline working
    obtain ⟨fetch, clock, same, opened⟩ := Hedger.begin_eq service.hedger service.clock request deadline
    have names : ((service.hedger.begin service.clock request deadline).2.1.providers.map Provider.name).Nodup :=
      sound.names
    refine ⟨cache, names, sound.ledger.begin request deadline fun n run token there inside => ?_,
      sound.linked.fetch present asked working own none⟩
    rw [own]
    exact sound.apart present none there inside
  | hedger works =>
    have continues := works.continues
    refine ⟨cache, ?_, works.ledger sound.ledger, ?_⟩
    · have names := sound.names
      rw [← continues.names] at names
      exact names
    · exact sound.linked.goOn continues rfl rfl rfl fun number flight present => ⟨flight, present, rfl, rfl, .inl⟩
  | publish =>
    refine ⟨cache, sound.names, sound.ledger, ?_⟩
    exact sound.linked.goOn (.refl _) rfl rfl rfl fun number flight present => ⟨flight, present, rfl, rfl, .inl⟩

theorem step {event : Event} (sound : service.Sound) (step : service.step? event = some next) : next.Sound := by
  have moves := step_moves step
  clear step
  induction moves with
  | refl => exact sound
  | tail _ move ih => exact ih.move move

theorem fresh (fresh : service.Fresh) : service.Sound := by
  obtain ⟨maxEntries, empty⟩ := fresh.cache
  obtain ⟨chain, names⟩ := fresh.chain
  constructor
  · rw [empty]
    exact ⟨maxEntries, .nil⟩
  · rw [names]
    exact chain.nodup
  · exact .empty fresh.calls fresh.fetches service.clock
  · constructor
    · rw [fresh.requests, empty]
      rfl
    · rw [fresh.requests]
      simp
    · rw [fresh.fetches]
      simp

end Sound

theorem Reachable.sound (reachable : service.Reachable) : service.Sound :=
  reachable.invariant (fun _ _ sound => sound.move) fun _ => Sound.fresh

/-- The calls that were made in the scope of a flight, oldest first. -/
def callsOf (service : Service) (flight : Flight (List ForecastDay)) : List ProviderCall :=
  service.hedger.calls.toList.filter fun call => call.deadline.token.isWithin flight.token

/-- The numbers of the calls for a key that run. -/
def runningCalls (service : Service) (key : String) : List Nat :=
  (List.range service.hedger.calls.size).filter fun number =>
    service.hedger.calls[number]?.any fun call => call.endedAt.isNone && call.request.cacheKey == key

theorem mem_callsOf {flight : Flight (List ForecastDay)} {call : ProviderCall} :
    call ∈ service.callsOf flight ↔
      call ∈ service.hedger.calls ∧ call.deadline.token.isWithin flight.token = true := by
  rw [callsOf, List.mem_filter, Array.mem_toList_iff]

theorem mem_runningCalls {key : String} {number : Nat} :
    number ∈ service.runningCalls key ↔
      ∃ call, service.hedger.calls[number]? = some call ∧ call.endedAt = none ∧ call.request.cacheKey = key := by
  simp only [runningCalls, List.mem_filter, List.mem_range, Option.any_eq_true, Bool.and_eq_true,
    Option.isNone_iff_eq_none, beq_iff_eq]
  constructor
  · exact fun own => own.2
  · rintro ⟨call, present, own⟩
    exact ⟨(Array.getElem?_eq_some_iff.mp present).1, call, present, own⟩

theorem callsOf_providers (service : Service) (flight : Flight (List ForecastDay)) :
    (service.callsOf flight).map ProviderCall.provider = service.hedger.askedIn flight.token := by
  rw [callsOf, Hedger.askedIn, Hedger.askings, List.filter_map, List.map_map]
  rfl

/-- The call is made by a leg of the fetch of a flight that runs. -/
structure MadeBy (service : Service) (number : Nat) (call : ProviderCall) (n : Nat)
    (flight : Flight (List ForecastDay)) (fetch : Nat) (run : FetchRun) : Prop where
  present : service.cache.flights[n]? = some flight
  running : flight.isRunning = true
  fetchOf : service.fetchOf.lookup n = some fetch
  there : service.hedger.fetches[fetch]? = some run
  leg : ∃ leg ∈ run.fetch.legs, leg.call = some number
  mine : call ∈ service.callsOf flight
  key : flight.key = call.request.cacheKey

namespace Sound

/-- Every call was made for a fetch of a flight. -/
theorem exists_flight (sound : service.Sound) {call : ProviderCall} (member : call ∈ service.hedger.calls) :
    ∃ (number : Nat) (flight : Flight (List ForecastDay)) (fetch : Nat) (run : FetchRun),
      service.hedger.fetches[fetch]? = some run ∧ service.Serves number flight run ∧
      call ∈ service.callsOf flight ∧ flight.key = call.request.cacheKey := by
  have asked : call.asking ∈ service.hedger.askings := List.mem_map_of_mem (Array.mem_toList_iff.mpr member)
  obtain ⟨fetch, run, there, inside, request⟩ := sound.ledger.made call.asking asked
  obtain ⟨number, flight, _, serves⟩ := sound.linked.fetches fetch run there
  refine ⟨number, flight, fetch, run, there, serves, mem_callsOf.mpr ⟨member, serves.token ▸ inside⟩, ?_⟩
  rw [sound.linked.keys number flight run.request serves.present serves.request, ← request]
  rfl

/-- No call was made for two flights. -/
theorem flight_unique (sound : service.Sound) {call : ProviderCall} {m n : Nat}
    {flight other : Flight (List ForecastDay)} (present : service.cache.flights[m]? = some flight)
    (present' : service.cache.flights[n]? = some other) (own : call ∈ service.callsOf flight)
    (own' : call ∈ service.callsOf other) : m = n :=
  sound.cache.rooted.apart present present' (mem_callsOf.mp own).2 (mem_callsOf.mp own').2

/-- A call that runs is made by some leg. -/
theorem exists_maker (sound : service.Sound) {number : Nat} {call : ProviderCall}
    (present : service.hedger.calls[number]? = some call) (runs : call.endedAt = none) :
    ∃ n flight fetch run, service.MadeBy number call n flight fetch run := by
  have member : call ∈ service.hedger.calls := Array.mem_of_getElem? present
  obtain ⟨fetch, leg, run, there, own, called⟩ := sound.ledger.owned number call present runs
  obtain ⟨n, flight, known, serves⟩ := sound.linked.fetches fetch run there
  obtain ⟨call', present', _, deadline⟩ := sound.ledger.running fetch leg number ⟨run, there, own, called⟩
  obtain rfl := Option.some.inj (present.symm.trans present')
  have within : call.deadline.token.isWithin flight.token = true := by
    rw [deadline, ← serves.token]
    exact ((sound.ledger.within fetch run there).legs leg own).1
  have mine : call ∈ service.callsOf flight := mem_callsOf.mpr ⟨member, within⟩
  have running : flight.isRunning = true := by
    by_contra finished
    exact serves.ended (by simpa using finished) (sound.ledger.undecided_of_leg there own)
  have key : flight.key = call.request.cacheKey := by
    obtain ⟨n', flight', _, _, _, serves', mine', key⟩ := sound.exists_flight member
    obtain rfl := sound.flight_unique serves.present serves'.present mine mine'
    obtain rfl := Option.some.inj (serves.present.symm.trans serves'.present)
    exact key
  exact ⟨n, flight, fetch, run, serves.present, running, known, there, ⟨leg, own, called⟩, mine, key⟩

/-- The calls that were made for a flight are those of different providers. -/
theorem nodup_callsOf (sound : service.Sound) {number : Nat} {flight : Flight (List ForecastDay)}
    (present : service.cache.flights[number]? = some flight) :
    ((service.callsOf flight).map ProviderCall.provider).Nodup := by
  cases calls : service.callsOf flight with
  | nil => exact List.nodup_nil
  | cons call rest =>
    have own : call ∈ service.callsOf flight := calls ▸ List.mem_cons_self
    obtain ⟨n, flight', fetch, run, there, serves, mine, _⟩ := sound.exists_flight (mem_callsOf.mp own).1
    obtain rfl := sound.flight_unique present serves.present own mine
    obtain rfl := Option.some.inj (present.symm.trans serves.present)
    rw [← calls, callsOf_providers, ← serves.token]
    exact sound.ledger.nodup_askedIn there sound.names

/-- Without turns left, a flight that runs works and is not cancelled. -/
theorem live_of_settled (sound : service.Sound) (settled : service.turn? = none) {number : Nat}
    {flight : Flight (List ForecastDay)} (present : service.cache.flights[number]? = some flight)
    (running : flight.isRunning = true) : service.cache.Live number flight := by
  refine ⟨present, running, ?_⟩
  have inside : number < service.cache.flights.size := (Array.getElem?_eq_some_iff.mp present).1
  have flights : service.turnFlights? = none := by
    unfold turn? at settled
    simp only [Option.orElse_eq_orElse, Option.orElse_eq_or, Option.or_eq_none_iff] at settled
    exact settled.2.1
  have still := List.findSome?_eq_none_iff.mp flights number (List.mem_range.mpr inside)
  have turned : service.cache.turnFlight? number (service.workOf number) = none := by
    unfold turnFlight? at still
    split at still
    · contradiction
    · assumption
  cases phase : flight.phase with
  | queued => simp [Cache.turnFlight?, present, phase] at turned
  | working deadline =>
    simp only [Cache.turnFlight?, present, phase, Option.map_eq_none_iff, Deadline.verdict_eq_none_iff] at turned
    rw [← (sound.cache.regular present).own deadline phase]
    exact turned.1
  | landed result => simp [Flight.isRunning, phase] at running
  | lost => simp [Flight.isRunning, phase] at running

/-- Without turns left, all calls for a key that run are those of one fetch. -/
theorem length_runningCalls (sound : service.Sound) (settled : service.turn? = none) (key : String) :
    (service.runningCalls key).length ≤ 2 := by
  cases calls : service.runningCalls key with
  | nil => exact Nat.zero_le 2
  | cons first rest =>
    rw [← calls]
    have member : first ∈ service.runningCalls key := calls ▸ List.mem_cons_self
    obtain ⟨call, present, runs, rfl⟩ := mem_runningCalls.mp member
    obtain ⟨n, flight, fetch, run, made⟩ := sound.exists_maker present runs
    have live := sound.live_of_settled settled made.present made.running
    have legs : service.runningCalls call.request.cacheKey ⊆ run.fetch.legs.filterMap Leg.call := by
      intro number other
      obtain ⟨call', present', runs', same⟩ := mem_runningCalls.mp other
      obtain ⟨n', flight', fetch', run', made'⟩ := sound.exists_maker present' runs'
      have live' := sound.live_of_settled settled made'.present made'.running
      obtain rfl := sound.cache.live_unique live live' (made.key.trans (same.symm.trans made'.key.symm))
      obtain rfl := Option.some.inj (made.fetchOf.symm.trans made'.fetchOf)
      obtain rfl := Option.some.inj (made.there.symm.trans made'.there)
      exact List.mem_filterMap.mpr made'.leg
    have nodup : (service.runningCalls call.request.cacheKey).Nodup := List.nodup_range.filter _
    calc (service.runningCalls call.request.cacheKey).length
      _ ≤ (run.fetch.legs.filterMap Leg.call).length := (nodup.subperm legs).length_le
      _ ≤ run.fetch.legs.length := List.length_filterMap_le ..
      _ ≤ 2 := sound.ledger.length_legs made.there

end Sound

/-- How much a service asks of its providers. -/
structure LoadBounded (service : Service) : Prop where
  /-- Every call was made for one flight, that of its scope, whose key is that of the call. -/
  made : ∀ call ∈ service.hedger.calls, ∃ (number : Nat) (flight : Flight (List ForecastDay)),
    service.cache.flights[number]? = some flight ∧ call ∈ service.callsOf flight ∧
    flight.key = call.request.cacheKey ∧
    ∀ (other : Nat) (flight' : Flight (List ForecastDay)), service.cache.flights[other]? = some flight' →
      call ∈ service.callsOf flight' → other = number
  /-- No provider is called twice for a flight. -/
  once : ∀ (number : Nat) (flight : Flight (List ForecastDay)), service.cache.flights[number]? = some flight →
    ((service.callsOf flight).map ProviderCall.provider).Nodup
  /-- However a flight ends, its calls have ended. -/
  ended : ∀ (number : Nat) (flight : Flight (List ForecastDay)), service.cache.flights[number]? = some flight →
    flight.isRunning = false → ∀ call ∈ service.callsOf flight, call.endedAt ≠ none
  /-- A call that runs belongs to the flight of its key that is in progress, and there is one only. -/
  inProgress : service.turn? = none → ∀ call ∈ service.hedger.calls, call.endedAt = none →
    ∃ number flight, service.cache.Live number flight ∧ call ∈ service.callsOf flight ∧
      flight.key = call.request.cacheKey ∧
      ∀ (other : Nat) (flight' : Flight (List ForecastDay)), service.cache.flights[other]? = some flight' →
        flight'.isRunning = true → flight'.key = flight.key → other = number
  atMostTwo : service.turn? = none → ∀ key, (service.runningCalls key).length ≤ 2

/-- Whatever callers and providers do, the load on providers is bounded. -/
theorem loadBounded_of_reachable (reachable : service.Reachable) : service.LoadBounded := by
  have sound := reachable.sound
  constructor
  · intro call member
    obtain ⟨number, flight, _, _, _, serves, own, key⟩ := sound.exists_flight member
    exact ⟨number, flight, serves.present, own, key,
      fun other flight' present own' => sound.flight_unique present serves.present own' own⟩
  · exact fun number flight present => sound.nodup_callsOf present
  · intro number flight present finished call own runs
    obtain ⟨place, there⟩ := Array.mem_iff_getElem?.mp (mem_callsOf.mp own).1
    obtain ⟨n, flight', fetch, run, made⟩ := sound.exists_maker there runs
    obtain rfl := sound.flight_unique present made.present own made.mine
    obtain rfl := Option.some.inj (present.symm.trans made.present)
    have running := made.running
    rw [finished] at running
    contradiction
  · intro settled call member runs
    obtain ⟨place, there⟩ := Array.mem_iff_getElem?.mp member
    obtain ⟨number, flight, fetch, run, made⟩ := sound.exists_maker there runs
    have live := sound.live_of_settled settled made.present made.running
    refine ⟨number, flight, live, made.mine, made.key, ?_⟩
    intro other flight' present running same
    exact sound.cache.live_unique (sound.live_of_settled settled present running) live same
  · exact fun settled key => sound.length_runningCalls settled key

/-- A provider that takes its time. -/
def slowProvider (name : String) : Provider where
  name
  steps := [{ delay := 100, ending := fun _ => none }]

/-- A service that asks its second provider after ten milliseconds. -/
def patientService : Service where
  cache := .empty 1
  hedger := { threshold := 10, providers := [slowProvider "first", slowProvider "second"] }
  publisher := .make 1 1000 []
  policy := Cache.lenient
  requestTimeout := 5000

def threeDaysInOslo : Request where
  city := "Oslo"
  country := ⟨'N', 'O', rfl, rfl⟩
  days := 3
  city_ne_empty := by decide
  days_bounds := by decide

/-- A lookup is under way, and neither of its providers has answered. -/
def lookingUp : List Event :=
  [.scope none, .begin threeDaysInOslo ⟨5000, ⟨[0]⟩⟩, .publish, .publish, .flight 0, .flight 0, .leg 0 0, .pass 10,
    .fetch 0, .leg 0 1]

theorem fresh_patientService : patientService.Fresh where
  cache := ⟨1, rfl⟩
  calls := rfl
  fetches := rfl
  requests := rfl
  fetchOf := rfl
  chain := ⟨⟨["first", "second"], by decide⟩, rfl⟩

theorem loadBounded_lookingUp :
    ∃ service, lookingUp.foldlM step? patientService = some service ∧ service.Reachable ∧ service.turn? = none ∧
      service.runningCalls threeDaysInOslo.cacheKey = [0, 1] ∧ service.LoadBounded := by
  obtain ⟨service, steps, settled, running⟩ : ∃ service, lookingUp.foldlM step? patientService = some service ∧
      service.turn? = none ∧ service.runningCalls threeDaysInOslo.cacheKey = [0, 1] :=
    ⟨_, rfl, rfl, rfl⟩
  have reachable : service.Reachable := ⟨patientService, fresh_patientService, .of_events steps⟩
  exact ⟨service, steps, reachable, settled, running, loadBounded_of_reachable reachable⟩

end Service

end HedgedForecast
