import HedgedForecast.Proofs.Cache.DeadCalls
import HedgedForecast.Proofs.Service.Blame

/-! # Dead callers ask nobody

A lookup that is made too late, for a key with nothing to serve and nothing to wait for, fails at once. The flight
that it has launched can still take its turns, but as it is cancelled it never gets a fetch, so that no provider
hears of it. It ends with its second turn at the latest, and the next lookup of the key that is in time launches a
flight of its own, which does ask.
-/

namespace HedgedForecast

theorem Flight.limit_pos {V : Type} (flight : Flight V) : 0 < flight.limit := by
  unfold limit Policy.hardLimit
  split
  · decide
  · next bounded => exact Nat.pos_of_ne_zero (by simpa using bounded)

namespace Cache

theorem Event.Quiet.elsewhere {V : Type} {event : Event V} (quiet : event.Quiet) (key : String) (cache : Cache V) :
    Elsewhere key cache event := by
  refine ⟨quiet.exclusive cache, ?_⟩
  rintro policy deadline rfl
  exact quiet

end Cache

namespace Service

variable {service next : Service} {key : String} {number : Nat}

/-- A lookup of another key is, to the cache, a run without calls on the key. -/
theorem begin_run_elsewhere {request : Request} (distinct : request.cacheKey ≠ key) (deadline : Deadline) :
    Cache.Run (Cache.Elsewhere key) service.cache (service.begin request deadline).2.cache := by
  have allowed : Cache.Elsewhere key service.cache (.begin request.cacheKey service.policy deadline) := by
    refine ⟨trivial, ?_⟩
    rintro policy deadline' same
    cases same
    exact distinct rfl
  have began : Cache.Run (Cache.Elsewhere key) service.cache
      (service.cache.begin request.cacheKey service.policy deadline).2 := .single allowed rfl
  let number := (service.cache.begin request.cacheKey service.policy deadline).1
  have quiet : Cache.Event.Quiet (.call number : Cache.Event (List ForecastDay)) := trivial
  simp only [begin, pollCall]
  cases turn : (service.cache.begin request.cacheKey service.policy deadline).2.turnCall? number with
  | none => exact began
  | some cache => exact began.append (.single (quiet.elsewhere key _) turn)

/-- So is every other event that is no lookup of the key. -/
theorem Effect.run_elsewhere {event : Event} (effect : Effect service event next)
    (elsewhere : ∀ request deadline, event = .begin request deadline → request.cacheKey ≠ key) :
    Cache.Run (Cache.Elsewhere key) service.cache next.cache := by
  have allows (cache : Cache (List ForecastDay)) (event : Cache.Event (List ForecastDay)) (quiet : event.Quiet) :
      Cache.Elsewhere key cache event := quiet.elsewhere key cache
  cases effect with
  | lookup request deadline => exact begin_run_elsewhere (elsewhere request deadline rfl) deadline
  | @flight number cache turn =>
    have allowed : Cache.Elsewhere key service.cache (.flight number (service.workOf number)) := ⟨trivial, nofun⟩
    have turned : Cache.Run (Cache.Elsewhere key) service.cache cache := .single allowed turn
    rcases dropFetch_cases { service with cache } number with ⟨fetch, _, same⟩ | ⟨_, same⟩
    · rw [same]
      exact turned.append (.of_ticks allows (.single (Hedger.drop_ticks ..)))
    · rw [same]
      exact turned
  | fetch => exact .of_ticks allows (Fetch.begin_ticks ..)
  | hedger works => exact .of_ticks allows (.single works.ticks)
  | own known step => exact .single (allows _ _ (Event.quiet_of_own? known)) step
  | publish => exact .nil

theorem dropFetch_fetchOf (service : Service) (number : Nat) :
    (service.dropFetch number).fetchOf = service.fetchOf ∧ (service.dropFetch number).policy = service.policy := by
  rcases dropFetch_cases service number with ⟨_, _, same⟩ | ⟨_, same⟩ <;> rw [same] <;> exact ⟨rfl, rfl⟩

/-- Only a flight that works and is not stopped gets a fetch. -/
theorem Effect.fetchOf {event : Event} (effect : Effect service event next) :
    next.fetchOf = service.fetchOf ∨ ∃ number flight deadline,
      service.cache.turnFlight? number (service.workOf number) = none ∧
      service.cache.flights[number]? = some flight ∧ flight.phase = .working deadline ∧
      next.fetchOf = (number, service.hedger.fetches.size) :: service.fetchOf := by
  cases effect with
  | flight => exact .inl (dropFetch_fetchOf ..).1
  | fetch still present _ working => exact .inr ⟨_, _, _, still, present, working, rfl⟩
  | lookup | hedger | own | publish => exact .inl rfl

theorem Effect.policy {event : Event} (effect : Effect service event next) : next.policy = service.policy := by
  cases effect with
  | flight => exact (dropFetch_fetchOf ..).2
  | lookup | fetch | hedger | own | publish => rfl

theorem Run.size_flights (run : Run service next) : service.cache.flights.size ≤ next.cache.flights.size := by
  have extended : Cache.Extends next.cache service.cache := .run run.cache_run
  apply size_le_of_present
  intro number flight present
  obtain ⟨later, there, _⟩ := extended.flights number flight present
  exact ⟨later, there⟩

/-- Fetches are those of flights that there are. -/
theorem Reachable.lt_of_fetchOf (reachable : service.Reachable) {fetch : Nat}
    (known : service.fetchOf.lookup number = some fetch) : number < service.cache.flights.size := by
  obtain ⟨source, fresh, run⟩ := reachable
  induction run generalizing fetch with
  | nil =>
    rw [fresh.fetchOf] at known
    contradiction
  | @snoc middle target event run step ih =>
    have size : middle.cache.flights.size ≤ target.cache.flights.size := (Run.single step).size_flights
    rcases (effect_of_step step).fetchOf with same | ⟨own, flight, deadline, _, present, _, same⟩
    · rw [same] at known
      exact Nat.lt_of_lt_of_le (ih known) size
    · rw [same, List.lookup_cons] at known
      split at known
      · next here =>
        obtain rfl := eq_of_beq here
        exact Nat.lt_of_lt_of_le (Array.getElem?_eq_some_iff.mp present).1 size
      · exact Nat.lt_of_lt_of_le (ih known) size

theorem Reachable.fetchOf_size (reachable : service.Reachable) :
    service.fetchOf.lookup service.cache.flights.size = none := by
  rw [Option.eq_none_iff_forall_not_mem]
  intro fetch known
  exact absurd (reachable.lt_of_fetchOf known) (Nat.lt_irrefl _)

/-- The flight is doomed before it has got a fetch. -/
structure Unheard (service : Service) (number : Nat) (flight : Flight (List ForecastDay)) : Prop where
  doomed : service.cache.Doomed number flight
  fetchOf : service.fetchOf.lookup number = none

namespace Unheard

variable {flight : Flight (List ForecastDay)}

/-- No call is made within the scope of such a flight. -/
theorem callsOf (unheard : service.Unheard number flight) (sound : service.Sound) : service.callsOf flight = [] := by
  rw [List.eq_nil_iff_forall_not_mem]
  intro call own
  obtain ⟨member, inside⟩ := mem_callsOf.mp own
  have asked : call.asking ∈ service.hedger.askings := List.mem_map_of_mem (Array.mem_toList_iff.mpr member)
  obtain ⟨fetch, run, there, within, _⟩ := sound.ledger.made call.asking asked
  have outside := sound.apart unheard.doomed.present unheard.fetchOf there within
  rw [show call.asking.deadline = call.deadline from rfl, inside] at outside
  contradiction

/-- It gets no fetch later on either: as long as it runs, it has a turn to take. -/
theorem step (unheard : service.Unheard number flight) (sound : service.Sound) {event : Event}
    (step : service.step? event = some next) : ∃ later, next.Unheard number later ∧ later.key = flight.key := by
  obtain ⟨later, doomed, key⟩ := unheard.doomed.run sound.cache (Run.single step).cache_run
  refine ⟨later, ⟨doomed, ?_⟩, key⟩
  rcases (effect_of_step step).fetchOf with same | ⟨other, flight', deadline, still, present, working, same⟩
  · rw [same]
    exact unheard.fetchOf
  · rw [same, List.lookup_cons]
    split
    · next here =>
      obtain rfl := eq_of_beq here
      obtain rfl := Option.some.inj (unheard.doomed.present.symm.trans present)
      rw [unheard.doomed.landed sound.cache still] at working
      contradiction
    · exact unheard.fetchOf

theorem run (unheard : service.Unheard number flight) (reachable : service.Reachable) (run : Run service next) :
    ∃ later, next.Unheard number later ∧ later.key = flight.key := by
  induction run with
  | nil => exact ⟨flight, unheard, rfl⟩
  | snoc run step ih =>
    obtain ⟨before, still, key⟩ := ih
    obtain ⟨later, here, key'⟩ := still.step (reachable.extend run).sound step
    exact ⟨later, here, key'.trans key⟩

/-- Without turns left the flight has ended, and is in no slot. -/
theorem ended (unheard : service.Unheard number flight) (sound : service.Sound) (settled : service.turn? = none) :
    flight.phase = .landed (.error .cancelled) ∧ ∀ slot ∈ service.cache.slots, slot.flight ≠ some number := by
  have landed : flight.phase = .landed (.error .cancelled) := by
    refine unheard.doomed.phase.resolve_left fun running => ?_
    have alive := (sound.live_of_settled settled unheard.doomed.present running).uncancelled
    rw [unheard.doomed.cancelled] at alive
    contradiction
  exact ⟨landed, unheard.doomed.uninstalled sound.cache.placed landed⟩

/-- By its turn the flight begins, or ends cancelled. -/
theorem turn (unheard : service.Unheard number flight) (sound : service.Sound) (running : flight.isRunning = true) :
    ∃ next later, service.step? (.flight number) = some next ∧ next.Unheard number later ∧
      (later.phase = .landed (.error .cancelled) ∨
        flight.phase = .queued ∧ ∃ deadline, later.phase = .working deadline) := by
  cases turned : service.cache.turnFlight? number (service.workOf number) with
  | none =>
    have landed := unheard.doomed.landed sound.cache turned
    simp [Flight.isRunning, landed] at running
  | some cache =>
    have step : service.step? (.flight number) = some (({ service with cache } : Service).dropFetch number) := by
      simp only [step?, turnFlight?, turned]
    obtain ⟨later, here, _⟩ := unheard.step sound step
    refine ⟨_, later, step, here, ?_⟩
    obtain ⟨flight', later', present, way, _, there, _⟩ := Cache.turnFlight?_flights turned
    obtain rfl := Option.some.inj (unheard.doomed.present.symm.trans present)
    obtain rfl : later' = later := by
      have present' := here.doomed.present
      rw [(dropFetch_frame ..).1] at present'
      exact Option.some.inj (there.symm.trans present')
    cases way with
    | started queued => exact .inr ⟨queued, _, rfl⟩
    | ended working verdict =>
      rw [unheard.doomed.verdict sound.cache working] at verdict
      cases verdict
      exact .inl rfl

/-- Two turns are enough for it to end. -/
theorem ends (unheard : service.Unheard number flight) (sound : service.Sound) :
    ∃ turns ≤ 2, ∃ last later, (List.replicate turns (.flight number)).foldlM step? service = some last ∧
      last.Unheard number later ∧ later.phase = .landed (.error .cancelled) := by
  rcases unheard.doomed.phase with running | landed
  · obtain ⟨first, later, step, here, landed | ⟨_, deadline, working⟩⟩ := unheard.turn sound running
    · exact ⟨1, by omega, first, later, by simp [List.replicate, step], here, landed⟩
    · have still : later.isRunning = true := by simp [Flight.isRunning, working]
      obtain ⟨last, later', step', here', landed | ⟨queued, _⟩⟩ := here.turn (sound.step step) still
      · exact ⟨2, Nat.le_refl 2, last, later', by simp [List.replicate, step, step'], here', landed⟩
      · rw [working] at queued
        contradiction
  · exact ⟨0, Nat.zero_le 2, service, flight, rfl, unheard, landed⟩

end Unheard

/-- Lookups of the key are made too late. -/
def Deserted (key : String) : Rule
  | service, .begin request deadline => request.cacheKey = key → deadline.IsOver service.clock
  | _, _ => True

theorem begin_cache_of_turn {request : Request} {deadline : Deadline} {cache : Cache (List ForecastDay)}
    (turn : (service.cache.begin request.cacheKey service.policy deadline).2.turnCall?
      (service.cache.begin request.cacheKey service.policy deadline).1 = some cache) :
    (service.begin request deadline).2.cache = cache := by
  simp only [begin, pollCall, turn, Option.getD_some]

/-- Such lookups leave a key with nothing as it is, and nothing else gives it anything. -/
theorem barren_of_step {event : Event} (barren : service.cache.Barren key service.policy) (sound : service.Sound)
    (deserted : Deserted key service event) (step : service.step? event = some next) :
    next.cache.Barren key next.policy := by
  have effect := effect_of_step step
  rw [effect.policy]
  by_cases own : ∃ request deadline, event = .begin request deadline ∧ request.cacheKey = key
  · obtain ⟨request, deadline, rfl, rfl⟩ := own
    obtain ⟨cache, turn, away⟩ := barren.turnedAway (deserted rfl)
    cases step
    rw [begin_cache_of_turn turn]
    exact away.barren
  · refine barren.run sound.cache (effect.run_elsewhere ?_)
    rintro request deadline rfl same
    exact own ⟨request, deadline, rfl, same⟩

theorem barren_of_run (barren : service.cache.Barren key service.policy) (reachable : service.Reachable)
    (run : RunBy (Deserted key) service next) : next.cache.Barren key next.policy := by
  induction run with
  | nil => exact barren
  | snoc run deserted step ih => exact barren_of_step ih (reachable.extend run.run).sound deserted step

/-- With the first of these turns the flight begins, and with the second it gets its fetch. -/
theorem exists_fetch_of_queued {flight : Flight (List ForecastDay)} {request : Request}
    (present : service.cache.flights[number]? = some flight) (queued : flight.phase = .queued)
    (uncancelled : service.clock.isCancelled flight.token = false) (asked : service.requests[number]? = some request)
    (free : service.fetchOf.lookup number = none) :
    ∃ last fetch run, [.flight number, .flight number].foldlM step? service = some last ∧
      last.fetchOf.lookup number = some fetch ∧ last.hedger.fetches[fetch]? = some run ∧ run.request = request := by
  let begun : Service := { service with cache := service.cache.startFlight number }
  let deadline : Deadline := ⟨service.clock.now + flight.limit, flight.token⟩
  have first : service.step? (.flight number) = some begun := by
    have turned : service.cache.turnFlight? number (service.workOf number) = some (service.cache.startFlight number) :=
      Cache.turnFlight?_eq_some_iff.mpr ⟨flight, present, .inl ⟨queued, rfl⟩⟩
    simp only [step?, turnFlight?, turned, dropFetch, free]
    rfl
  have works : begun.cache.flights[number]? =
      some { flight with phase := .working deadline, startedAt := some service.clock.now } :=
    getElem?_modify_self _ present
  have still : begun.cache.turnFlight? number (begun.workOf number) = none := by
    have idle : begun.workOf number = none := by simp [workOf, begun, free]
    have goesOn : deadline.verdict begun.cache.clock (none : Option (WorkEnd (List ForecastDay))) = none :=
      Deadline.verdict_eq_none_iff.mpr ⟨uncancelled, Nat.lt_add_of_pos_right flight.limit_pos, rfl⟩
    simp only [Cache.turnFlight?, works, idle, goesOn, Option.map_none]
  obtain ⟨fetch, clock, opens, _⟩ := Hedger.begin_eq begun.hedger begun.clock request deadline
  let last : Service := { begun with
    hedger := { begun.hedger with fetches := begun.hedger.fetches.push ⟨request, fetch⟩ }
    fetchOf := (number, begun.hedger.fetches.size) :: begun.fetchOf }.withClock clock
  have second : begun.step? (.flight number) = some last := by
    have asked : begun.requests[number]? = some request := asked
    have free : begun.fetchOf.lookup number = none := free
    simp only [step?, turnFlight?, still, beginFetch?, works, asked, free, opens, Option.bind_eq_bind,
      Option.bind_some]
    rfl
  refine ⟨last, begun.hedger.fetches.size, ⟨request, fetch⟩, ?_, List.lookup_cons_self, ?_, rfl⟩
  · simp only [List.foldlM_cons, List.foldlM_nil, first, second, Option.bind_eq_bind, Option.bind_some]
    rfl
  · exact Array.getElem?_push_size

/-- The lookup waits for a flight of its own. Unless that is stopped before it begins, it gets a fetch for the request
with its second turn. -/
structure AsksAnew (service : Service) (request : Request) (deadline : Deadline) : Prop where
  own : service.cache.StartsOwn request.cacheKey service.policy deadline
  waits : (service.begin request deadline).2.cache =
    (service.cache.begin request.cacheKey service.policy deadline).2
  fetch : ∀ flight, (service.begin request deadline).2.cache.flights[service.cache.flights.size]? = some flight →
    (service.begin request deadline).2.clock.isCancelled flight.token = false →
    ∃ last fetch run, [.flight service.cache.flights.size, .flight service.cache.flights.size].foldlM step?
        (service.begin request deadline).2 = some last ∧
      last.fetchOf.lookup service.cache.flights.size = some fetch ∧ last.hedger.fetches[fetch]? = some run ∧
      run.request = request

theorem asksAnew_of_barren {request : Request} {deadline : Deadline} (reachable : service.Reachable)
    (barren : service.cache.Barren request.cacheKey service.policy) (inTime : ¬deadline.IsOver service.clock) :
    service.AsksAnew request deadline := by
  have own := Cache.startsOwn_of_vacant barren.flight barren.entry deadline
  have waits : (service.begin request deadline).2.cache =
      (service.cache.begin request.cacheKey service.policy deadline).2 := by
    simp only [begin, pollCall, barren.turnCall?_of_inTime inTime, Option.getD_none]
  refine ⟨own, waits, fun flight present uncancelled => ?_⟩
  obtain ⟨launched, flights, _, _, _, queued⟩ := own.launched
  obtain rfl : flight = launched := by
    rw [waits, flights, Array.getElem?_push_size] at present
    exact (Option.some.inj present).symm
  have size := reachable.sound.linked.requests
  have asked : (service.begin request deadline).2.requests[service.cache.flights.size]? = some request := by
    have grown : (service.begin request deadline).2.requests = service.requests.push request := by
      simp only [begin, pollCall, flights, Array.size_push, size, Nat.lt_add_one, if_true]
    rw [grown, ← size]
    exact Array.getElem?_push_size
  have free : (service.begin request deadline).2.fetchOf.lookup service.cache.flights.size = none :=
    reachable.fetchOf_size
  exact exists_fetch_of_queued present queued uncancelled asked free

/-- What such a lookup comes to: `next` is the service after it, `call` its number, and the flight that it launches
has the next number. -/
structure Fruitless (service next : Service) (request : Request) (deadline : Deadline) (call : Nat) : Prop where
  /-- It fails at once. -/
  failed : next.cache.calls[call]? = some { service.cache.opening request.cacheKey service.policy deadline with
    phase := .returned (.error (deadline.failure service.clock)) service.clock.now }
  launched : ∃ flight, next.cache.flights = service.cache.flights.push flight ∧ flight.key = request.cacheKey
  hedger : next.hedger = service.hedger
  /-- The flight never gets a fetch, and no provider is called within its scope. -/
  unheard : ∀ later, Run next later → later.fetchOf.lookup service.cache.flights.size = none ∧
    ∃ flight, later.cache.flights[service.cache.flights.size]? = some flight ∧ flight.key = request.cacheKey ∧
      later.callsOf flight = []
  /-- Without turns left it has ended and is in no slot. -/
  ended : ∀ later, Run next later → later.turn? = none →
    (∃ flight, later.cache.flights[service.cache.flights.size]? = some flight ∧
        flight.phase = .landed (.error .cancelled)) ∧
      ∀ slot ∈ later.cache.slots, slot.flight ≠ some service.cache.flights.size
  /-- It has at most two turns left at any time, and can take them at once. -/
  ends : ∀ later, Run next later → ∃ turns ≤ 2, ∃ last flight,
    (List.replicate turns (.flight service.cache.flights.size)).foldlM step? later = some last ∧
      last.cache.flights[service.cache.flights.size]? = some flight ∧ flight.phase = .landed (.error .cancelled)
  /-- The next lookup of the key in time has a flight of its own. -/
  recovers : ∀ later asked instant, RunBy (Deserted request.cacheKey) next later → asked.cacheKey = request.cacheKey →
    ¬instant.IsOver later.clock → later.AsksAnew asked instant

/-- A flight that was launched by a lookup and left is doomed, and has no fetch. -/
theorem unheard_of_turnedAway {request : Request} {deadline : Deadline} (reachable : service.Reachable)
    (away : Cache.TurnedAway service.cache next.cache request.cacheKey service.policy deadline)
    (fetchOf : next.fetchOf = service.fetchOf) :
    ∃ flight, next.cache.flights = service.cache.flights.push flight ∧ flight.key = request.cacheKey ∧
      next.Unheard service.cache.flights.size flight := by
  obtain ⟨flight, flights, key, queued, cancelled⟩ := away.flights
  have present : next.cache.flights[service.cache.flights.size]? = some flight := by
    rw [flights]
    exact Array.getElem?_push_size
  have running : flight.isRunning = true := by simp [Flight.isRunning, queued]
  refine ⟨flight, flights, key, ⟨present, cancelled, .inl running⟩, ?_⟩
  rw [fetchOf]
  exact reachable.fetchOf_size

theorem fruitless_of_isOver {request : Request} {deadline : Deadline} (reachable : service.Reachable)
    (spent : deadline.IsOver service.clock) (vacant : service.cache.flightFor request.cacheKey = none)
    (nothing : ∀ entry, service.cache.entryFor request.cacheKey = some entry →
      ¬service.cache.IsServable service.policy entry) :
    Fruitless service (service.begin request deadline).2 request deadline (service.begin request deadline).1 := by
  have barren : service.cache.Barren request.cacheKey service.policy := ⟨vacant, nothing⟩
  have step : service.step? (.begin request deadline) = some (service.begin request deadline).2 := rfl
  have fetchOf : (service.begin request deadline).2.fetchOf = service.fetchOf := rfl
  have policy : (service.begin request deadline).2.policy = service.policy := rfl
  have hedger : (service.begin request deadline).2.hedger = service.hedger := rfl
  have place : (service.begin request deadline).1 = service.cache.calls.size := Cache.begin_number ..
  obtain ⟨cache, turn, away⟩ := barren.turnedAway spent
  rw [← begin_cache_of_turn turn] at away
  generalize (service.begin request deadline).2 = next at step fetchOf policy hedger away ⊢
  have reachable' : next.Reachable := reachable.extend (.single step)
  obtain ⟨flight, flights, key, unheard⟩ := unheard_of_turnedAway reachable away fetchOf
  constructor
  · rw [place, away.calls]
    exact Array.getElem?_push_size
  · exact ⟨flight, flights, key⟩
  · exact hedger
  · intro later run
    obtain ⟨last, here, same⟩ := unheard.run reachable' run
    exact ⟨here.fetchOf, last, here.doomed.present, same.trans key, here.callsOf (reachable'.extend run).sound⟩
  · intro later run settled
    obtain ⟨last, here, _⟩ := unheard.run reachable' run
    obtain ⟨landed, gone⟩ := here.ended (reachable'.extend run).sound settled
    exact ⟨⟨last, here.doomed.present, landed⟩, gone⟩
  · intro later run
    obtain ⟨_, here, _⟩ := unheard.run reachable' run
    obtain ⟨turns, few, last, landed, steps, there, phase⟩ := here.ends (reachable'.extend run).sound
    exact ⟨turns, few, last, landed, steps, there.doomed.present, phase⟩
  · intro later asked instant run same inTime
    have still := barren_of_run (policy ▸ away.barren) reachable' run
    rw [← same] at still
    exact asksAnew_of_barren (reachable'.extend run.run) still inTime

/-- The first of two callers has given up before it asks. -/
def givenUp : List Event :=
  [.scope none, .scope none, .cancel ⟨[0]⟩, .begin threeDaysInOslo ⟨5000, ⟨[0]⟩⟩]

/-- The second one asks too late, while the flight of the first is still in its slot, and then once more in time. -/
theorem fruitless_givenUp :
    ∃ service next, givenUp.foldlM step? patientService = some service ∧ service.cache.isIdle 0 = false ∧
      Deadline.failure service.clock ⟨0, ⟨[1]⟩⟩ = .timeout .request ∧
      service.begin threeDaysInOslo ⟨0, ⟨[1]⟩⟩ = (1, next) ∧
      Fruitless service next threeDaysInOslo ⟨0, ⟨[1]⟩⟩ 1 ∧ next.AsksAnew threeDaysInOslo ⟨5000, ⟨[1]⟩⟩ := by
  obtain ⟨service, next, steps, busy, late, began, vacant, empty, uncancelled, unexpired⟩ :
      ∃ service next, givenUp.foldlM step? patientService = some service ∧ service.cache.isIdle 0 = false ∧
        Deadline.failure service.clock ⟨0, ⟨[1]⟩⟩ = .timeout .request ∧
        service.begin threeDaysInOslo ⟨0, ⟨[1]⟩⟩ = (1, next) ∧
        service.cache.flightFor threeDaysInOslo.cacheKey = none ∧
        service.cache.entryFor threeDaysInOslo.cacheKey = none ∧
        Deadline.isCancelled next.clock ⟨5000, ⟨[1]⟩⟩ = false ∧ Deadline.isExpired next.clock ⟨5000, ⟨[1]⟩⟩ = false :=
    ⟨_, _, rfl, rfl, rfl, rfl, rfl, rfl, rfl, rfl⟩
  have reachable : service.Reachable := ⟨patientService, fresh_patientService, .of_events steps⟩
  have spent : Deadline.IsOver service.clock ⟨0, ⟨[1]⟩⟩ := .inr (decide_eq_true (Nat.zero_le _))
  have fruitless := fruitless_of_isOver reachable spent vacant (by simp [empty])
  rw [began] at fruitless
  have inTime : ¬Deadline.IsOver next.clock ⟨5000, ⟨[1]⟩⟩ := by
    simp [Deadline.IsOver, uncancelled, unexpired]
  exact ⟨service, next, steps, busy, late, began, fruitless, fruitless.recovers next _ _ .nil rfl inTime⟩

end Service

end HedgedForecast
