import HedgedForecast.Proofs.Cache.Blame
import HedgedForecast.Proofs.Service.Timers

/-! # Whom a service blames

Flights, their fetches and the legs of these watch one instant and scopes within each other, and more than one of
them may notice at the same time that it is over. Callers are told who is to blame all the same: as long as
providers do not claim such failures by themselves and nobody else cancels the scopes that a service has for its
own use, a lookup is cancelled or out of request time only by its own deadline. What a fetch says when its flight
is out of time nobody hears, since the flight looks at its deadline first.
-/

namespace HedgedForecast

namespace Cache

variable {V : Type} {rule : Rule V} {cache next : Cache V} {number : Nat}

/-- Apart from how time passes, the rule allows all that is honest. -/
def Allows (rule : Rule V) : Prop :=
  ∀ cache event, Honest cache event → event.Stands → rule cache event

theorem allows_honest : Allows (Honest (V := V)) :=
  fun _ _ honest _ => honest

theorem allows_prompt : Allows (Prompt (V := V)) := by
  intro cache event _ stands
  cases event with
  | pass instant => exact stands.elim
  | _ => trivial

/-- A quiet event is honest if nobody else cancels a scope by it. -/
theorem Event.Quiet.honest {event : Event V} (quiet : event.Quiet) (discreet : event.Discreet) :
    Honest cache event := by
  cases event with
  | flight => exact quiet.elim
  | cancel token => exact discreet.elim
  | _ => trivial

/-- Scopes that are made, and cancelled outside of flights, are events. -/
theorem Run.of_tames {own : Nat → Prop} {outer : Token} {clock : Clock} (allows : Allows rule)
    (known : ∀ scope ∈ outer.lineage, scope < cache.clock.scopes.issued)
    (apart : ∀ flight ∈ cache.flights, ∀ scope, flight.token.lineage.head? = some scope → ¬own scope)
    (tames : Relation.ReflTransGen (Fetch.Tame own outer) cache.clock clock) :
    Run rule cache { cache with clock } := by
  induction tames with
  | refl => exact .nil
  | @tail middle _ before tame ih =>
    let here : Cache V := { cache with clock := middle }
    cases tame with
    | same => exact ih
    | scope parent => exact .snoc ih (allows here (.scope (some parent)) trivial trivial) rfl
    | @cancel scope mine issued =>
      have outside : here.Outside ⟨scope :: outer.lineage⟩ := by
        refine ⟨fun other within => ?_, fun flight member same => apart flight member scope same mine⟩
        rcases List.mem_cons.mp within with rfl | within
        · exact issued
        · exact Nat.lt_of_lt_of_le (known other within) (Fetch.Tame.follows_of_run before).issued
      exact .snoc ih (allows here (.cancel _) outside trivial) rfl

/-- If a computation says what its caller would be blamed for only when its deadline is over, then nobody has to
listen to it. -/
theorem exists_honest_turn {work : Option (WorkEnd V)} (turn : cache.turnFlight? number work = some next)
    (spent : ∀ failure flight deadline, work = some (.failure failure) → isCallerSide failure = true →
      cache.flights[number]? = some flight → flight.phase = .working deadline → deadline.IsOver cache.clock) :
    ∃ work', Honest cache (.flight number work') ∧ cache.turnFlight? number work' = some next := by
  by_cases blamed : ∃ failure, work = some (.failure failure) ∧ isCallerSide failure = true
  · obtain ⟨failure, told, callerSide⟩ := blamed
    refine ⟨none, trivial, turnFlight?_eq_some_iff.mpr ?_⟩
    obtain ⟨flight, present, queued | ⟨deadline, ending, working, verdict, same⟩⟩ := turnFlight?_eq_some_iff.mp turn
    · exact ⟨flight, present, .inl queued⟩
    · rw [(spent failure flight deadline told callerSide present working).verdict work none] at verdict
      exact ⟨flight, present, .inr ⟨deadline, ending, working, verdict, same⟩⟩
  · refine ⟨work, ?_, turn⟩
    match work with
    | none | some (.value _) | some (.panicked _) => trivial
    | some (.failure failure) => exact fun callerSide => absurd ⟨failure, rfl, callerSide⟩ blamed

end Cache

namespace Service

variable {service next source : Service} {number : Nat}

/-- Which events may come in which state. -/
abbrev Rule := Service → Event → Prop

/-- A sequence of events that obey a rule leads from one service to another. -/
inductive RunBy (rule : Rule) (source : Service) : Service → Prop
  | nil : RunBy rule source source
  | snoc {middle target : Service} {event : Event} (run : RunBy rule source middle) (allowed : rule middle event)
      (step : middle.step? event = some target) : RunBy rule source target

/-- Others cancel neither the scopes of flights nor those in which fetches and their legs work. -/
def Lawful : Rule
  | service, .cancel token => service.cache.Outside token ∧
      ∀ run ∈ service.hedger.fetches, ∀ scope, token.lineage.head? = some scope → ¬run.fetch.Uses scope
  | _, _ => True

/-- Moreover time moves on only when no turn is left, and no further than to the next timer. -/
def Punctual : Rule
  | service, .pass instant =>
      service.turn? = none ∧ ∀ timer ∈ service.timers, service.clock.now < timer → instant ≤ timer
  | service, event => Lawful service event

theorem Punctual.lawful {event : Event} (punctual : Punctual service event) : Lawful service event := by
  cases event with
  | cancel token => exact punctual
  | _ => trivial

namespace RunBy

variable {rule : Rule}

theorem run (run : RunBy rule source service) : Run source service := by
  induction run with
  | nil => exact .nil
  | snoc _ _ step ih => exact .snoc ih step

theorem weaken {weaker : Rule} (weakening : ∀ service event, rule service event → weaker service event)
    (run : RunBy rule source service) : RunBy weaker source service := by
  induction run with
  | nil => exact .nil
  | snoc _ allowed step ih => exact .snoc ih (weakening _ _ allowed) step

theorem pass {instant : Nat} (run : RunBy Punctual source service) (settled : service.turn? = none)
    (timers : ∀ timer ∈ service.timers, service.clock.now < timer → instant ≤ timer)
    (step : service.step? (.pass instant) = some next) : RunBy Punctual source next :=
  .snoc run (show Punctual service (.pass instant) from ⟨settled, timers⟩) step

/-- A run goes on with events that are allowed in every state as far as they can happen. -/
theorem extend {events : List Event} (run : RunBy rule source service)
    (allowed : ∀ event ∈ events, ∀ service, rule service event)
    (steps : events.foldlM step? service = some next) : RunBy rule source next := by
  induction events generalizing service with
  | nil => cases steps; exact run
  | cons event events ih =>
    obtain ⟨middle, step, rest⟩ := Option.bind_eq_some_iff.mp steps
    have first : RunBy rule source middle := .snoc run (allowed event List.mem_cons_self service) step
    exact ih first (fun event member => allowed event (List.mem_cons_of_mem _ member)) rest

end RunBy

/-- Without turns left, no flight and no call can take one. -/
theorem settled_of_turn?_eq_none (settled : service.turn? = none) : service.cache.Settled := by
  simp only [turn?, Option.orElse_eq_orElse, Option.orElse_eq_or, Option.or_eq_none_iff] at settled
  refine Cache.settled_iff.mpr ⟨fun number inside => ?_, fun number inside => ?_⟩
  · have still := (turnFlight?_eq_none_iff.mp (turnFlights?_eq_none_iff.mp settled.2.1 number inside)).1
    rw [Option.isNone_iff_eq_none]
    unfold Cache.turnFlight? at still ⊢
    split at still
    · split at still
      · contradiction
      · simp only [Option.map_eq_none_iff, Deadline.verdict_eq_none_iff] at still ⊢
        exact ⟨still.1, still.2.1, trivial⟩
      · rfl
    · rfl
  · rw [Option.isNone_iff_eq_none]
    exact turnCalls?_eq_none_iff.mp settled.2.2.1 number inside

/-- To the cache of a service time passes as it does to the service. -/
theorem Punctual.pass {instant : Nat} (punctual : Punctual service (.pass instant)) :
    Cache.Prompt service.cache (.pass instant) := by
  have settled := settled_of_turn?_eq_none punctual.1
  refine ⟨settled, fun timer member => punctual.2 timer ?_ (settled.now_lt member)⟩
  exact List.mem_append_left _ (List.mem_append_left _ member)

/-- The fetch works for the flight and by its deadline, and is fair as long as the flight works. -/
structure Tied (clock : Clock) (flight : Flight (List ForecastDay)) (run : FetchRun) : Prop where
  begun : flight.phase ≠ .queued
  token : run.fetch.deadline.token = flight.token
  working : ∀ deadline, flight.phase = .working deadline → run.fetch.deadline = deadline ∧ run.fetch.Fair clock

/-- Fetches are candid, use none of the scopes of flights, and are tied to their flights. -/
structure Candid (service : Service) : Prop where
  hedger : service.hedger.Candid service.clock
  apart : ∀ flight ∈ service.cache.flights, ∀ run ∈ service.hedger.fetches, ∀ scope,
    flight.token.lineage.head? = some scope → ¬run.fetch.Uses scope
  tied : ∀ number fetch, service.fetchOf.lookup number = some fetch → ∃ flight run,
    service.cache.flights[number]? = some flight ∧ service.hedger.fetches[fetch]? = some run ∧
    Tied service.clock flight run

/-- An event keeps a service candid, and to its cache it is a run by the rule. -/
structure Kept (rule : Cache.Rule (List ForecastDay)) (service next : Service) : Prop where
  candid : next.Candid
  run : Cache.Run rule service.cache next.cache

namespace Candid

/-- The cache does something that spares the scopes of others. -/
theorem goOn (candid : service.Candid) (hedger : next.hedger = service.hedger)
    (fetchOf : next.fetchOf = service.fetchOf) (spares : Cache.Spares service.cache next.cache)
    (kept : ∀ (number : Nat) (flight : Flight (List ForecastDay)), service.cache.flights[number]? = some flight →
      ∃ later, next.cache.flights[number]? = some later ∧ later.token = flight.token ∧
        (flight.phase ≠ .queued → later.phase ≠ .queued ∧
          ∀ deadline, later.phase = .working deadline → flight.phase = .working deadline)) : next.Candid := by
  have apart : ∀ flight ∈ next.cache.flights, ∀ run ∈ service.hedger.fetches, ∀ scope,
      flight.token.lineage.head? = some scope → ¬run.fetch.Uses scope := by
    intro flight member run own scope head uses
    rcases spares.tokens flight member with ⟨old, there, same⟩ | ⟨new, issued, same⟩
    · exact candid.apart old there run own scope (same ▸ head) uses
    · rw [same] at head
      cases head
      exact absurd ((candid.hedger.fetches run own).issued scope uses) (Nat.not_lt.mpr issued)
  constructor
  · rw [hedger]
    refine candid.hedger.follow spares.follows fun run own scope uses gone => ?_
    refine (spares.cancelled scope gone).resolve_right ?_
    rintro ⟨flight, member, head⟩
    exact apart flight member run own scope head uses
  · rw [hedger]
    exact apart
  · intro number fetch known
    rw [fetchOf] at known
    obtain ⟨flight, run, present, there, tied⟩ := candid.tied number fetch known
    obtain ⟨later, here, token, phase⟩ := kept number flight present
    obtain ⟨begun, working⟩ := phase tied.begun
    refine ⟨later, run, here, hedger ▸ there, begun, tied.token.trans token.symm, fun deadline still => ?_⟩
    obtain ⟨same, fair⟩ := tied.working deadline (working deadline still)
    exact ⟨same, fair.follow spares.follows⟩

/-- A fetch goes on, and if its flight still works, it is fair. -/
theorem proceeds (candid : service.Candid) (rooted : Cache.Rooted service.cache) {run : FetchRun} {fetch : Fetch}
    {hedger : Hedger} {clock : Clock}
    (proceeds : service.hedger.Proceeds service.clock number run fetch hedger clock) (modest : hedger.Modest)
    (fair : ∀ place flight deadline, service.fetchOf.lookup place = some number →
      service.cache.flights[place]? = some flight → flight.phase = .working deadline →
      run.fetch.Fair service.clock → fetch.Fair clock) : ({ service with hedger }.withClock clock).Candid := by
  refine ⟨candid.hedger.update proceeds modest, fun flight member later own scope head uses => ?_, ?_⟩
  · obtain ⟨place, present⟩ := Array.mem_iff_getElem?.mp member
    obtain ⟨n, there⟩ := Array.mem_iff_getElem?.mp own
    rcases proceeds.cases there with ⟨_, old⟩ | ⟨_, rfl⟩
    · exact candid.apart flight member later (Array.mem_of_getElem? old) scope head uses
    · rcases proceeds.uses scope uses with old | new
      · exact candid.apart flight member run (Array.mem_of_getElem? proceeds.present) scope head old
      · have issued := rooted.known present scope (List.mem_of_head? head)
        exact absurd issued (Nat.not_lt.mpr new)
  · intro place own known
    obtain ⟨flight, run', present, there, tied⟩ := candid.tied place own known
    by_cases same : number = own
    · subst same
      obtain rfl := Option.some.inj (proceeds.present.symm.trans there)
      refine ⟨flight, _, present, proceeds.here, tied.begun, ?_, fun deadline still => ?_⟩
      · exact (congrArg Deadline.token proceeds.deadline).trans tied.token
      · obtain ⟨instant, before⟩ := tied.working deadline still
        exact ⟨proceeds.deadline.trans instant, fair place flight deadline known present still before⟩
    · have there := (proceeds.there same).trans there
      refine ⟨flight, run', present, there, tied.begun, tied.token, fun deadline still => ?_⟩
      obtain ⟨instant, before⟩ := tied.working deadline still
      exact ⟨instant, before.follow proceeds.tame.follows⟩

/-- Two flights do not have one fetch. -/
theorem fetch_unique (candid : service.Candid) (rooted : Cache.Rooted service.cache) {m n fetch : Nat}
    (known : service.fetchOf.lookup m = some fetch) (known' : service.fetchOf.lookup n = some fetch) : m = n := by
  obtain ⟨flight, run, present, there, tied⟩ := candid.tied m fetch known
  obtain ⟨other, run', present', there', tied'⟩ := candid.tied n fetch known'
  obtain rfl := Option.some.inj (there.symm.trans there')
  exact rooted.distinct m n flight other present present' (tied.token.symm.trans tied'.token)

/-- A failure that a flight would be told and a caller would be blamed for comes too late to be heard. -/
theorem isOver_of_workOf (candid : service.Candid) {failure : Failure} {flight : Flight (List ForecastDay)}
    {deadline : Deadline} (told : service.workOf number = some (.failure failure))
    (blamed : Cache.isCallerSide failure = true) (present : service.cache.flights[number]? = some flight)
    (working : flight.phase = .working deadline) : deadline.IsOver service.clock := by
  unfold workOf at told
  split at told
  · cases told
  · next own ended =>
    cases told
    obtain ⟨fetch, known, result⟩ := Option.bind_eq_some_iff.mp ended
    obtain ⟨run, there, decided⟩ := Option.bind_eq_some_iff.mp result
    obtain ⟨flight', run', present', there', tied⟩ := candid.tied number fetch known
    obtain rfl := Option.some.inj (present.symm.trans present')
    obtain rfl := Option.some.inj (there.symm.trans there')
    obtain ⟨rfl, fair⟩ := tied.working deadline working
    exact fair failure decided blamed
  · cases told

section

variable {rule : Cache.Rule (List ForecastDay)} {cache : Cache (List ForecastDay)}

/-- Whatever the cache does by itself spares the scopes of fetches. -/
theorem step {event : Cache.Event (List ForecastDay)} (candid : service.Candid) (quiet : event.Quiet)
    (discreet : event.Discreet) (step : service.cache.step? event = some cache) :
    ({ service with cache } : Service).Candid := by
  refine candid.goOn rfl rfl (.step discreet step) fun number flight present => ?_
  obtain ⟨later, there, rebooked⟩ := (quiet.flights step).2 number flight present
  have token : later.token = flight.token := by rw [rebooked.same]
  have phase : later.phase = flight.phase := by rw [rebooked.same]
  exact ⟨later, there, token, fun begun => ⟨phase ▸ begun, fun deadline still => phase ▸ still⟩⟩

theorem quiet {event : Cache.Event (List ForecastDay)} (candid : service.Candid) (allows : Cache.Allows rule)
    (quiet : event.Quiet) (discreet : event.Discreet) (stands : event.Stands)
    (step : service.cache.step? event = some cache) : Kept rule service { service with cache } :=
  ⟨candid.step quiet discreet step, .single (allows service.cache event (quiet.honest discreet) stands) step⟩

/-- Others cancel other scopes. -/
theorem cancel (candid : service.Candid) (allows : Cache.Allows rule) {token : Token}
    (lawful : Lawful service (.cancel token)) : Kept rule service (service.withClock (service.clock.cancel token)) := by
  have follows := service.clock.follows_cancel token
  refine ⟨⟨?_, candid.apart, fun number fetch known => ?_⟩,
    .single (allows service.cache (.cancel token) lawful.1 trivial) rfl⟩
  · refine candid.hedger.follow follows fun run member scope uses gone => ?_
    exact (Clock.mem_cancelled_cancel.mp gone).resolve_left fun head => lawful.2 run member scope head uses
  · obtain ⟨flight, run, present, there, tied⟩ := candid.tied number fetch known
    refine ⟨flight, run, present, there, tied.begun, tied.token, fun deadline working => ?_⟩
    exact (tied.working deadline working).imp_right fun fair => fair.follow follows

/-- A lookup begins, and may be answered at once. -/
theorem begin (candid : service.Candid) (allows : Cache.Allows rule) (request : Request) (deadline : Deadline) :
    Kept rule service (service.begin request deadline).2 := by
  have step : service.cache.step? (.begin request.cacheKey service.policy deadline) = some _ := rfl
  have altered := Cache.Alters.begin service.cache request.cacheKey service.policy deadline
  have began : ∀ middle : Service, middle.hedger = service.hedger → middle.fetchOf = service.fetchOf →
      middle.cache = (service.cache.begin request.cacheKey service.policy deadline).2 → Kept rule service middle := by
    intro middle hedger fetchOf cache
    refine ⟨candid.goOn hedger fetchOf ?_ fun number flight present => ?_, ?_⟩
    · rw [cache]
      exact Cache.Spares.step (show Cache.Event.Discreet (.begin ..) from trivial) step
    · obtain ⟨later, there, rebooked⟩ := altered.kept number flight present
      have token : later.token = flight.token := by rw [rebooked.same]
      have phase : later.phase = flight.phase := by rw [rebooked.same]
      exact ⟨later, cache ▸ there, token, fun begun => ⟨phase ▸ begun, fun deadline still => phase ▸ still⟩⟩
    · rw [cache]
      exact .single (allows service.cache (.begin request.cacheKey service.policy deadline) trivial trivial) step
  unfold Service.begin pollCall
  simp only
  cases turn : Cache.turnCall? _ _ with
  | none => exact began _ rfl rfl rfl
  | some cache =>
    have middle := began { service with cache := (service.cache.begin request.cacheKey service.policy deadline).2 }
      rfl rfl rfl
    have quiet : Cache.Event.Quiet (.call (service.cache.begin request.cacheKey service.policy deadline).1 :
      Cache.Event (List ForecastDay)) := trivial
    have polled := middle.candid.quiet allows quiet trivial trivial turn
    exact ⟨⟨polled.candid.hedger, polled.candid.apart, polled.candid.tied⟩, middle.run.append polled.run⟩

/-- The fetch of a flight that works no more is stopped. -/
theorem dropFetch (candid : service.Candid) (rooted : Cache.Rooted service.cache) (allows : Cache.Allows rule)
    (ended : ∀ flight, service.cache.flights[number]? = some flight → flight.isRunning = false) :
    Kept rule service (service.dropFetch number) := by
  rcases dropFetch_cases service number with ⟨fetch, own, same⟩ | ⟨_, same⟩
  · rw [same]
    rcases candid.hedger.drop_cases fetch with idle | ⟨run, stopped, proceeds⟩
    · rw [idle]
      exact ⟨candid, .nil⟩
    · obtain ⟨flight, run', present, there, tied⟩ := candid.tied number fetch own
      obtain rfl := Option.some.inj (proceeds.present.symm.trans there)
      refine ⟨candid.proceeds rooted proceeds (candid.hedger.modest.drop ..) ?_, ?_⟩
      · intro place other deadline known there working
        obtain rfl := candid.fetch_unique rooted own known
        have finished := ended other there
        simp [Flight.isRunning, working] at finished
      · refine .of_tames allows ?_ (fun flight member => ?_) (.single proceeds.tame)
        · rw [tied.token]
          exact rooted.known present
        · exact candid.apart flight member run (Array.mem_of_getElem? there)
  · rw [same]
    exact ⟨candid, .nil⟩

end

end Candid

/-- All parts of a service are in order, its computations are honest, and its fetches are candid. -/
structure Watched (service : Service) : Prop where
  sound : service.Sound
  honest : Cache.Reachable Cache.Honest service.cache
  candid : service.Candid

namespace Watched

variable {rule : Cache.Rule (List ForecastDay)} {cache : Cache (List ForecastDay)}

theorem numbered (watched : service.Watched) :
    ∀ scope ∈ service.clock.scopes.cancelled, scope < service.clock.scopes.issued :=
  (watched.honest.weaken fun _ _ => Cache.Honest.lawful).accounted.cancelled_issued

/-- The scopes around a fetch exist. -/
theorem known (watched : service.Watched) {fetch : Nat} {run : FetchRun}
    (there : service.hedger.fetches[fetch]? = some run) :
    ∀ scope ∈ run.fetch.deadline.token.lineage, scope < service.clock.scopes.issued := by
  obtain ⟨_, _, _, serves⟩ := watched.sound.linked.fetches fetch run there
  rw [serves.token]
  exact watched.honest.rooted.known serves.present

/-- A flight that has a fetch ends by its turn, and its fetch is stopped. -/
theorem turn (watched : service.Watched) (allows : Cache.Allows rule)
    (turn : service.cache.turnFlight? number (service.workOf number) = some cache) :
    Kept rule service ({ service with cache }.dropFetch number) := by
  obtain ⟨work, honest, turned⟩ := Cache.exists_honest_turn turn fun _ _ _ told blamed present working =>
    watched.candid.isOver_of_workOf told blamed present working
  have step : service.cache.step? (.flight number work) = some cache := turned
  have run : Cache.Run rule service.cache cache := .single (allows _ _ honest trivial) step
  obtain ⟨flight, later, present, turned, clock, here, others⟩ := Cache.turnFlight?_flights turned
  have token : later.token = flight.token := by cases turned <;> rfl
  have ended (begun : flight.phase ≠ .queued) : later.isRunning = false := by
    cases turned with
    | started queued => exact absurd queued begun
    | @ended _ ending =>
      rcases flight.endPhase_cases ending with lost | ⟨result, landed⟩
      · simp [Flight.isRunning, lost]
      · simp [Flight.isRunning, landed]
  have candid : ({ service with cache } : Service).Candid := by
    have discreet : Cache.Event.Discreet (.flight number work : Cache.Event (List ForecastDay)) := trivial
    refine watched.candid.goOn rfl rfl (.step discreet step) fun place before there => ?_
    by_cases same : number = place
    · subst same
      obtain rfl := Option.some.inj (present.symm.trans there)
      refine ⟨later, here, token, fun begun => ⟨fun queued => ?_, fun deadline working => ?_⟩⟩
      · simpa [Flight.isRunning, queued] using ended begun
      · simpa [Flight.isRunning, working] using ended begun
    · exact ⟨before, (others place same).trans there, rfl, fun begun => ⟨begun, fun _ => id⟩⟩
  cases known : service.fetchOf.lookup number with
  | none =>
    have idle : ({ service with cache } : Service).dropFetch number = { service with cache } := by
      simp only [Service.dropFetch, known]
    rw [idle]
    exact ⟨candid, run⟩
  | some fetch =>
    obtain ⟨flight', _, present', _, tied⟩ := watched.candid.tied number fetch known
    obtain rfl := Option.some.inj (present.symm.trans present')
    have dropped : Kept rule { service with cache } (({ service with cache } : Service).dropFetch number) := by
      refine candid.dropFetch (watched.honest.rooted.step step) allows fun other there => ?_
      obtain rfl := Option.some.inj (here.symm.trans there)
      exact ended tied.begun
    exact ⟨dropped.candid, run.append dropped.run⟩

/-- A flight that works begins its fetch. -/
theorem fetch (watched : service.Watched) (allows : Cache.Allows rule) {flight : Flight (List ForecastDay)}
    (request : Request) {deadline : Deadline} (present : service.cache.flights[number]? = some flight)
    (working : flight.phase = .working deadline) (none : service.fetchOf.lookup number = none) :
    Kept rule service ({ service with
      hedger := (service.hedger.begin service.clock request deadline).2.1
      fetchOf := (number, service.hedger.fetches.size) :: service.fetchOf }.withClock
        (service.hedger.begin service.clock request deadline).2.2) := by
  have rooted := watched.honest.rooted
  have own := (watched.honest.regular present).own deadline working
  obtain ⟨fetch, fetches, begun, hedger⟩ := watched.candid.hedger.begin watched.numbered request deadline
  have follows := Fetch.Tame.follows_of_run begun.tame
  have old : ∀ other ∈ service.cache.flights, ∀ scope, other.token.lineage.head? = some scope →
      ¬service.clock.scopes.issued ≤ scope := by
    intro other member scope head new
    obtain ⟨place, there⟩ := Array.mem_iff_getElem?.mp member
    have issued := rooted.known there scope (List.mem_of_head? head)
    exact absurd issued (Nat.not_lt.mpr new)
  refine ⟨⟨hedger, fun other member run there scope head uses => ?_, fun place index known => ?_⟩, ?_⟩
  · have there : run ∈ (service.hedger.begin service.clock request deadline).2.1.fetches := there
    rw [fetches] at there
    rcases Array.mem_push.mp there with before | rfl
    · exact watched.candid.apart other member run before scope head uses
    · exact old other member scope head (begun.new scope uses)
  · have known : ((number, service.hedger.fetches.size) :: service.fetchOf).lookup place = some index := known
    have here {index : Nat} {run : FetchRun}
        (there : (service.hedger.fetches.push ⟨request, fetch⟩)[index]? = some run) :
        (service.hedger.begin service.clock request deadline).2.1.fetches[index]? = some run := fetches ▸ there
    rw [List.lookup_cons] at known
    split at known
    · next same =>
      obtain rfl := Option.some.inj known
      obtain rfl := beq_iff_eq.mp same
      refine ⟨flight, _, present, here Array.getElem?_push_size, by simp [working], ?_, fun other still => ?_⟩
      · exact (congrArg Deadline.token begun.same).trans own
      · obtain rfl := FlightPhase.working.inj (working.symm.trans still)
        exact ⟨begun.same, begun.fair⟩
    · obtain ⟨other, run, present', there, tied⟩ := watched.candid.tied place index known
      refine ⟨other, run, present', here (getElem?_push_of_some _ there), tied.begun, tied.token,
        fun deadline' still => ?_⟩
      exact (tied.working deadline' still).imp_right fun fair => fair.follow follows
  · refine .of_tames allows ?_ old begun.tame
    rw [own]
    exact rooted.known present

/-- Fetches and their legs go on. -/
theorem works (watched : service.Watched) (allows : Cache.Allows rule) {hedger : Hedger} {clock : Clock}
    (works : service.hedger.Works service.clock hedger clock) :
    Kept rule service ({ service with hedger }.withClock clock) := by
  obtain ⟨number, run, fetch, proceeds, fair⟩ :=
    watched.candid.hedger.proceeds watched.sound.ledger watched.numbered works
  refine ⟨watched.candid.proceeds watched.honest.rooted proceeds (watched.candid.hedger.modest.works works)
    fun _ _ _ _ _ _ => fair, .of_tames allows (watched.known proceeds.present) (fun flight member => ?_)
    (.single proceeds.tame)⟩
  exact watched.candid.apart flight member run (Array.mem_of_getElem? proceeds.present)

/-- Whatever happens to a service is honest to its cache, whose time passes as that of the service does. -/
theorem kept {event : Event} (watched : service.Watched) (allows : Cache.Allows rule) (lawful : Lawful service event)
    (timed : ∀ instant, event = .pass instant → rule service.cache (.pass instant))
    (step : service.step? event = some next) : Kept rule service next := by
  cases effect_of_step step with
  | lookup request deadline => exact watched.candid.begin allows request deadline
  | flight turn => exact watched.turn allows turn
  | @fetch number flight request deadline _ present _ working none =>
    exact watched.fetch allows request present working none
  | hedger works => exact watched.works allows works
  | publish => exact ⟨⟨watched.candid.hedger, watched.candid.apart, watched.candid.tied⟩, .nil⟩
  | own known stepped =>
    have quiet := Event.quiet_of_own? known
    cases event with
    | pass instant =>
      cases known
      exact ⟨watched.candid.step quiet trivial stepped, .single (timed instant rfl) stepped⟩
    | cancel token => cases known; cases stepped; exact watched.candid.cancel allows lawful
    | call | drop | purge | scope => cases known; exact watched.candid.quiet allows quiet trivial trivial stepped
    | begin | flight | leg | fetch | publish => contradiction

theorem step {event : Event} (watched : service.Watched) (lawful : Lawful service event)
    (step : service.step? event = some next) : next.Watched := by
  have kept := watched.kept Cache.allows_honest lawful (fun _ _ => trivial) step
  exact ⟨watched.sound.step step, watched.honest.extend kept.run, kept.candid⟩

theorem fresh (fresh : service.Fresh) (modest : ∀ provider ∈ service.hedger.providers, provider.IsModest) :
    service.Watched := by
  obtain ⟨maxEntries, empty⟩ := fresh.cache
  refine ⟨.fresh fresh, ?_, ⟨⟨modest, ?_⟩, ?_, ?_⟩, ?_, ?_⟩
  · rw [empty]
    exact ⟨maxEntries, .nil⟩
  · simp [fresh.calls]
  · simp [fresh.fetches]
  · simp [fresh.fetches]
  · simp [fresh.fetches]
  · simp [fresh.fetchOf]

theorem run (watched : source.Watched) (run : RunBy Lawful source service) : service.Watched := by
  induction run with
  | nil => exact watched
  | snoc _ lawful step ih => exact ih.step lawful step

/-- A punctual run of a service is a prompt run of its cache. -/
theorem prompt (watched : source.Watched) (run : RunBy Punctual source service) :
    Cache.Run Cache.Prompt source.cache service.cache := by
  induction run with
  | nil => exact .nil
  | @snoc middle _ event before punctual step ih =>
    have here := watched.run (before.weaken fun _ _ => Punctual.lawful)
    have kept := here.kept Cache.allows_prompt punctual.lawful (fun instant same => (same ▸ punctual).pass) step
    exact ih.append kept.run

end Watched

/-- To stop a fetch does not change what flights and calls are, and takes no time. -/
theorem dropFetch_frame (service : Service) (number : Nat) :
    (service.dropFetch number).cache.flights = service.cache.flights ∧
      (service.dropFetch number).cache.calls = service.cache.calls ∧
      (service.dropFetch number).clock.now = service.clock.now := by
  rcases dropFetch_cases service number with ⟨fetch, _, same⟩ | ⟨_, same⟩
  · rw [same]
    exact ⟨rfl, rfl, (Hedger.drop_ticks ..).now⟩
  · rw [same]
    exact ⟨rfl, rfl, rfl⟩

/-- The time of the flight is just up, and so it has ended by the event. Whoever waits for it without a stale value
and has more time is told so before time goes on, unless the caller goes away or gives up. -/
structure Overruns (service next : Service) (number : Nat) (flight : Flight (List ForecastDay)) (deadline : Deadline)
    (place : Nat) (call : Call (List ForecastDay)) : Prop where
  now : service.clock.now = deadline.instant
  limit : ∃ started, flight.startedAt = some started ∧ deadline.instant = started + flight.limit
  ended : next.cache.resultOf number = some (.error (.timeout .factory))
  learns : ∀ later, RunBy Punctual next later →
    Cache.Learns next.cache later.cache place call (.timeout .factory)

theorem Watched.overruns (watched : service.Watched) (prompt : Cache.Reachable Cache.Prompt service.cache)
    {flight : Flight (List ForecastDay)} {deadline : Deadline}
    (present : service.cache.flights[number]? = some flight) (working : flight.phase = .working deadline)
    (past : deadline.instant ≤ service.clock.now) (step : service.step? (.flight number) = some next) {place : Nat}
    {call : Call (List ForecastDay)} (there : service.cache.calls[place]? = some call)
    (cold : call.phase = .cold number) (later : deadline.instant < call.deadline.instant) :
    service.Overruns next number flight deadline place call := by
  have now : service.clock.now = deadline.instant := Nat.le_antisymm (prompt.now_le_of_working present working) past
  obtain ⟨started, timed⟩ := prompt.timed present (by simp [working])
  have waits : call.flight? = some number := by simp [Call.flight?, cold]
  have accounted := (watched.honest.weaken fun _ _ => Cache.Honest.lawful).accounted
  have uncancelled : deadline.isCancelled service.clock = false := by
    rw [Deadline.isCancelled, (watched.honest.regular present).own deadline working]
    exact accounted.uncancelled there waits present
  obtain ⟨cache, turned, clock, calls, result⟩ :=
    Cache.turnFlight?_of_expired present working uncancelled past (service.workOf number)
  have same : next = ({ service with cache } : Service).dropFetch number := by
    have step : service.turnFlight? number = some next := step
    unfold turnFlight? at step
    rw [turned] at step
    exact (Option.some.inj step).symm
  obtain ⟨flights', calls', now'⟩ := dropFetch_frame { service with cache } number
  rw [← same] at flights' calls' now'
  have ended : next.cache.resultOf number = some (.error (.timeout .factory)) := by
    unfold Cache.resultOf at result ⊢
    rw [flights']
    exact result
  have inTime : next.cache.clock.now < call.deadline.instant := by
    have sameTime : next.clock.now = cache.clock.now := now'
    rw [← now, Service.clock, ← clock, ← sameTime] at later
    exact later
  have there' : next.cache.calls[place]? = some call := by
    rw [calls']
    exact calls ▸ there
  refine ⟨now, ⟨started, timed.startedAt, ?_⟩, ended, fun last run => ?_⟩
  · rw [timed.deadline deadline working]
  · have lawful : Lawful service (.flight number) := trivial
    exact Cache.Learns.run there' cold ended inTime ((watched.step lawful step).prompt run)

/-- Whom lookups blame when they fail, in all runs of a service. -/
structure RightBlame (source : Service) : Prop where
  /-- A lookup is out of request time only by its own deadline, and cancelled only with that, which is so as soon as it
  has returned. -/
  own : ∀ (service : Service) (number : Nat) (call : Call (List ForecastDay)) (failure : Failure) (instant : Nat),
    RunBy Lawful source service → service.cache.calls[number]? = some call →
    call.phase = .returned (.error failure) instant →
    (failure = .timeout .request → call.deadline.instant ≤ instant) ∧
      (failure = .cancelled → call.deadline.isCancelled service.clock = true)
  /-- A flight that is stopped when its time is up is known to be so to all who wait for it and have more time. -/
  overruns : ∀ (service next : Service) (number : Nat) (flight : Flight (List ForecastDay)) (deadline : Deadline)
    (place : Nat) (call : Call (List ForecastDay)), RunBy Punctual source service →
    service.cache.flights[number]? = some flight → flight.phase = .working deadline →
    deadline.instant ≤ service.clock.now → service.step? (.flight number) = some next →
    service.cache.calls[place]? = some call → call.phase = .cold number →
    deadline.instant < call.deadline.instant → service.Overruns next number flight deadline place call
  /-- The fetch of a flight that works has the same deadline, and when that is reached, it would blame the caller. -/
  fetch : ∀ (service : Service) (number fetch : Nat) (flight : Flight (List ForecastDay)) (deadline : Deadline),
    RunBy Lawful source service → service.cache.flights[number]? = some flight → flight.phase = .working deadline →
    service.fetchOf.lookup number = some fetch →
    ∃ run, service.hedger.fetches[fetch]? = some run ∧ run.fetch.deadline = deadline ∧
      (run.fetch.result = none → deadline.isCancelled service.clock = false → deadline.instant ≤ service.clock.now →
        ∃ own, service.step? (.fetch fetch) = some own ∧
          own.hedger.resultOf fetch = some (.error (.timeout .request)))

theorem rightBlame_of_fresh (fresh : source.Fresh) (modest : ∀ provider ∈ source.hedger.providers, provider.IsModest) :
    source.RightBlame := by
  have start : source.Watched := .fresh fresh modest
  constructor
  · intro service number call failure instant run present failed
    have watched := start.run run
    have answerable := Cache.answerable_of_reachable (watched.honest.weaken fun _ _ => Cache.Honest.lawful)
    have own := answerable.own watched.honest number call failure instant present failed
    constructor
    · rintro rfl
      obtain ⟨other, _⟩ | ⟨_, late⟩ := own rfl
      · contradiction
      · exact late
    · rintro rfl
      obtain ⟨_, cancelled⟩ | ⟨other, _⟩ := own rfl
      · exact cancelled
      · contradiction
  · intro service next number flight deadline place call run present working past step there cold later
    have watched := start.run (run.weaken fun _ _ => Punctual.lawful)
    have prompt : Cache.Reachable Cache.Prompt service.cache := by
      obtain ⟨maxEntries, empty⟩ := fresh.cache
      exact ⟨maxEntries, empty ▸ start.prompt run⟩
    exact watched.overruns prompt present working past step there cold later
  · intro service number fetch flight deadline run present working known
    obtain ⟨flight', fetchRun, present', there, tied⟩ := (start.run run).candid.tied number fetch known
    obtain rfl := Option.some.inj (present.symm.trans present')
    obtain ⟨rfl, _⟩ := tied.working deadline working
    refine ⟨fetchRun, there, rfl, fun undecided uncancelled past => ?_⟩
    obtain ⟨hedger, clock, turn, result⟩ := Hedger.turnFetch?_of_expired there undecided uncancelled past
    exact ⟨{ service with hedger }.withClock clock, by simp [step?, turnFetch?, there, turn], result⟩

/-- A service whose computations have fifty milliseconds, which its providers exceed. -/
def hurriedService : Service :=
  { patientService with policy := { Cache.lenient with hardTimeout := 50 } }

theorem fresh_hurriedService : hurriedService.Fresh :=
  ⟨⟨1, rfl⟩, rfl, rfl, rfl, rfl, fresh_patientService.chain⟩

theorem isModest_slowProvider (name : String) : (slowProvider name).IsModest := by
  intro step member request ending ends
  rw [List.mem_singleton.mp member] at ends
  contradiction

/-- The fetch blames the caller as soon as the time is up; then the flight is stopped, and the caller learns why. -/
theorem rightBlame_hurriedService :
    ∃ service next flight deadline call, RunBy Punctual hurriedService service ∧
      service.hedger.resultOf 0 = some (.error (.timeout .request)) ∧ service.step? (.flight 0) = some next ∧
      service.cache.calls[0]? = some call ∧ call.deadline.instant = 5000 ∧
      service.Overruns next 0 flight deadline 0 call ∧ hurriedService.RightBlame := by
  obtain ⟨asked, hedged, late, spent, service, next, flight, deadline, call, asks, settled, timers, passes, hedges,
      settled', timers', expires, gives, told, turn, present, working, past, there, cold, instant, later⟩ :
      ∃ asked hedged late spent service next flight deadline call,
        (lookingUp.take 7).foldlM step? hurriedService = some asked ∧ asked.turn? = none ∧
        (∀ timer ∈ asked.timers, asked.clock.now < timer → 10 ≤ timer) ∧ asked.step? (.pass 10) = some hedged ∧
        [.fetch 0, .leg 0 1].foldlM step? hedged = some late ∧ late.turn? = none ∧
        (∀ timer ∈ late.timers, late.clock.now < timer → 50 ≤ timer) ∧ late.step? (.pass 50) = some spent ∧
        spent.step? (.fetch 0) = some service ∧ service.hedger.resultOf 0 = some (.error (.timeout .request)) ∧
        service.step? (.flight 0) = some next ∧ service.cache.flights[0]? = some flight ∧
        flight.phase = .working deadline ∧ deadline.instant ≤ service.clock.now ∧
        service.cache.calls[0]? = some call ∧ call.phase = .cold 0 ∧ call.deadline.instant = 5000 ∧
        deadline.instant < call.deadline.instant :=
    ⟨_, _, _, _, _, _, _, _, _, rfl, rfl, by decide, rfl, rfl, rfl, by decide, rfl, rfl, rfl, rfl, rfl, rfl, by decide,
      rfl, rfl, rfl, by decide⟩
  have run : RunBy Punctual hurriedService service := by
    have asked : RunBy Punctual hurriedService asked :=
      RunBy.nil.extend (by simp [lookingUp, Punctual, Lawful]) asks
    have late : RunBy Punctual hurriedService late :=
      (asked.pass settled timers passes).extend (by simp [Punctual, Lawful]) hedges
    have lawful : Punctual spent (.fetch 0) := trivial
    exact (late.pass settled' timers' expires).snoc lawful gives
  have right : hurriedService.RightBlame := by
    refine rightBlame_of_fresh fresh_hurriedService fun provider member => ?_
    simp only [hurriedService, patientService, List.mem_cons, List.not_mem_nil, or_false] at member
    rcases member with rfl | rfl <;> exact isModest_slowProvider _
  have overruns := right.overruns service next 0 flight deadline 0 call run present working past turn there cold later
  exact ⟨service, next, flight, deadline, call, run, told, turn, there, instant, overruns, right⟩

end Service

end HedgedForecast
