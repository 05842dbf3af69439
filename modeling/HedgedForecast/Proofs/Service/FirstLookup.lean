import HedgedForecast.Proofs.Hedge.AtOnce
import HedgedForecast.Proofs.Service.DeadCallers
import HedgedForecast.Proofs.Service.SideChannel

/-! # The first lookup

A new service whose providers answer at once needs no time for its first lookup: the flight begins, its fetch asks the
providers until one has the days, the days are stored, and the caller is told them. Then nothing is under way any more.
-/

namespace HedgedForecast

namespace Cache

variable {V : Type} {cache : Cache V} {slot : Slot V} {flight : Flight V} {call : Call V} {value : V}

/-- The cache with these alone. -/
def single (cache : Cache V) (slot : Slot V) (flight : Flight V) (call : Call V) : Cache V :=
  { cache with keys := [(slot.key, 0)], slots := #[slot], flights := #[flight], calls := #[call] }

end Cache

namespace Service

variable {service next last : Service}

section

variable (still : service.hedger.turn? service.clock = none) (one : service.cache.flights.size = 1)

include still one

variable (quiet : service.turnFlight? 0 = none) (single : service.cache.calls.size = 1)

include quiet single

end

/-- The service has the days for everybody who asks, since the beginning, and nothing is under way. -/
structure Supplied (source service : Service) (request : Request) (days : List ForecastDay) : Prop where
  policy : service.policy = source.policy
  now : service.clock.now = 0
  idle : service.coreTimers = []
  entry : service.cache.entryFor request.cacheKey = some ⟨days, 0, source.policy, 0, false⟩
  flights : ∀ flight ∈ service.cache.flights, flight.endedAt = some 0 ∧ flight.policy = source.policy
  uncancelled : service.clock.isCancelled ⟨[0]⟩ = false
  staleHits : service.cache.stats.staleHits = 0

section

variable (source : Service) (request : Request)

/-- The service with one key, one flight and one call, as after its first lookup. -/
def alone (clock : Clock) (slot : Slot (List ForecastDay)) (flight : Flight (List ForecastDay))
    (call : Call (List ForecastDay)) (hedger : Hedger) (fetchOf : List (Nat × Nat)) : Service :=
  { source with
    cache := Cache.single { source.cache with clock, tick := 1, stats := { misses := 1, factoryCalls := 1 } }
      slot flight call
    requests := #[request]
    publisher := source.publisher.notify ⟨request, source.moment⟩
    hedger, fetchOf }

end

variable {source : Service} {request : Request} {days : List ForecastDay}

section

variable {clock : Clock} {slot : Slot (List ForecastDay)} {flight : Flight (List ForecastDay)}
  {call : Call (List ForecastDay)} {hedger : Hedger} {fetchOf : List (Nat × Nat)} {deadline : Deadline}
  (still : hedger.turn? clock = none)

include still

end

end Service

end HedgedForecast
