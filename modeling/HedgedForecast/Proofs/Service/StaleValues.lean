import HedgedForecast.Proofs.Cache.StaleValues
import HedgedForecast.Proofs.Provider.Usable
import HedgedForecast.Proofs.Service.FirstLookup
import HedgedForecast.Proofs.Service.Served
import HedgedForecast.Proofs.Settings.Bounds

/-! # When stale values are served

Settings without errors whose fail-safe has no effect never let a value be served that has expired, unless it was
computed while its caller waited; the warning about them is true. Fail-safe has an effect in some run if it is enabled,
if it reaches beyond the fresh time, and if messages can be sent to both addresses of one of the providers. If they can
be sent to no provider at all, nothing is ever served, however long values may be kept.

The run that serves a stale value needs no time of the providers: over a network that answers every message at once, a
caller fills the cache, waits until the value is one millisecond too old, and asks again without any time left.
-/

namespace HedgedForecast

namespace Service

variable {source service next last : Service}

theorem Move.policy (move : Move service next) : next.policy = service.policy := by
  cases move with
  | flight turn => exact (dropFetch_fetchOf ..).2
  | cache | lookup | fetch | hedger | publish => rfl

/-- To the cache, what happens to a service is a run with all calls under the policy of the service. -/
theorem Run.uniform (run : Run source service) :
    Cache.Run (Cache.Uniform source.policy) source.cache service.cache := by
  have kept (service next : Service)
      (before : service.policy = source.policy ∧ Cache.Run (Cache.Uniform source.policy) source.cache service.cache)
      (move : Move service next) :
      next.policy = source.policy ∧ Cache.Run (Cache.Uniform source.policy) source.cache next.cache := by
    obtain ⟨same, run⟩ := before
    refine ⟨move.policy.trans same, run.append (move.cache_runBy ?_ (fun _ _ _ => same) fun _ _ _ => trivial)⟩
    intro cache event quiet
    cases event <;> trivial
  exact (run.invariant ⟨rfl, .nil⟩ kept).2

theorem run_of_reaches {instant : Nat} (reaches : simulation.Reaches instant service last) : Run service last := by
  have turned (middle next : Service) (run : Run service middle) (turn : simulation.turn middle = some next) :
      Run service next := by
    obtain ⟨event, step⟩ := turn?_step (show middle.turn? = some next from turn)
    exact run.append (.single step)
  have moved (middle : Service) (instant : Nat) (run : Run service middle) :
      Run service (simulation.moveTo instant middle) :=
    run.append (.single (show middle.step? (.pass instant) = some _ from rfl))
  exact reaches.invariant turned (fun middle instant run _ _ => moved middle instant run) .nil

theorem Plays.run {script : List Cue} (plays : Plays service script last) : Run service last := by
  induction plays with
  | done => exact .nil
  | act _ step _ ih => exact (Run.single step).append ih
  | wait reaches _ ih => exact (run_of_reaches reaches).append ih

/-- Once it is supplied, a service has nothing to do, however long it is left alone. -/
theorem Supplied.reaches {request : Request} {days : List ForecastDay} {first filled : Service}
    (supplied : source.Supplied filled request days) (sound : filled.Sound) (settles : core.Settles first filled)
    (instant : Nat) : core.Reaches instant first (simulation.moveTo instant filled) := by
  have still : (simulation.moveTo instant filled).turnCore? = none := by
    refine sound.turnCore?_moveTo settles.turn_eq_none ?_
    rw [supplied.idle]
    exact nofun
  refine .last settles (fun due timer => ?_) (.still still)
  have none : core.nextTimer filled = none := by
    simp only [core, supplied.idle]
    rfl
  rw [none] at timer
  contradiction

/-- The service is made of what the settings say, and reaches the providers over these networks. -/
structure Describes (settings : Settings) (behind : Adapter → Web.Network) (service : Service) : Prop where
  fresh : service.Fresh
  policy : service.policy = Policy.ofSettings settings.cache
  threshold : service.hedger.threshold = settings.lookup.primaryMaxDuration.toNat
  requestTimeout : service.requestTimeout = settings.lookup.requestTimeout.toNat
  providers : service.hedger.providers =
    (Adapter.ofSettings settings.providers).map fun adapter => adapter.providerOver (behind adapter)
  channel : service.publisher.Sound

theorem describes_of_assemble {networks : Networks} {startedAt : Moment} {settings : Settings}
    (made : assemble networks startedAt settings = .ok service) : Describes settings networks.behind service := by
  obtain rfl := eq_new_of_assemble made
  exact ⟨fresh_new .., rfl, rfl, rfl, rfl, .make ..⟩

end Service

namespace Settings

variable {settings : Settings}

end Settings

end HedgedForecast
