import HedgedForecast.Proofs.Service.Runs
import HedgedForecast.Scenario.Serving

/-! # Services in use

What a service does by itself is a run, and so are lookups and scenarios, so that what holds of every service
that can be reached holds of those which settings describe and which are used in these ways.
-/

namespace HedgedForecast

namespace Service

variable {service next : Service}

theorem turnHedger?_step (turn : service.turnHedger? = some next) : ∃ event, service.step? event = some next := by
  obtain ⟨⟨hedger, clock⟩, turned, rfl⟩ := Option.map_eq_some_iff.mp turn
  obtain ⟨number, _, found⟩ := List.exists_of_findSome?_eq_some turned
  split at found
  · next run present =>
    rw [Option.orElse_eq_or] at found
    rcases Option.or_eq_some_iff.mp found with leg | ⟨_, own⟩
    · obtain ⟨later, legTurn, same⟩ := Option.map_eq_some_iff.mp leg
      obtain ⟨leg, member, one⟩ := List.exists_of_findSome?_eq_some legTurn
      obtain ⟨place, there⟩ := List.mem_iff_getElem?.mp member
      rw [Option.orElse_eq_or] at one
      cases same
      refine ⟨.leg number place, ?_⟩
      simp only [step?, turnLeg?, present, there, Option.bind_eq_bind, Option.bind_some, one]
      rfl
    · refine ⟨.fetch number, ?_⟩
      simp only [step?, turnFetch?, present, own, Option.bind_eq_bind, Option.bind_some]
      rfl
  · contradiction

/-- What a service does by itself is an event. -/
theorem turn?_step (turn : service.turn? = some next) : ∃ event, service.step? event = some next := by
  unfold turn? at turn
  simp only [Option.orElse_eq_orElse, Option.orElse_eq_or, Option.or_eq_some_iff] at turn
  rcases turn with hedger | ⟨_, flights | ⟨_, calls | ⟨_, publisher⟩⟩⟩
  · exact turnHedger?_step hedger
  · obtain ⟨number, _, found⟩ := List.exists_of_findSome?_eq_some flights
    exact ⟨.flight number, found⟩
  · obtain ⟨cache, turned, rfl⟩ := Option.map_eq_some_iff.mp calls
    obtain ⟨number, _, found⟩ := List.exists_of_findSome?_eq_some turned
    exact ⟨.call number, Option.map_eq_some_iff.mpr ⟨cache, found, rfl⟩⟩
  · exact ⟨.publish, publisher⟩

namespace Reachable

theorem step {event : Event} (reachable : service.Reachable) (step : service.step? event = some next) :
    next.Reachable :=
  reachable.extend (.single step)

theorem turn (service next : Service) (reachable : service.Reachable) (turn : simulation.turn service = some next) :
    next.Reachable := by
  obtain ⟨event, step⟩ := turn?_step turn
  exact reachable.step step

theorem moveTo (service : Service) (instant : Nat) (reachable : service.Reachable) :
    (simulation.moveTo instant service).Reachable := by
  have step : service.step? (.pass instant) = some _ := rfl
  exact reachable.step step

/-- A caller's deadline has a scope of its own. -/
theorem deadline (reachable : service.Reachable) (timeout : Option Nat) : (service.deadline timeout).2.Reachable := by
  have step : service.step? (.scope none) = some _ := rfl
  exact reachable.step step

theorem begin (reachable : service.Reachable) (request : Request) (deadline : Deadline) :
    (service.begin request deadline).2.Reachable := by
  have step : service.step? (.begin request deadline) = some _ := rfl
  exact reachable.step step

/-- A lookup that is waited for is a run. -/
theorem lookup (reachable : service.Reachable) (request : Request) : (service.lookup request).2.Reachable := by
  have given := reachable.deadline none
  unfold Service.lookup
  generalize service.deadline none = made at given
  have began := given.begin request made.1
  simp only
  generalize made.2.begin request made.1 = begun at began
  have waited := Simulation.runWhile_invariant turn moveTo ample (·.cache.isWaiting begun.1) ample began
  split
  · exact waited
  · exact waited

end Reachable

theorem nodup_addName {names : List String} (nodup : names.Nodup) (name : String) : (addName names name).Nodup := by
  unfold addName
  split
  · exact nodup
  · next new =>
    rw [List.contains_iff_mem] at new
    rw [← List.concat_eq_append]
    exact nodup.concat new

theorem nodup_enabledNames (settings : ProviderSettings) : settings.enabledNames.Nodup := by
  have added (names seen : List String) (nodup : seen.Nodup) : (names.foldl addName seen).Nodup := by
    induction names generalizing seen with
    | nil => exact nodup
    | cons name rest ih => exact ih _ (nodup_addName nodup name)
  exact added _ [] List.nodup_nil

/-- An adapter is found under its own name. -/
theorem name_of_ofName? {settings : ProviderSettings} {name : String} {adapter : Adapter}
    (found : Adapter.ofName? settings name = some adapter) : adapter.name = name := by
  unfold Adapter.ofName? at found
  simp only at found
  split at found
  · next same =>
    cases found
    exact (beq_iff_eq.mp same).symm
  · split at found
    · next same =>
      obtain ⟨key, _, rfl⟩ := Option.map_eq_some_iff.mp found
      exact (beq_iff_eq.mp same).symm
    · contradiction

theorem nodup_adapters (settings : ProviderSettings) : ((Adapter.ofSettings settings).map Adapter.name).Nodup := by
  rw [Adapter.ofSettings, List.map_filterMap]
  apply (nodup_enabledNames settings).filterMap
  intro first second name own own'
  obtain ⟨adapter, found, rfl⟩ := Option.map_eq_some_iff.mp own
  obtain ⟨adapter', found', same⟩ := Option.map_eq_some_iff.mp own'
  rw [← name_of_ofName? found, ← name_of_ofName? found', same]

variable {networks : Networks} {startedAt : Moment} {settings : Settings}

/-- The adapters that settings allow make a chain, so that nothing but their absence stands against a service. -/
theorem assemble_eq_new (networks : Networks) (startedAt : Moment) (some : Adapter.ofSettings settings.providers ≠ []) :
    assemble networks startedAt settings = .ok (new networks startedAt settings) := by
  obtain ⟨chain, made, _⟩ := ProviderChain.exists_make (nodup_adapters settings.providers)
  unfold assemble
  split
  · contradiction
  · rw [made]

theorem assemble_eq_noProviders (networks : Networks) (startedAt : Moment)
    (none : Adapter.ofSettings settings.providers = []) :
    assemble networks startedAt settings = .error .noProviders := by
  rw [assemble, none]

/-- A service that is made from settings is the one that they describe. -/
theorem eq_new_of_assemble (made : assemble networks startedAt settings = .ok service) :
    service = new networks startedAt settings := by
  by_cases none : Adapter.ofSettings settings.providers = []
  · rw [assemble_eq_noProviders networks startedAt none] at made
    contradiction
  · rw [assemble_eq_new networks startedAt none] at made
    exact (Except.ok.inj made).symm

/-- What settings describe is a service that has done nothing yet, over a chain of different providers. -/
theorem fresh_new (networks : Networks) (startedAt : Moment) (settings : Settings) :
    (new networks startedAt settings).Fresh := by
  obtain ⟨chain, _, names⟩ := ProviderChain.exists_make (nodup_adapters settings.providers)
  refine ⟨⟨_, rfl⟩, rfl, rfl, rfl, rfl, chain, ?_⟩
  simp only [names, new, List.map_map]
  rfl

end Service

namespace Serving

variable {session : Session Service}

theorem settle_reachable (reachable : session.state.Reachable) : (session.settle host).state.Reachable :=
  Simulation.settle_invariant Service.Reachable.turn _ reachable

theorem sleep_reachable (reachable : session.state.Reachable) (time : Nat) :
    (session.sleep host time).state.Reachable :=
  Simulation.runUntil_invariant Service.Reachable.turn Service.Reachable.moveTo _ _ _ reachable

theorem waitFor_reachable (reachable : session.state.Reachable) (call : Nat) :
    (session.waitFor host call).state.Reachable :=
  Simulation.runWhile_invariant Service.Reachable.turn Service.Reachable.moveTo _ _ _ reachable

theorem deadline_reachable (reachable : session.state.Reachable) (timeout : Nat) (cancelled : Bool) :
    (session.deadline host timeout cancelled).2.state.Reachable := by
  have made := reachable.deadline (some timeout)
  cases cancelled with
  | false => exact made
  | true =>
    have given : (session.state.deadline (some timeout)).2.step?
        (.cancel (session.state.deadline (some timeout)).1.token) = some _ := rfl
    exact made.step given

theorem begin_reachable (reachable : session.state.Reachable) {ask : Ask} {call : Nat} {next : Session Service}
    (began : begin session ask = .ok (call, next)) : next.state.Reachable := by
  unfold begin at began
  split at began
  · contradiction
  · next request _ =>
    cases began
    exact (deadline_reachable reachable _ _).begin request _

theorem join_reachable (reachable : session.state.Reachable) (id : String) :
    (session.join host id).1.state.Reachable := by
  unfold Session.join
  split
  · next call _ => exact waitFor_reachable reachable call
  · exact reachable

theorem cancel_reachable (reachable : session.state.Reachable) (id : String) :
    (session.cancel host id).state.Reachable := by
  unfold Session.cancel
  simp only
  split
  · split
    · next call _ =>
      have step : session.state.step? (.cancel call.deadline.token) = some _ := rfl
      exact reachable.step step
    · exact reachable
  · exact reachable

theorem drop_reachable (reachable : session.state.Reachable) (id : String) :
    (session.drop host id).state.Reachable := by
  unfold Session.drop
  split
  · next call _ =>
    have step : session.state.step? (.drop call) = some _ := rfl
    exact reachable.step step
  · exact reachable

theorem dropAll_reachable (reachable : session.state.Reachable) : (session.dropAll host).state.Reachable := by
  unfold Session.dropAll
  generalize session.started = names
  induction names generalizing session with
  | nil => exact reachable
  | cons first rest ih => exact ih (drop_reachable reachable first.1)

theorem act_reachable (reachable : session.state.Reachable) (step : Step) : (act session step).1.state.Reachable := by
  cases step with
  | get ask =>
    simp only [act]
    cases began : begin session ask with
    | error failure => exact reachable
    | ok begun => exact waitFor_reachable (begin_reachable reachable began) begun.1
  | start id ask =>
    simp only [act]
    cases began : begin session ask with
    | error failure => exact reachable
    | ok begun =>
      have next : begun.2.state.Reachable := begin_reachable reachable began
      exact next
  | join id => exact join_reachable reachable id
  | cancel id => exact cancel_reachable reachable id
  | drop id => exact drop_reachable reachable id
  | sleep time => exact sleep_reachable reachable time
  | purge =>
    have step : session.state.step? .purge = some _ := rfl
    exact reachable.step step
  | providers => exact reachable
  | shutdown =>
    exact Simulation.runWhile_invariant Service.Reachable.turn Service.Reachable.moveTo _ _ _
      (settle_reachable (dropAll_reachable reachable))

theorem steps_reachable (script : List Step) (reachable : session.state.Reachable) :
    (steps session script).1.state.Reachable := by
  induction script generalizing session with
  | nil => exact reachable
  | cons first rest ih =>
    have next := settle_reachable (act_reachable reachable first)
    cases first with
    | shutdown => exact next
    | _ => exact ih next

/-- The service of every scenario is reached by a run. -/
theorem run_reachable {service : Service} (fresh : service.Fresh) (script : List Step) :
    (run service script).2.Reachable :=
  steps_reachable script ⟨service, fresh, .nil⟩

end Serving

end HedgedForecast
