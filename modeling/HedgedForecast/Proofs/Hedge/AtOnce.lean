import HedgedForecast.Hedge.Hedger
import Mathlib.Logic.Relation

/-! # Providers that answer at once

A provider whose calls take no time ends its leg at the instant at which the leg begins. So a fetch all of whose
providers are like that is decided without any time passing: those that fail make way for the next one, and the
first that answers ends the fetch.
-/

namespace HedgedForecast

/-- Calls of the provider for the request end as soon as they have begun, and all in the same way. -/
structure Provider.EndsAtOnce (provider : Provider) (request : Request) (ending : WorkEnd (List ForecastDay)) :
    Prop where
  steps : ∃ step, provider.steps = [step] ∧ step.delay = 0 ∧ step.ending request = some ending
  obeys : provider.ignoresDeadline = false

theorem Clock.isCancelled_of_nil {clock : Clock} (none : clock.scopes.cancelled = []) (token : Token) :
    clock.isCancelled token = false := by
  rw [isCancelled, Scopes.isCancelled, none]
  exact List.any_eq_false.mpr fun _ _ => by simp

theorem Deadline.isExpired_of_lt {clock : Clock} {deadline : Deadline} (inTime : clock.now < deadline.instant) :
    deadline.isExpired clock = false :=
  decide_eq_false (Nat.not_le_of_lt inTime)

/-- Such a call has ended when it has begun, and the provider is as before. -/
theorem Provider.EndsAtOnce.call {provider : Provider} {request : Request} {ending : WorkEnd (List ForecastDay)}
    (endsAtOnce : provider.EndsAtOnce request ending) {clock : Clock} {deadline : Deadline}
    (uncancelled : clock.scopes.cancelled = []) (inTime : clock.now < deadline.instant) :
    (provider.call clock request deadline).1.ending? clock = some (ending, ending.outcome) ∧
      (provider.call clock request deadline).2 = provider := by
  obtain ⟨⟨step, steps, atOnce, ends⟩, obeys⟩ := endsAtOnce
  have alive : deadline.isCancelled clock = false := Clock.isCancelled_of_nil uncancelled _
  have unexpired := Deadline.isExpired_of_lt inTime
  simp only [Provider.call, steps]
  constructor
  · simp [ProviderCall.ending?, atOnce, ends, obeys, Deadline.verdict, alive, unexpired]
  · simp [remainingSteps, ← steps]

namespace Hedger

/-- The hedger with this fetch alone. -/
def only (hedger : Hedger) (request : Request) (fetch : Fetch) (calls : Array ProviderCall) : Hedger :=
  { hedger with calls, fetches := #[⟨request, fetch⟩] }

variable {clock : Clock} {request : Request} {fetch : Fetch} {place last : Nat} {days : List ForecastDay}

end Hedger

end HedgedForecast
