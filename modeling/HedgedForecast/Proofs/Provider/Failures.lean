import HedgedForecast.Proofs.Hedge.Blame
import HedgedForecast.Provider.Adapter

/-! # How adapters fail

Whatever the network does, an adapter by itself fails only in the ways of providers: a city or a forecast is not there,
not readable or not in time. It never says that somebody gave up or that the request is out of time, for which callers
would be blamed.
-/

namespace HedgedForecast

theorem Failure.isProviders_ofNetwork (provider : String) (failure : NetworkFailure) :
    (Failure.ofNetwork provider failure).isProviders = true := by
  cases failure <;> rfl

theorem Failure.isProviders_ofGeo {failure : GeoFailure} (other : failure ≠ .cancelled) :
    (Failure.ofGeo failure).isProviders = true := by
  cases failure with
  | cancelled => contradiction
  | notFound | timeout | searchFailed => rfl

theorem GeoFailure.ofNetwork_ne_cancelled (failure : NetworkFailure) : ofNetwork failure ≠ .cancelled := by
  cases failure <;> nofun

/-- A search is never cancelled by itself. -/
theorem Geocoder.search_ne_cancelled (transport : Web.Transport) (base city : String) (country : Country) :
    Geocoder.search transport base city country ≠ some (.error .cancelled) := by
  intro cancelled
  unfold search at cancelled
  obtain ⟨reply, _, told⟩ := Option.map_eq_some_iff.mp cancelled
  cases reply with
  | error failure => exact GeoFailure.ofNetwork_ne_cancelled failure (Except.error.inj told)
  | ok answer =>
    simp only [interpret, choose] at told
    split at told
    · cases told
    · split at told
      · next failure _ => exact GeoFailure.ofNetwork_ne_cancelled failure (Except.error.inj told)
      · split at told <;> cases told

/-- By itself the result is no failure but one of providers. -/
def IsModest {α : Type} (result : Except Failure α) : Prop :=
  ∀ failure, result = .error failure → failure.isProviders = true

variable {α : Type} {result : Except Failure α} {failure : Failure}

@[simp] theorem isModest_ok {value : α} : IsModest (.ok value : Except Failure α) :=
  nofun

@[simp] theorem isModest_error : IsModest (.error failure : Except Failure α) ↔ failure.isProviders = true :=
  ⟨fun modest => modest failure rfl, fun own _ same => Except.error.inj same ▸ own⟩

theorem isModest_ofResult {result : Except Failure (List ForecastDay)} (modest : IsModest result) :
    (WorkEnd.ofResult result).IsModest := by
  intro failure failed
  cases result with
  | ok days => cases failed
  | error own => exact WorkEnd.failure.inj failed ▸ isModest_error.mp modest

theorem isModest_bind {β : Type} {next : α → Except Failure β} (modest : IsModest result)
    (modest' : ∀ value, IsModest (next value)) : IsModest (result.bind next) := by
  cases result with
  | error failure => exact isModest_error.mpr (isModest_error.mp modest)
  | ok value => exact modest' value

theorem isModest_normalise (provider : String) (wanted : Nat) (days : List ForecastDay) :
    IsModest (Forecast.normalise provider wanted days) := by
  unfold Forecast.normalise
  simp only
  split <;> simp [Failure.isProviders]

namespace OpenMeteo

theorem isModest_dayAt (columns : Columns) (place : Nat) (date : Date) : IsModest (dayAt columns place date) := by
  unfold dayAt
  split <;> simp [Failure.isProviders]

theorem isModest_daysFrom (columns : Columns) (place : Nat) (dates : List Date) :
    IsModest (daysFrom columns place dates) := by
  induction dates generalizing place with
  | nil => exact isModest_ok
  | cons date rest ih =>
    have first := isModest_dayAt columns place date
    have others := ih (place + 1)
    unfold daysFrom
    split
    · next same =>
      rw [same] at first
      exact isModest_error.mpr (isModest_error.mp first)
    · cases result : daysFrom columns (place + 1) rest with
      | ok days => exact isModest_ok
      | error failure =>
        rw [result] at others
        exact isModest_error.mpr (isModest_error.mp others)

theorem isModest_interpret (answer : Web.Answer) : IsModest (interpret answer) := by
  unfold interpret
  split
  · exact isModest_error.mpr rfl
  · split
    · exact isModest_error.mpr (Failure.isProviders_ofNetwork ..)
    · next columns _ => exact isModest_daysFrom columns 0 columns.dates

theorem isModest_ask {transport : Web.Transport} {base : String} {place : Coordinates} {days : Nat}
    {asked : Except Failure (List ForecastDay)} (told : ask transport base place days = some asked) :
    IsModest asked := by
  unfold ask at told
  obtain ⟨reply, _, rfl⟩ := Option.map_eq_some_iff.mp told
  cases reply with
  | error failure => exact isModest_error.mpr (Failure.isProviders_ofNetwork name failure)
  | ok answer => exact isModest_interpret answer

end OpenMeteo

namespace WeatherApi

theorem isProviders_refusal (request : Request) (answer : Web.Answer) :
    (refusal request answer).isProviders = true := by
  unfold refusal
  split
  · split <;> rfl
  · rfl

theorem isModest_interpret (request : Request) (answer : Web.Answer) : IsModest (interpret request answer) := by
  unfold interpret
  split
  · exact isModest_error.mpr (isProviders_refusal ..)
  · split
    · exact isModest_error.mpr rfl
    · split
      · exact isModest_error.mpr (Failure.isProviders_ofNetwork ..)
      · exact isModest_ok

theorem isModest_ask {transport : Web.Transport} {base key : String} {place : Coordinates} {request : Request}
    {asked : Except Failure (List ForecastDay)} (told : ask transport base key place request = some asked) :
    IsModest asked := by
  unfold ask at told
  obtain ⟨reply, _, rfl⟩ := Option.map_eq_some_iff.mp told
  cases reply with
  | error failure => exact isModest_error.mpr (Failure.isProviders_ofNetwork name failure)
  | ok answer => exact isModest_interpret request answer

end WeatherApi

namespace Adapter

theorem isModest_forecastAt {transport : Web.Transport} {adapter : Adapter} {place : Coordinates} {request : Request}
    {result : Except Failure (List ForecastDay)} (told : adapter.forecastAt transport place request = some result) :
    IsModest result := by
  cases adapter with
  | openMeteo url locate =>
    rw [forecastAt, OpenMeteo.forecastAt] at told
    obtain ⟨asked, answered, rfl⟩ := Option.map_eq_some_iff.mp told
    exact isModest_bind (OpenMeteo.isModest_ask answered) (isModest_normalise OpenMeteo.name request.days)
  | weatherApi url locate key =>
    rw [forecastAt, WeatherApi.forecastAt] at told
    obtain ⟨asked, answered, rfl⟩ := Option.map_eq_some_iff.mp told
    exact isModest_bind (WeatherApi.isModest_ask answered) (isModest_normalise WeatherApi.name request.days)

theorem isModest_forecast {transport : Web.Transport} {adapter : Adapter} {request : Request}
    {result : Except Failure (List ForecastDay)} (told : adapter.forecast transport request = some result) :
    IsModest result := by
  unfold forecast at told
  split at told
  · exact isModest_forecastAt told
  · next failure found =>
    cases told
    refine isModest_error.mpr (Failure.isProviders_ofGeo ?_)
    rintro rfl
    exact Geocoder.search_ne_cancelled _ _ _ _ found
  · cases told

/-- The provider behind an adapter has failures of providers only, over any network. -/
theorem isModest_providerOver (network : Web.Network) (adapter : Adapter) : (adapter.providerOver network).IsModest := by
  intro step member request ending ends
  obtain ⟨_, result, told, rfl⟩ := told_of_mem member ends
  exact isModest_ofResult (isModest_forecast told)

end Adapter

end HedgedForecast
