import HedgedForecast.Provider.Basic
import HedgedForecast.Provider.Geocoder
import HedgedForecast.Provider.OpenMeteo
import HedgedForecast.Provider.WeatherApi
import HedgedForecast.Settings.Basic

/-! # Adapters

An adapter says how a provider is reached: which one it is and at which addresses. The settings
determine the adapters of a chain, one for each provider that they allow, in their order. Every
adapter locates cities at the same address.
-/

namespace HedgedForecast

/-- How a provider is reached. -/
inductive Adapter where
  | openMeteo (forecastUrl geocodingUrl : String)
  | weatherApi (baseUrl geocodingUrl key : String)
  deriving DecidableEq, Repr

namespace Adapter

/-- The name of the provider. -/
def name : Adapter → String
  | openMeteo _ _ => OpenMeteo.name
  | weatherApi _ _ _ => WeatherApi.name

/-- Where cities are located. -/
def geocodingUrl : Adapter → String
  | openMeteo _ url => url
  | weatherApi _ url _ => url

/-- Where forecasts are asked for. -/
def forecastUrl : Adapter → String
  | openMeteo url _ => url
  | weatherApi url _ _ => url

/-- All addresses that are contacted. -/
def endpoints (adapter : Adapter) : List String :=
  [adapter.geocodingUrl, adapter.forecastUrl]

/-- Asks for the forecast at the place of a request. -/
def forecastAt (transport : Web.Transport) (adapter : Adapter) (place : Coordinates)
    (request : Request) : Option (Except Failure (List ForecastDay)) :=
  match adapter with
  | openMeteo url _ => OpenMeteo.forecastAt transport url place request
  | weatherApi url _ key => WeatherApi.forecastAt transport url key place request

/-- Locates the city of a request and then asks for the forecast there. -/
def forecast (transport : Web.Transport) (adapter : Adapter) (request : Request) :
    Option (Except Failure (List ForecastDay)) :=
  match Geocoder.search transport adapter.geocodingUrl request.city request.country with
  | some (.ok place) => adapter.forecastAt transport place request
  | some (.error failure) => some (.error (.ofGeo failure))
  | none => none

/-- A call of the provider behind an adapter, as the network is then. -/
def stepUnder (adapter : Adapter) (conditions : Web.Conditions) : ProviderStep where
  delay := conditions.delay
  ending request := (adapter.forecast conditions.transport request).map WorkEnd.ofResult

/-- The provider behind an adapter, over a network that may change from call to call. -/
def providerOver (network : Web.Network) (adapter : Adapter) : Provider where
  name := adapter.name
  steps := network.conditions.map adapter.stepUnder

/-- What such a provider says was said by its adapter. -/
theorem told_of_mem {network : Web.Network} {adapter : Adapter} {step : ProviderStep} {request : Request}
    {ending : WorkEnd (List ForecastDay)} (member : step ∈ (adapter.providerOver network).steps)
    (ends : step.ending request = some ending) :
    ∃ transport result, adapter.forecast transport request = some result ∧ .ofResult result = ending := by
  obtain ⟨conditions, _, rfl⟩ := List.mem_map.mp member
  simp only [stepUnder, Option.map_eq_some_iff] at ends
  obtain ⟨result, told, same⟩ := ends
  exact ⟨conditions.transport, result, told, same⟩

/-- The provider behind an adapter, over a network without changes. -/
def provider (transport : Web.Transport) (adapter : Adapter) : Provider :=
  adapter.providerOver (.steady transport)

/-- The adapter for a name. -/
def ofName? (settings : ProviderSettings) (name : String) : Option Adapter :=
  let locate := settings.openMeteo.geocodingUrl
  if name == OpenMeteo.name then some (openMeteo settings.openMeteo.forecastUrl locate)
  else if name == WeatherApi.name then
    settings.weatherApi.apiKey.map (weatherApi settings.weatherApi.baseUrl locate)
  else none

/-- The adapters that the settings allow, in their order. -/
def ofSettings (settings : ProviderSettings) : List Adapter :=
  settings.enabledNames.filterMap (ofName? settings)

end Adapter

end HedgedForecast
