/-! # Settings

What may be set about lookups: the times of the hedge, the cache policy, the providers and their
addresses, and the side channel. Every setting has a default.
-/

namespace HedgedForecast

/-- The times of a lookup, in milliseconds. -/
structure LookupSettings where
  /-- How long the first provider may run alone. -/
  primaryMaxDuration : UInt64 := 150
  /-- How long a caller waits. -/
  requestTimeout : UInt64 := 10000
  deriving DecidableEq, Repr

/-- The cache policy as it is set. -/
structure CacheSettings where
  /-- How long a value is fresh. -/
  durationMinutes : UInt32 := 30
  /-- Whether values may be served after that. -/
  enableFailSafe : Bool := true
  /-- How long a value may be served at most, counted from when it was stored. -/
  failSafeMaxDurationMinutes : UInt32 := 1440
  /-- The least time between two attempts to refresh a stale value. -/
  failSafeThrottleSeconds : UInt32 := 30
  /-- How long the holder of a stale value waits for a fresh one, in milliseconds. -/
  factorySoftTimeout : UInt64 := 100
  /-- How long a computation may run, in milliseconds; zero for no bound. -/
  factoryHardTimeout : UInt64 := 10000
  /-- The part of a value's fresh time after which it is refreshed in the background. -/
  eagerRefreshThreshold : Float := 0.9
  /-- How many keys the cache keeps. -/
  maxEntries : UInt64 := 10000
  deriving DecidableEq, Repr

/-- The provider that needs no key. -/
structure OpenMeteoSettings where
  enabled : Bool := true
  forecastUrl : String := "https://api.open-meteo.com"
  geocodingUrl : String := "https://geocoding-api.open-meteo.com"
  deriving DecidableEq, Repr

/-- The provider that needs a key. -/
structure WeatherApiSettings where
  enabled : Bool := true
  baseUrl : String := "https://api.weatherapi.com"
  apiKey : Option String := none
  deriving DecidableEq, Repr

/-- The providers and the order in which they are tried. -/
structure ProviderSettings where
  order : List String := ["open_meteo", "weather_api"]
  openMeteo : OpenMeteoSettings := {}
  weatherApi : WeatherApiSettings := {}
  deriving DecidableEq, Repr

/-- The side channel that hears of every lookup. -/
structure PublisherSettings where
  queueCapacity : UInt64 := 256
  /-- Where events are sent; without an address they are only logged. -/
  webhookUrl : Option String := none
  /-- How long one delivery may take, in milliseconds. -/
  publishTimeout : UInt64 := 2000
  deriving DecidableEq, Repr

/-- All settings. -/
structure Settings where
  lookup : LookupSettings := {}
  cache : CacheSettings := {}
  providers : ProviderSettings := {}
  publisher : PublisherSettings := {}
  deriving DecidableEq, Repr

/-- Whether there is a key, and it is not the placeholder of a template. -/
def WeatherApiSettings.isConfigured (settings : WeatherApiSettings) : Bool :=
  match settings.apiKey with
  | some key => key != "" && !"YOUR_".toList.isPrefixOf key.toList
  | none => false

/-- Whether a provider of this name exists, is enabled and has what it needs. -/
def ProviderSettings.usable (settings : ProviderSettings) (name : String) : Bool :=
  if name == "open_meteo" then settings.openMeteo.enabled
  else if name == "weather_api" then
    settings.weatherApi.enabled && settings.weatherApi.isConfigured
  else false

/-- Adds a name that is not there yet. -/
def addName (names : List String) (name : String) : List String :=
  if names.contains name then names else names ++ [name]

/-- The usable providers in the order of their first mention. -/
def ProviderSettings.enabledNames (settings : ProviderSettings) : List String :=
  (settings.order.filter settings.usable).foldl addName []

end HedgedForecast
