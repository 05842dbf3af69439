import HedgedForecast.Decimal.Layout
import HedgedForecast.Settings.Basic
import HedgedForecast.Settings.Findings
import HedgedForecast.Url.Parser

/-! # Checking settings

Each setting has its bounds; a setting that is allowed but defeats its purpose is warned about. The
checks run in a fixed order, which is the order of their findings.
-/

namespace HedgedForecast

/-- The longest cache duration in minutes, one week. -/
def maxDurationMinutes : UInt32 := 10080

/-- What is wrong with an address: it is unreadable, or has a wrong scheme, no host, or zero as its
port number. -/
def checkUrl (field address : String) : Findings :=
  match Url.parse address with
  | .error reason => .error field s!"Invalid URL: {reason.message}"
  | .ok url =>
    (if url.scheme != "http" && url.scheme != "https" then
      .error field s!"URL must use http or https scheme, got: {url.scheme}" else {}) ++
    (if url.host?.isNone then .error field "URL must have a host" else {}) ++
    (if url.portNumber? == some 0 then .error field "Port cannot be 0" else {})

/-- Findings about the times of a lookup. -/
def LookupSettings.check (settings : LookupSettings) : Findings :=
  let primary := settings.primaryMaxDuration
  let timeout := settings.requestTimeout
  (if 1 ≤ primary && primary ≤ 1000 then {}
    else .error "forecast.primary_max_duration_ms" s!"Must be between 1 and 1000, got {primary}") ++
  (if timeout == 0 then
      .error "forecast.request_timeout_ms" "Request timeout must be greater than 0"
    else if timeout ≤ primary then
      .warning "forecast.request_timeout_ms"
        "Request timeout is shorter than the primary max duration; hedging never starts"
    else {})

/-- Findings about how long values are fresh. -/
def CacheSettings.checkDuration (settings : CacheSettings) : Findings :=
  if maxDurationMinutes < settings.durationMinutes then
    .error "cache.duration_minutes" s!"Must be at most {maxDurationMinutes}"
  else if settings.durationMinutes == 0 then
    .warning "cache.duration_minutes" "Caching disabled (0 minutes)"
  else {}

/-- Findings about how long values may be served. -/
def CacheSettings.checkFailSafe (settings : CacheSettings) : Findings :=
  if maxDurationMinutes < settings.failSafeMaxDurationMinutes then
    .error "cache.fail_safe_max_duration_minutes" s!"Must be at most {maxDurationMinutes}"
  else if settings.enableFailSafe &&
      settings.failSafeMaxDurationMinutes ≤ settings.durationMinutes then
    .warning "cache.fail_safe_max_duration_minutes"
      "Fail-safe window does not extend past the ttl; stale values are never served"
  else {}

/-- Findings about the bound on a computation. -/
def CacheSettings.checkHardTimeout (settings : CacheSettings) : Findings :=
  if 300000 < settings.factoryHardTimeout then
    .error "cache.factory_hard_timeout_ms" "Must be at most 300000"
  else if settings.factoryHardTimeout == 0 then
    .warning "cache.factory_hard_timeout_ms"
      "No hard timeout; background refreshes may run indefinitely"
  else {}

/-- Findings about when values are refreshed in the background. -/
def CacheSettings.checkThreshold (settings : CacheSettings) : Findings :=
  let threshold := settings.eagerRefreshThreshold
  if 0.0 ≤ threshold && threshold ≤ 1.0 then {}
  else .error "cache.eager_refresh_threshold"
    s!"Must be between 0.0 and 1.0, got {Decimal.plain threshold}"

/-- Findings about the cache policy. -/
def CacheSettings.check (settings : CacheSettings) : Findings :=
  settings.checkDuration ++ settings.checkFailSafe ++
  (if 60 < settings.failSafeThrottleSeconds then
    .error "cache.fail_safe_throttle_seconds" "Must be at most 60" else {}) ++
  (if 60000 < settings.factorySoftTimeout then
    .error "cache.factory_soft_timeout_ms" "Must be at most 60000" else {}) ++
  settings.checkHardTimeout ++ settings.checkThreshold ++
  (if settings.maxEntries == 0 then .error "cache.max_entries" "Must be greater than 0" else {})

/-- Findings about the addresses of the provider without key, if it is enabled. -/
def OpenMeteoSettings.check (settings : OpenMeteoSettings) : Findings :=
  if settings.enabled then
    checkUrl "providers.open_meteo.forecast_url" settings.forecastUrl ++
      checkUrl "providers.open_meteo.geocoding_url" settings.geocodingUrl
  else {}

/-- Findings about the provider with key, if it is enabled. -/
def WeatherApiSettings.check (settings : WeatherApiSettings) : Findings :=
  if settings.enabled then
    checkUrl "providers.weather_api.base_url" settings.baseUrl ++
      (if settings.isConfigured then {} else
        .warning "providers.weather_api.api_key"
          "WeatherAPI key not configured - provider will be skipped")
  else {}

/-- The finding about a name in the order of providers. -/
def checkProviderName (name : String) : Findings :=
  if name == "open_meteo" || name == "weather_api" then {}
  else .error "providers.order" s!"Unknown provider: {name}"

/-- Findings about the providers. -/
def ProviderSettings.check (settings : ProviderSettings) : Findings :=
  settings.openMeteo.check ++ settings.weatherApi.check ++
  Findings.join (settings.order.map checkProviderName) ++
  (if settings.enabledNames.isEmpty then
    .error "providers" "At least one provider must be enabled" else {})

/-- Findings about the side channel. -/
def PublisherSettings.check (settings : PublisherSettings) : Findings :=
  (if settings.queueCapacity == 0 then
    .error "publisher.queue_capacity" "Queue capacity must be greater than 0" else {}) ++
  (match settings.webhookUrl with
  | some address => checkUrl "publisher.webhook_url" address
  | none => {})

/-- Findings about all settings. -/
def Settings.check (settings : Settings) : Findings :=
  settings.lookup.check ++ settings.cache.check ++ settings.providers.check ++
    settings.publisher.check

end HedgedForecast
