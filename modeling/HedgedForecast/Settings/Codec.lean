import HedgedForecast.Data.Fields
import HedgedForecast.Settings.Basic

/-! # Settings as data

The names under which settings stand in files. A missing setting, at any depth, takes its default;
unknown names are ignored.
-/

namespace HedgedForecast

/-- A number of 32 bits. -/
def Data.asUInt32? (data : Data) : Option UInt32 :=
  (data.asNat? 32).map UInt32.ofNat

/-- A number of 64 bits. -/
def Data.asUInt64? (data : Data) : Option UInt64 :=
  (data.asNat? 64).map UInt64.ofNat

/-- A text, or null if there is none. -/
def Data.ofOptionalText : Option String → Data
  | some value => .text value
  | none => .null

namespace LookupSettings

/-- The settings as data. -/
def toData (settings : LookupSettings) : Data :=
  .record [("primary_max_duration_ms", .int settings.primaryMaxDuration.toNat),
    ("request_timeout_ms", .int settings.requestTimeout.toNat)]

/-- Reads the settings from data. -/
def ofData? (surplus : Data.Surplus) (data : Data) : Option LookupSettings := do
  let fields ← data.fields? ["primary_max_duration_ms", "request_timeout_ms"] surplus
  let default : LookupSettings := {}
  return {
    primaryMaxDuration := ← fields.withDefault? "primary_max_duration_ms"
      default.primaryMaxDuration Data.asUInt64?
    requestTimeout := ← fields.withDefault? "request_timeout_ms" default.requestTimeout
      Data.asUInt64? }

end LookupSettings

namespace CacheSettings

/-- The settings as data. -/
def toData (settings : CacheSettings) : Data :=
  .record [("duration_minutes", .int settings.durationMinutes.toNat),
    ("enable_fail_safe", .bool settings.enableFailSafe),
    ("fail_safe_max_duration_minutes", .int settings.failSafeMaxDurationMinutes.toNat),
    ("fail_safe_throttle_seconds", .int settings.failSafeThrottleSeconds.toNat),
    ("factory_soft_timeout_ms", .int settings.factorySoftTimeout.toNat),
    ("factory_hard_timeout_ms", .int settings.factoryHardTimeout.toNat),
    ("eager_refresh_threshold", .float settings.eagerRefreshThreshold),
    ("max_entries", .int settings.maxEntries.toNat)]

/-- The names of the settings, in order. -/
def fieldNames : List String :=
  ["duration_minutes", "enable_fail_safe", "fail_safe_max_duration_minutes",
    "fail_safe_throttle_seconds", "factory_soft_timeout_ms", "factory_hard_timeout_ms",
    "eager_refresh_threshold", "max_entries"]

/-- Reads the settings from data. -/
def ofData? (surplus : Data.Surplus) (data : Data) : Option CacheSettings := do
  let fields ← data.fields? fieldNames surplus
  let default : CacheSettings := {}
  return {
    durationMinutes := ← fields.withDefault? "duration_minutes" default.durationMinutes
      Data.asUInt32?
    enableFailSafe := ← fields.withDefault? "enable_fail_safe" default.enableFailSafe Data.asBool?
    failSafeMaxDurationMinutes := ← fields.withDefault? "fail_safe_max_duration_minutes"
      default.failSafeMaxDurationMinutes Data.asUInt32?
    failSafeThrottleSeconds := ← fields.withDefault? "fail_safe_throttle_seconds"
      default.failSafeThrottleSeconds Data.asUInt32?
    factorySoftTimeout := ← fields.withDefault? "factory_soft_timeout_ms"
      default.factorySoftTimeout Data.asUInt64?
    factoryHardTimeout := ← fields.withDefault? "factory_hard_timeout_ms"
      default.factoryHardTimeout Data.asUInt64?
    eagerRefreshThreshold := ← fields.withDefault? "eager_refresh_threshold"
      default.eagerRefreshThreshold Data.asFloat?
    maxEntries := ← fields.withDefault? "max_entries" default.maxEntries Data.asUInt64? }

end CacheSettings

namespace OpenMeteoSettings

/-- The settings as data. -/
def toData (settings : OpenMeteoSettings) : Data :=
  .record [("enabled", .bool settings.enabled), ("forecast_url", .text settings.forecastUrl),
    ("geocoding_url", .text settings.geocodingUrl)]

/-- Reads the settings from data. -/
def ofData? (surplus : Data.Surplus) (data : Data) : Option OpenMeteoSettings := do
  let fields ← data.fields? ["enabled", "forecast_url", "geocoding_url"] surplus
  let default : OpenMeteoSettings := {}
  return {
    enabled := ← fields.withDefault? "enabled" default.enabled Data.asBool?
    forecastUrl := ← fields.withDefault? "forecast_url" default.forecastUrl Data.asText?
    geocodingUrl := ← fields.withDefault? "geocoding_url" default.geocodingUrl Data.asText? }

end OpenMeteoSettings

namespace WeatherApiSettings

/-- The settings as data. -/
def toData (settings : WeatherApiSettings) : Data :=
  .record [("enabled", .bool settings.enabled), ("base_url", .text settings.baseUrl),
    ("api_key", .ofOptionalText settings.apiKey)]

/-- Reads the settings from data. -/
def ofData? (surplus : Data.Surplus) (data : Data) : Option WeatherApiSettings := do
  let fields ← data.fields? ["enabled", "base_url", "api_key"] surplus
  let default : WeatherApiSettings := {}
  return {
    enabled := ← fields.withDefault? "enabled" default.enabled Data.asBool?
    baseUrl := ← fields.withDefault? "base_url" default.baseUrl Data.asText?
    apiKey := ← fields.withDefault? "api_key" default.apiKey (Data.asOption? Data.asText?) }

end WeatherApiSettings

namespace ProviderSettings

/-- The settings as data. -/
def toData (settings : ProviderSettings) : Data :=
  .record [("order", .list (settings.order.map .text)),
    ("open_meteo", settings.openMeteo.toData), ("weather_api", settings.weatherApi.toData)]

/-- Reads the settings from data. -/
def ofData? (surplus : Data.Surplus) (data : Data) : Option ProviderSettings := do
  let fields ← data.fields? ["order", "open_meteo", "weather_api"] surplus
  let default : ProviderSettings := {}
  return {
    order := ← fields.withDefault? "order" default.order (Data.asList? Data.asText?)
    openMeteo := ← fields.withDefault? "open_meteo" default.openMeteo
      (OpenMeteoSettings.ofData? surplus)
    weatherApi := ← fields.withDefault? "weather_api" default.weatherApi
      (WeatherApiSettings.ofData? surplus) }

end ProviderSettings

namespace PublisherSettings

/-- The settings as data. -/
def toData (settings : PublisherSettings) : Data :=
  .record [("queue_capacity", .int settings.queueCapacity.toNat),
    ("webhook_url", .ofOptionalText settings.webhookUrl),
    ("publish_timeout_ms", .int settings.publishTimeout.toNat)]

/-- Reads the settings from data. -/
def ofData? (surplus : Data.Surplus) (data : Data) : Option PublisherSettings := do
  let fields ← data.fields? ["queue_capacity", "webhook_url", "publish_timeout_ms"] surplus
  let default : PublisherSettings := {}
  return {
    queueCapacity := ← fields.withDefault? "queue_capacity" default.queueCapacity Data.asUInt64?
    webhookUrl := ← fields.withDefault? "webhook_url" default.webhookUrl
      (Data.asOption? Data.asText?)
    publishTimeout := ← fields.withDefault? "publish_timeout_ms" default.publishTimeout
      Data.asUInt64? }

end PublisherSettings

namespace Settings

/-- The settings as data. -/
def toData (settings : Settings) : Data :=
  .record [("forecast", settings.lookup.toData), ("cache", settings.cache.toData),
    ("providers", settings.providers.toData), ("publisher", settings.publisher.toData)]

/-- Reads the settings from data. -/
def ofData? (surplus : Data.Surplus) (data : Data) : Option Settings := do
  let fields ← data.fields? ["forecast", "cache", "providers", "publisher"] surplus
  let default : Settings := {}
  return {
    lookup := ← fields.withDefault? "forecast" default.lookup (LookupSettings.ofData? surplus)
    cache := ← fields.withDefault? "cache" default.cache (CacheSettings.ofData? surplus)
    providers := ← fields.withDefault? "providers" default.providers
      (ProviderSettings.ofData? surplus)
    publisher := ← fields.withDefault? "publisher" default.publisher
      (PublisherSettings.ofData? surplus) }

end Settings

end HedgedForecast
