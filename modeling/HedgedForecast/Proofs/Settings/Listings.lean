import HedgedForecast.Proofs.Arrays
import HedgedForecast.Proofs.Disk
import HedgedForecast.Proofs.Toml.Files
import HedgedForecast.Settings.Store

/-! # Files that list some of the settings

A settings file may list any settings and leave out all others, alone or with the tables that they stand in. What it
lists is loaded, every other setting takes its default, and names that no setting has make no difference.
-/

namespace HedgedForecast

/-- A single setting. -/
inductive Setting where
  | primaryMaxDuration
  | requestTimeout
  | durationMinutes
  | enableFailSafe
  | failSafeMaxDurationMinutes
  | failSafeThrottleSeconds
  | factorySoftTimeout
  | factoryHardTimeout
  | eagerRefreshThreshold
  | maxEntries
  | providerOrder
  | openMeteoEnabled
  | forecastUrl
  | geocodingUrl
  | weatherApiEnabled
  | baseUrl
  | apiKey
  | queueCapacity
  | webhookUrl
  | publishTimeout
  deriving DecidableEq

namespace Setting

/-- The names of the tables that a setting stands in, outermost first, and its own name. -/
def path : Setting → List String
  | primaryMaxDuration => ["forecast", "primary_max_duration_ms"]
  | requestTimeout => ["forecast", "request_timeout_ms"]
  | durationMinutes => ["cache", "duration_minutes"]
  | enableFailSafe => ["cache", "enable_fail_safe"]
  | failSafeMaxDurationMinutes => ["cache", "fail_safe_max_duration_minutes"]
  | failSafeThrottleSeconds => ["cache", "fail_safe_throttle_seconds"]
  | factorySoftTimeout => ["cache", "factory_soft_timeout_ms"]
  | factoryHardTimeout => ["cache", "factory_hard_timeout_ms"]
  | eagerRefreshThreshold => ["cache", "eager_refresh_threshold"]
  | maxEntries => ["cache", "max_entries"]
  | providerOrder => ["providers", "order"]
  | openMeteoEnabled => ["providers", "open_meteo", "enabled"]
  | forecastUrl => ["providers", "open_meteo", "forecast_url"]
  | geocodingUrl => ["providers", "open_meteo", "geocoding_url"]
  | weatherApiEnabled => ["providers", "weather_api", "enabled"]
  | baseUrl => ["providers", "weather_api", "base_url"]
  | apiKey => ["providers", "weather_api", "api_key"]
  | queueCapacity => ["publisher", "queue_capacity"]
  | webhookUrl => ["publisher", "webhook_url"]
  | publishTimeout => ["publisher", "publish_timeout_ms"]

/-- The tables that settings stand in. -/
def tables : List (List String) :=
  [[], ["forecast"], ["cache"], ["providers"], ["providers", "open_meteo"], ["providers", "weather_api"], ["publisher"]]

end Setting

namespace Data

/-- What stands at the end of a path of names. -/
def at? : List String → Data → Option Data
  | [], data => some data
  | name :: path, record fields => (fields.lookup name).bind (at? path)
  | _ :: _, _ => none

/-- A value as it may be written: a whole number may stand for a double. -/
inductive Spells : Data → Data → Prop
  | same (value : Data) : Spells value value
  | whole (number : Int) : Spells (.int number) (.float (Float.ofInt number))

/-- A value that is listed stands there, unless it is null, which cannot be written. -/
structure States (found : Option Data) (listed : Bool) (value : Data) : Prop where
  present : listed = true → value ≠ .null → ∃ spelled, found = some spelled ∧ Spells spelled value
  absent : listed = false ∨ value = .null → found = none

end Data

namespace Settings

/-- The value of a single setting. -/
def value (settings : Settings) : Setting → Data
  | .primaryMaxDuration => .int settings.lookup.primaryMaxDuration.toNat
  | .requestTimeout => .int settings.lookup.requestTimeout.toNat
  | .durationMinutes => .int settings.cache.durationMinutes.toNat
  | .enableFailSafe => .bool settings.cache.enableFailSafe
  | .failSafeMaxDurationMinutes => .int settings.cache.failSafeMaxDurationMinutes.toNat
  | .failSafeThrottleSeconds => .int settings.cache.failSafeThrottleSeconds.toNat
  | .factorySoftTimeout => .int settings.cache.factorySoftTimeout.toNat
  | .factoryHardTimeout => .int settings.cache.factoryHardTimeout.toNat
  | .eagerRefreshThreshold => .float settings.cache.eagerRefreshThreshold
  | .maxEntries => .int settings.cache.maxEntries.toNat
  | .providerOrder => .list (settings.providers.order.map .text)
  | .openMeteoEnabled => .bool settings.providers.openMeteo.enabled
  | .forecastUrl => .text settings.providers.openMeteo.forecastUrl
  | .geocodingUrl => .text settings.providers.openMeteo.geocodingUrl
  | .weatherApiEnabled => .bool settings.providers.weatherApi.enabled
  | .baseUrl => .text settings.providers.weatherApi.baseUrl
  | .apiKey => .ofOptionalText settings.providers.weatherApi.apiKey
  | .queueCapacity => .int settings.publisher.queueCapacity.toNat
  | .webhookUrl => .ofOptionalText settings.publisher.webhookUrl
  | .publishTimeout => .int settings.publisher.publishTimeout.toNat

/-- The data lists exactly the given ones of some settings, beside any names that no setting has. -/
structure ListedIn (settings : Settings) (listed : Setting → Bool) (data : Data) : Prop where
  /-- The tables of settings that are there are tables, and no name stands in one of them twice. -/
  tables : ∀ path ∈ Setting.tables, ∀ table, data.at? path = some table →
    ∃ fields, table = .record fields ∧ (fields.map Prod.fst).Nodup
  settings : ∀ setting, Data.States (data.at? setting.path) (listed setting) (settings.value setting)

end Settings

namespace Data

variable {α : Type}

/-- What a field gives that may be missing. -/
def orDefault? (default : α) (decode : Data → Option α) : Option Data → Option α
  | some data => decode data
  | none => some default

theorem at?_append (first rest : List String) (data : Data) :
    data.at? (first ++ rest) = (data.at? first).bind (at? rest) := by
  induction first generalizing data with
  | nil => rfl
  | cons name path ih =>
    cases data with
    | record fields =>
      simp only [List.cons_append, at?]
      cases fields.lookup name with
      | none => rfl
      | some inner => exact ih inner
    | _ => rfl

/-- A field with a default takes the listed value, or the default if nothing is listed. -/
theorem States.exists_orDefault? (encode : α → Data) {decode : Data → Option α} {value : α} (default : α)
    {found : Option Data} {listed : Bool} (states : States found listed (encode value))
    (reads : ∀ spelled, Spells spelled (encode value) → decode spelled = some value)
    (nothing : encode value = .null → encode default = .null) :
    ∃ result, orDefault? default decode found = some result ∧
      encode result = if listed then encode value else encode default := by
  by_cases missing : listed = false ∨ encode value = .null
  · refine ⟨default, by rw [states.absent missing]; rfl, ?_⟩
    split
    · next listed =>
      have null : encode value = .null := by simpa [listed] using missing
      rw [null, nothing null]
    · rfl
  · simp only [not_or, Bool.not_eq_false] at missing
    obtain ⟨spelled, there, spells⟩ := states.present missing.1 missing.2
    refine ⟨value, by rw [there]; exact reads spelled spells, by rw [if_pos missing.1]⟩

namespace States

variable {found : Option Data} {listed : Bool}

theorem asNat?_of_lt {bits number : Nat} (bound : number < 2 ^ bits) : asNat? bits (.int number) = some number := by
  have inside : (0 : Int) ≤ number ∧ (number : Int) < Int.pow 2 bits := by
    refine ⟨Int.natCast_nonneg _, ?_⟩
    change (number : Int) < 2 ^ bits
    exact_mod_cast bound
  simp only [asNat?, inside, decide_true, Bool.and_self, if_true, Int.toNat_natCast]

theorem number32 {value : UInt32} (default : UInt32) (states : States found listed (.int value.toNat)) :
    ∃ result, orDefault? default asUInt32? found = some result ∧
      Data.int result.toNat = if listed then .int value.toNat else .int default.toNat := by
  refine states.exists_orDefault? (fun number : UInt32 => .int number.toNat) default ?_ nofun
  intro _ spells
  cases spells
  rw [asUInt32?, asNat?_of_lt value.toNat_lt, Option.map_some, UInt32.ofNat_toNat]

theorem number64 {value : UInt64} (default : UInt64) (states : States found listed (.int value.toNat)) :
    ∃ result, orDefault? default asUInt64? found = some result ∧
      Data.int result.toNat = if listed then .int value.toNat else .int default.toNat := by
  refine states.exists_orDefault? (fun number : UInt64 => .int number.toNat) default ?_ nofun
  intro _ spells
  cases spells
  rw [asUInt64?, asNat?_of_lt value.toNat_lt, Option.map_some, UInt64.ofNat_toNat]

theorem bool {value : Bool} (default : Bool) (states : States found listed (.bool value)) :
    ∃ result, orDefault? default asBool? found = some result ∧
      Data.bool result = if listed then .bool value else .bool default := by
  refine states.exists_orDefault? Data.bool default ?_ nofun
  intro _ spells
  cases spells
  rfl

theorem double {value : Float} (default : Float) (states : States found listed (.float value)) :
    ∃ result, orDefault? default asFloat? found = some result ∧
      Data.float result = if listed then .float value else .float default := by
  refine states.exists_orDefault? Data.float default ?_ nofun
  intro _ spells
  cases spells <;> rfl

theorem text {value : String} (default : String) (states : States found listed (.text value)) :
    ∃ result, orDefault? default asText? found = some result ∧
      Data.text result = if listed then .text value else .text default := by
  refine states.exists_orDefault? Data.text default ?_ nofun
  intro _ spells
  cases spells
  rfl

theorem optionalText {value : Option String} (states : States found listed (.ofOptionalText value)) :
    ∃ result, orDefault? none (asOption? asText?) found = some result ∧
      Data.ofOptionalText result = if listed then .ofOptionalText value else .ofOptionalText none := by
  refine states.exists_orDefault? Data.ofOptionalText none ?_ fun _ => rfl
  intro _ spells
  cases value <;> cases spells <;> rfl

theorem texts {values : List String} (default : List String) (states : States found listed (.list (values.map .text))) :
    ∃ result, orDefault? default (asList? asText?) found = some result ∧
      Data.list (result.map .text) = if listed then .list (values.map .text) else .list (default.map .text) := by
  refine states.exists_orDefault? (fun texts : List String => .list (texts.map .text)) default ?_ nofun
  intro _ spells
  cases spells
  simp only [asList?, List.mapM_map, Function.comp_def, asText?]
  exact List.mapM_pure.trans (by rw [List.map_id']; rfl)

end States

/-- What is there is a table in which no name stands twice. -/
def IsTable (found : Option Data) : Prop :=
  ∀ table, found = some table → ∃ fields, table = .record fields ∧ (fields.map Prod.fst).Nodup

/-- A missing table is read like an empty one, and any other by the names of its fields. -/
theorem IsTable.exists_fields {found : Option Data} (table : IsTable found) {names : List String} {default : α}
    (decode : Data → Option α) {build : Fields → Option α}
    (opens : ∀ data, decode data = (data.fields? names .ignored).bind build)
    (empty : build ⟨[], false⟩ = some default) :
    ∃ known : Fields, orDefault? default decode found = build known ∧
      ∀ name ∈ names, known.find? name = found.bind (at? [name]) := by
  cases there : found with
  | none => exact ⟨⟨[], false⟩, empty.symm, fun _ _ => rfl⟩
  | some data =>
    obtain ⟨fields, rfl, nodup⟩ := table data there
    have distinct : ((fields.filter fun field => names.contains field.1).map Prod.fst).Nodup :=
      nodup.sublist (List.filter_sublist.map _)
    refine ⟨⟨_, false⟩, (opens _).trans (congrArg (Option.bind · build) (if_pos distinct)), fun name member => ?_⟩
    rw [Fields.find?, lookup_filter (fun _ => by simpa using member), Option.bind_some, at?]
    exact (Option.bind_fun_some _).symm

end Data

theorem Fields.withDefault?_eq {α : Type} (fields : Fields) (name : String) (default : α) (decode : Data → Option α) :
    fields.withDefault? name default decode = Data.orDefault? default decode (fields.find? name) :=
  rfl

section

open Data

variable {found : Option Data} (table : IsTable found)

include table

theorem LookupSettings.orDefault?_ofData? : orDefault? {} (ofData? .ignored) found = (do
    let primaryMaxDuration ← orDefault? 150 asUInt64? (found.bind (at? ["primary_max_duration_ms"]))
    let requestTimeout ← orDefault? 10000 asUInt64? (found.bind (at? ["request_timeout_ms"]))
    return ⟨primaryMaxDuration, requestTimeout⟩) := by
  obtain ⟨known, opened, named⟩ := table.exists_fields (ofData? .ignored) (fun _ => rfl) rfl
  simp only [List.forall_mem_cons] at named
  rw [opened]
  simp only [Fields.withDefault?_eq, named]

theorem CacheSettings.orDefault?_ofData? : orDefault? {} (ofData? .ignored) found = (do
    let durationMinutes ← orDefault? 30 asUInt32? (found.bind (at? ["duration_minutes"]))
    let enableFailSafe ← orDefault? true asBool? (found.bind (at? ["enable_fail_safe"]))
    let failSafeMaxDurationMinutes ← orDefault? 1440 asUInt32? (found.bind (at? ["fail_safe_max_duration_minutes"]))
    let failSafeThrottleSeconds ← orDefault? 30 asUInt32? (found.bind (at? ["fail_safe_throttle_seconds"]))
    let factorySoftTimeout ← orDefault? 100 asUInt64? (found.bind (at? ["factory_soft_timeout_ms"]))
    let factoryHardTimeout ← orDefault? 10000 asUInt64? (found.bind (at? ["factory_hard_timeout_ms"]))
    let eagerRefreshThreshold ← orDefault? 0.9 asFloat? (found.bind (at? ["eager_refresh_threshold"]))
    let maxEntries ← orDefault? 10000 asUInt64? (found.bind (at? ["max_entries"]))
    return ⟨durationMinutes, enableFailSafe, failSafeMaxDurationMinutes, failSafeThrottleSeconds, factorySoftTimeout,
      factoryHardTimeout, eagerRefreshThreshold, maxEntries⟩) := by
  obtain ⟨known, opened, named⟩ := table.exists_fields (ofData? .ignored) (fun _ => rfl) rfl
  simp only [fieldNames, List.forall_mem_cons] at named
  rw [opened]
  simp only [Fields.withDefault?_eq, named]

theorem OpenMeteoSettings.orDefault?_ofData? : orDefault? {} (ofData? .ignored) found = (do
    let enabled ← orDefault? true asBool? (found.bind (at? ["enabled"]))
    let forecastUrl ← orDefault? "https://api.open-meteo.com" asText? (found.bind (at? ["forecast_url"]))
    let geocodingUrl ← orDefault? "https://geocoding-api.open-meteo.com" asText? (found.bind (at? ["geocoding_url"]))
    return ⟨enabled, forecastUrl, geocodingUrl⟩) := by
  obtain ⟨known, opened, named⟩ := table.exists_fields (ofData? .ignored) (fun _ => rfl) rfl
  simp only [List.forall_mem_cons] at named
  rw [opened]
  simp only [Fields.withDefault?_eq, named]

theorem WeatherApiSettings.orDefault?_ofData? : orDefault? {} (ofData? .ignored) found = (do
    let enabled ← orDefault? true asBool? (found.bind (at? ["enabled"]))
    let baseUrl ← orDefault? "https://api.weatherapi.com" asText? (found.bind (at? ["base_url"]))
    let apiKey ← orDefault? none (asOption? asText?) (found.bind (at? ["api_key"]))
    return ⟨enabled, baseUrl, apiKey⟩) := by
  obtain ⟨known, opened, named⟩ := table.exists_fields (ofData? .ignored) (fun _ => rfl) rfl
  simp only [List.forall_mem_cons] at named
  rw [opened]
  simp only [Fields.withDefault?_eq, named]

theorem ProviderSettings.orDefault?_ofData? : orDefault? {} (ofData? .ignored) found = (do
    let order ← orDefault? ["open_meteo", "weather_api"] (asList? asText?) (found.bind (at? ["order"]))
    let openMeteo ← orDefault? {} (OpenMeteoSettings.ofData? .ignored) (found.bind (at? ["open_meteo"]))
    let weatherApi ← orDefault? {} (WeatherApiSettings.ofData? .ignored) (found.bind (at? ["weather_api"]))
    return ⟨order, openMeteo, weatherApi⟩) := by
  obtain ⟨known, opened, named⟩ := table.exists_fields (ofData? .ignored) (fun _ => rfl) rfl
  simp only [List.forall_mem_cons] at named
  rw [opened]
  simp only [Fields.withDefault?_eq, named]

theorem PublisherSettings.orDefault?_ofData? : orDefault? {} (ofData? .ignored) found = (do
    let queueCapacity ← orDefault? 256 asUInt64? (found.bind (at? ["queue_capacity"]))
    let webhookUrl ← orDefault? none (asOption? asText?) (found.bind (at? ["webhook_url"]))
    let publishTimeout ← orDefault? 2000 asUInt64? (found.bind (at? ["publish_timeout_ms"]))
    return ⟨queueCapacity, webhookUrl, publishTimeout⟩) := by
  obtain ⟨known, opened, named⟩ := table.exists_fields (ofData? .ignored) (fun _ => rfl) rfl
  simp only [List.forall_mem_cons] at named
  rw [opened]
  simp only [Fields.withDefault?_eq, named]

theorem Settings.orDefault?_ofData? : orDefault? {} (ofData? .ignored) found = (do
    let lookup ← orDefault? {} (LookupSettings.ofData? .ignored) (found.bind (at? ["forecast"]))
    let cache ← orDefault? {} (CacheSettings.ofData? .ignored) (found.bind (at? ["cache"]))
    let providers ← orDefault? {} (ProviderSettings.ofData? .ignored) (found.bind (at? ["providers"]))
    let publisher ← orDefault? {} (PublisherSettings.ofData? .ignored) (found.bind (at? ["publisher"]))
    return ⟨lookup, cache, providers, publisher⟩) := by
  obtain ⟨known, opened, named⟩ := table.exists_fields (ofData? .ignored) (fun _ => rfl) rfl
  simp only [List.forall_mem_cons] at named
  rw [opened]
  simp only [Fields.withDefault?_eq, named]

end

namespace Settings

variable {settings : Settings} {listed : Setting → Bool} {data : Data}

/-- The loaded settings have what is listed of a setting, or its default. -/
def Takes (settings : Settings) (listed : Setting → Bool) (loaded : Settings) (setting : Setting) : Prop :=
  loaded.value setting = if listed setting then settings.value setting else value {} setting

namespace ListedIn

theorem isTable (lists : settings.ListedIn listed data) {path : List String} (member : path ∈ Setting.tables) :
    Data.IsTable (data.at? path) :=
  lists.tables path member

theorem exists_lookup (lists : settings.ListedIn listed data) :
    ∃ lookup, Data.orDefault? {} (LookupSettings.ofData? .ignored) (data.at? ["forecast"]) = some lookup ∧
      ∀ loaded : Settings, loaded.lookup = lookup →
        ∀ setting ∈ [Setting.primaryMaxDuration, .requestTimeout], settings.Takes listed loaded setting := by
  have stated := lists.settings
  obtain ⟨primaryMaxDuration, primaryMaxDurationRead, primaryMaxDurationValue⟩ :=
    (stated .primaryMaxDuration).number64 150
  obtain ⟨requestTimeout, requestTimeoutRead, requestTimeoutValue⟩ := (stated .requestTimeout).number64 10000
  refine ⟨⟨primaryMaxDuration, requestTimeout⟩, ?_, fun loaded same => ?_⟩
  · rw [LookupSettings.orDefault?_ofData? (lists.isTable (by decide))]
    simp only [← Data.at?_append]
    simp only [Setting.path] at *
    simp [primaryMaxDurationRead, requestTimeoutRead]
  · simp only [List.forall_mem_cons, Takes, value, same]
    exact ⟨primaryMaxDurationValue, requestTimeoutValue, nofun⟩

theorem exists_cache (lists : settings.ListedIn listed data) :
    ∃ cache, Data.orDefault? {} (CacheSettings.ofData? .ignored) (data.at? ["cache"]) = some cache ∧
      ∀ loaded : Settings, loaded.cache = cache →
        ∀ setting ∈ [Setting.durationMinutes, .enableFailSafe, .failSafeMaxDurationMinutes, .failSafeThrottleSeconds,
          .factorySoftTimeout, .factoryHardTimeout, .eagerRefreshThreshold, .maxEntries],
          settings.Takes listed loaded setting := by
  have stated := lists.settings
  obtain ⟨durationMinutes, durationMinutesRead, durationMinutesValue⟩ := (stated .durationMinutes).number32 30
  obtain ⟨enableFailSafe, enableFailSafeRead, enableFailSafeValue⟩ := (stated .enableFailSafe).bool true
  obtain ⟨failSafeMaxDurationMinutes, failSafeMaxDurationMinutesRead, failSafeMaxDurationMinutesValue⟩ :=
    (stated .failSafeMaxDurationMinutes).number32 1440
  obtain ⟨failSafeThrottleSeconds, failSafeThrottleSecondsRead, failSafeThrottleSecondsValue⟩ :=
    (stated .failSafeThrottleSeconds).number32 30
  obtain ⟨factorySoftTimeout, factorySoftTimeoutRead, factorySoftTimeoutValue⟩ :=
    (stated .factorySoftTimeout).number64 100
  obtain ⟨factoryHardTimeout, factoryHardTimeoutRead, factoryHardTimeoutValue⟩ :=
    (stated .factoryHardTimeout).number64 10000
  obtain ⟨eagerRefreshThreshold, eagerRefreshThresholdRead, eagerRefreshThresholdValue⟩ :=
    (stated .eagerRefreshThreshold).double 0.9
  obtain ⟨maxEntries, maxEntriesRead, maxEntriesValue⟩ := (stated .maxEntries).number64 10000
  refine ⟨⟨durationMinutes, enableFailSafe, failSafeMaxDurationMinutes, failSafeThrottleSeconds, factorySoftTimeout,
    factoryHardTimeout, eagerRefreshThreshold, maxEntries⟩, ?_, fun loaded same => ?_⟩
  · rw [CacheSettings.orDefault?_ofData? (lists.isTable (by decide))]
    simp only [← Data.at?_append]
    simp only [Setting.path] at *
    simp [durationMinutesRead, enableFailSafeRead, failSafeMaxDurationMinutesRead, failSafeThrottleSecondsRead,
      factorySoftTimeoutRead, factoryHardTimeoutRead, eagerRefreshThresholdRead, maxEntriesRead]
  · simp only [List.forall_mem_cons, Takes, value, same]
    exact ⟨durationMinutesValue, enableFailSafeValue, failSafeMaxDurationMinutesValue, failSafeThrottleSecondsValue,
      factorySoftTimeoutValue, factoryHardTimeoutValue, eagerRefreshThresholdValue, maxEntriesValue, nofun⟩

theorem exists_openMeteo (lists : settings.ListedIn listed data) :
    ∃ openMeteo, Data.orDefault? {} (OpenMeteoSettings.ofData? .ignored) (data.at? ["providers", "open_meteo"]) =
        some openMeteo ∧
      ∀ loaded : Settings, loaded.providers.openMeteo = openMeteo →
        ∀ setting ∈ [Setting.openMeteoEnabled, .forecastUrl, .geocodingUrl], settings.Takes listed loaded setting := by
  have stated := lists.settings
  obtain ⟨enabled, enabledRead, enabledValue⟩ := (stated .openMeteoEnabled).bool true
  obtain ⟨forecastUrl, forecastUrlRead, forecastUrlValue⟩ := (stated .forecastUrl).text "https://api.open-meteo.com"
  obtain ⟨geocodingUrl, geocodingUrlRead, geocodingUrlValue⟩ :=
    (stated .geocodingUrl).text "https://geocoding-api.open-meteo.com"
  refine ⟨⟨enabled, forecastUrl, geocodingUrl⟩, ?_, fun loaded same => ?_⟩
  · rw [OpenMeteoSettings.orDefault?_ofData? (lists.isTable (by decide))]
    simp only [← Data.at?_append]
    simp only [Setting.path] at *
    simp [enabledRead, forecastUrlRead, geocodingUrlRead]
  · simp only [List.forall_mem_cons, Takes, value, same]
    exact ⟨enabledValue, forecastUrlValue, geocodingUrlValue, nofun⟩

theorem exists_weatherApi (lists : settings.ListedIn listed data) :
    ∃ weatherApi, Data.orDefault? {} (WeatherApiSettings.ofData? .ignored) (data.at? ["providers", "weather_api"]) =
        some weatherApi ∧
      ∀ loaded : Settings, loaded.providers.weatherApi = weatherApi →
        ∀ setting ∈ [Setting.weatherApiEnabled, .baseUrl, .apiKey], settings.Takes listed loaded setting := by
  have stated := lists.settings
  obtain ⟨enabled, enabledRead, enabledValue⟩ := (stated .weatherApiEnabled).bool true
  obtain ⟨baseUrl, baseUrlRead, baseUrlValue⟩ := (stated .baseUrl).text "https://api.weatherapi.com"
  obtain ⟨apiKey, apiKeyRead, apiKeyValue⟩ := (stated .apiKey).optionalText
  refine ⟨⟨enabled, baseUrl, apiKey⟩, ?_, fun loaded same => ?_⟩
  · rw [WeatherApiSettings.orDefault?_ofData? (lists.isTable (by decide))]
    simp only [← Data.at?_append]
    simp only [Setting.path] at *
    simp [enabledRead, baseUrlRead, apiKeyRead]
  · simp only [List.forall_mem_cons, Takes, value, same]
    exact ⟨enabledValue, baseUrlValue, apiKeyValue, nofun⟩

theorem exists_providers (lists : settings.ListedIn listed data) :
    ∃ providers, Data.orDefault? {} (ProviderSettings.ofData? .ignored) (data.at? ["providers"]) = some providers ∧
      ∀ loaded : Settings, loaded.providers = providers →
        ∀ setting ∈ [Setting.providerOrder, .openMeteoEnabled, .forecastUrl, .geocodingUrl, .weatherApiEnabled,
          .baseUrl, .apiKey], settings.Takes listed loaded setting := by
  obtain ⟨order, orderRead, orderValue⟩ := (lists.settings .providerOrder).texts ["open_meteo", "weather_api"]
  obtain ⟨openMeteo, openMeteoRead, openMeteoValues⟩ := lists.exists_openMeteo
  obtain ⟨weatherApi, weatherApiRead, weatherApiValues⟩ := lists.exists_weatherApi
  refine ⟨⟨order, openMeteo, weatherApi⟩, ?_, fun loaded same => ?_⟩
  · rw [ProviderSettings.orDefault?_ofData? (lists.isTable (by decide))]
    simp only [← Data.at?_append]
    simp only [Setting.path] at *
    simp [orderRead, openMeteoRead, weatherApiRead]
  · have ordered : settings.Takes listed loaded .providerOrder := by
      simp only [Takes, value, same]
      exact orderValue
    have inner := openMeteoValues loaded (by rw [same])
    have inner' := weatherApiValues loaded (by rw [same])
    simp only [List.forall_mem_cons] at inner inner' ⊢
    exact ⟨ordered, inner.1, inner.2.1, inner.2.2.1, inner'⟩

theorem exists_publisher (lists : settings.ListedIn listed data) :
    ∃ publisher, Data.orDefault? {} (PublisherSettings.ofData? .ignored) (data.at? ["publisher"]) = some publisher ∧
      ∀ loaded : Settings, loaded.publisher = publisher →
        ∀ setting ∈ [Setting.queueCapacity, .webhookUrl, .publishTimeout], settings.Takes listed loaded setting := by
  have stated := lists.settings
  obtain ⟨queueCapacity, queueCapacityRead, queueCapacityValue⟩ := (stated .queueCapacity).number64 256
  obtain ⟨webhookUrl, webhookUrlRead, webhookUrlValue⟩ := (stated .webhookUrl).optionalText
  obtain ⟨publishTimeout, publishTimeoutRead, publishTimeoutValue⟩ := (stated .publishTimeout).number64 2000
  refine ⟨⟨queueCapacity, webhookUrl, publishTimeout⟩, ?_, fun loaded same => ?_⟩
  · rw [PublisherSettings.orDefault?_ofData? (lists.isTable (by decide))]
    simp only [← Data.at?_append]
    simp only [Setting.path] at *
    simp [queueCapacityRead, webhookUrlRead, publishTimeoutRead]
  · simp only [List.forall_mem_cons, Takes, value, same]
    exact ⟨queueCapacityValue, webhookUrlValue, publishTimeoutValue, nofun⟩

/-- What is listed is read, and defaults for all other settings. -/
theorem exists_ofData? (lists : settings.ListedIn listed data) :
    ∃ loaded, ofData? .ignored data = some loaded ∧ ∀ setting, settings.Takes listed loaded setting := by
  obtain ⟨lookup, lookupRead, lookupValues⟩ := lists.exists_lookup
  obtain ⟨cache, cacheRead, cacheValues⟩ := lists.exists_cache
  obtain ⟨providers, providersRead, providersValues⟩ := lists.exists_providers
  obtain ⟨publisher, publisherRead, publisherValues⟩ := lists.exists_publisher
  refine ⟨⟨lookup, cache, providers, publisher⟩, ?_, fun setting => ?_⟩
  · have root : Data.IsTable (data.at? []) := lists.isTable (by decide)
    refine (orDefault?_ofData? root).trans ?_
    simp only [← Data.at?_append, List.nil_append]
    simp [lookupRead, cacheRead, providersRead, publisherRead]
  · cases setting
    case primaryMaxDuration | requestTimeout => exact lookupValues _ rfl _ (by decide)
    case queueCapacity | webhookUrl | publishTimeout => exact publisherValues _ rfl _ (by decide)
    case providerOrder | openMeteoEnabled | forecastUrl | geocodingUrl | weatherApiEnabled | baseUrl | apiKey =>
      exact providersValues _ rfl _ (by decide)
    all_goals exact cacheValues _ rfl _ (by decide)

end ListedIn

/-- Settings are determined by the values of the single settings. -/
theorem eq_of_value {other : Settings} (same : ∀ setting, settings.value setting = other.value setting) :
    settings = other := by
  have texts : Function.Injective Data.ofOptionalText := by
    intro left right equal
    cases left <;> cases right <;> simp_all [Data.ofOptionalText]
  have lists : Function.Injective fun values : List String => Data.list (values.map .text) := by
    intro left right equal
    exact List.map_injective_iff.mpr (fun _ _ => Data.text.inj) (Data.list.inj equal)
  have short (left right : UInt32) (equal : Data.int left.toNat = .int right.toNat) : left = right :=
    UInt32.toNat_inj.mp (Int.ofNat.inj (Data.int.inj equal))
  have long (left right : UInt64) (equal : Data.int left.toNat = .int right.toNat) : left = right :=
    UInt64.toNat_inj.mp (Int.ofNat.inj (Data.int.inj equal))
  obtain ⟨⟨_, _⟩, ⟨_, _, _, _, _, _, _, _⟩, ⟨_, ⟨_, _, _⟩, ⟨_, _, _⟩⟩, ⟨_, _, _⟩⟩ := settings
  obtain ⟨⟨_, _⟩, ⟨_, _, _, _, _, _, _, _⟩, ⟨_, ⟨_, _, _⟩, ⟨_, _, _⟩⟩, ⟨_, _, _⟩⟩ := other
  congr
  · exact long _ _ (same .primaryMaxDuration)
  · exact long _ _ (same .requestTimeout)
  · exact short _ _ (same .durationMinutes)
  · exact Data.bool.inj (same .enableFailSafe)
  · exact short _ _ (same .failSafeMaxDurationMinutes)
  · exact short _ _ (same .failSafeThrottleSeconds)
  · exact long _ _ (same .factorySoftTimeout)
  · exact long _ _ (same .factoryHardTimeout)
  · exact Data.float.inj (same .eagerRefreshThreshold)
  · exact long _ _ (same .maxEntries)
  · exact lists (same .providerOrder)
  · exact Data.bool.inj (same .openMeteoEnabled)
  · exact Data.text.inj (same .forecastUrl)
  · exact Data.text.inj (same .geocodingUrl)
  · exact Data.bool.inj (same .weatherApiEnabled)
  · exact Data.text.inj (same .baseUrl)
  · exact texts (same .apiKey)
  · exact long _ _ (same .queueCapacity)
  · exact texts (same .webhookUrl)
  · exact long _ _ (same .publishTimeout)

/-- A file that lists some settings is read with defaults for all others. -/
theorem readFile_of_listedIn {disk : Disk} {path : Path} {text : String} (there : disk.readText path = .ok text)
    (parsed : Toml.read? text = some data) (lists : settings.ListedIn listed data) :
    ∃ loaded, readFile disk path = .ok loaded ∧
      ∀ setting, loaded.value setting = if listed setting then settings.value setting else value {} setting := by
  obtain ⟨loaded, decoded, values⟩ := lists.exists_ofData?
  refine ⟨loaded, ?_, values⟩
  rw [readFile, there]
  simp only [ofText?, parsed, Option.bind_some, decoded]

/-- A file with two settings, and with names that no setting has. -/
def sparse : Data :=
  .record [("forecast", .record [("primary_max_duration_ms", .int 200), ("colour", .text "blue")]),
    ("cache", .record [("eager_refresh_threshold", .int 1)]), ("extra", .record [("x", .bool true)])]

def sparseText : String :=
  "[forecast]\nprimary_max_duration_ms = 200\ncolour = \"blue\"\n\n[cache]\neager_refresh_threshold = 1\n\n" ++
    "[extra]\nx = true\n"

theorem read?_sparseText : Toml.read? sparseText = some sparse := by
  have written : Toml.write? sparse = some sparseText := by decide +kernel
  have fit : Toml.Fits 0 sparse := by
    simp only [sparse, Toml.Fits, Toml.FieldsFit]
    decide
  exact Toml.read?_of_write? rfl fit written

/-- Settings of which the file lists these two. -/
def sparseSettings : Settings where
  lookup := { primaryMaxDuration := 200, requestTimeout := 7 }
  cache := { eagerRefreshThreshold := Float.ofInt 1 }

def sparseListed (setting : Setting) : Bool :=
  setting == .primaryMaxDuration || setting == .eagerRefreshThreshold

theorem listedIn_sparse : sparseSettings.ListedIn sparseListed sparse where
  tables := by
    intro path member table there
    simp only [Setting.tables, List.mem_cons, List.not_mem_nil, or_false] at member
    obtain rfl | rfl | rfl | rfl | rfl | rfl | rfl := member <;> cases there <;> exact ⟨_, rfl, by decide⟩
  settings := by
    intro setting
    refine ⟨fun isListed _ => ?_, ?_⟩
    · cases setting <;> first | contradiction | skip
      · exact ⟨_, rfl, .same _⟩
      · exact ⟨_, rfl, .whole 1⟩
    · rintro (unlisted | null)
      · cases setting <;> first | rfl | contradiction
      · cases setting <;> first | rfl | contradiction

/-- The two are loaded, and defaults for all others. -/
theorem readFile_sparse : ∃ loaded,
    readFile ⟨fun _ => some (.file sparseText.toUTF8)⟩ ["config.toml"] = .ok loaded ∧
      ∀ setting, loaded.value setting =
        if sparseListed setting then sparseSettings.value setting else value {} setting :=
  readFile_of_listedIn (Disk.readText_of_file rfl) read?_sparseText listedIn_sparse

end Settings

end HedgedForecast
