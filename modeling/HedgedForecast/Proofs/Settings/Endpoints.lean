import HedgedForecast.Proofs.Service.Scenarios
import HedgedForecast.Service.Assembly
import HedgedForecast.Settings.Validation

/-! # The endpoints of checked settings

Settings without errors give a chain of providers, and each provider is asked for forecasts at an address that
passed the check. The address where all of them locate cities belongs to the settings of one provider and is checked
with them: it is sure to be usable exactly when that provider is enabled, although a chain without it locates cities
there just the same.
-/

namespace HedgedForecast

namespace Findings

variable {first second : Findings}

theorem isValid_iff {findings : Findings} : findings.isValid ↔ findings.errors = [] :=
  List.isEmpty_iff

@[simp] theorem isValid_append : (first ++ second).isValid ↔ first.isValid ∧ second.isValid := by
  simp only [isValid_iff, errors_append, List.append_eq_nil_iff]

@[simp] theorem isValid_empty : ({} : Findings).isValid :=
  rfl

@[simp] theorem not_isValid_error (field detail : String) : ¬(error field detail).isValid :=
  Bool.false_ne_true

end Findings

/-- An address that can be contacted: it is readable, belongs to the web, names a host, and its port number is not
zero. -/
def Url.Contactable (address : String) : Prop :=
  ∃ url, Url.parse address = .ok url ∧ (url.scheme = "http" ∨ url.scheme = "https") ∧ url.host?.isSome ∧
    url.portNumber? ≠ some 0

theorem isValid_checkUrl {field address : String} : (checkUrl field address).isValid ↔ Url.Contactable address := by
  unfold checkUrl Url.Contactable
  cases Url.parse address with
  | error reason =>
    constructor
    · exact fun valid => absurd valid (Findings.not_isValid_error _ _)
    · rintro ⟨url, parsed, _⟩
      contradiction
  | ok url =>
    have scheme : (url.scheme != "http" && url.scheme != "https") = false ↔
        url.scheme = "http" ∨ url.scheme = "https" := by
      simp only [Bool.and_eq_false_iff, bne_eq_false_iff_eq]
    have reported (bad : Bool) (detail : String) :
        (if bad then Findings.error field detail else {}).isValid ↔ bad = false := by
      cases bad <;> simp
    have host : url.host?.isNone = false ↔ url.host?.isSome := by
      rw [← Option.not_isSome, Bool.not_eq_false']
    have portNumber : (url.portNumber? == some 0) = false ↔ url.portNumber? ≠ some 0 := beq_eq_false_iff_ne
    simp only [Findings.isValid_append, reported, scheme, host, portNumber, Except.ok.injEq, exists_eq_left', and_assoc]

namespace ProviderSettings

variable {settings : ProviderSettings}

/-- What a check of the providers without errors has found. -/
theorem parts_of_isValid (valid : settings.check.isValid) :
    settings.openMeteo.check.isValid ∧ settings.weatherApi.check.isValid ∧ settings.enabledNames ≠ [] := by
  unfold check at valid
  simp only [Findings.isValid_append] at valid
  obtain ⟨⟨⟨openMeteo, weatherApi⟩, _⟩, names⟩ := valid
  refine ⟨openMeteo, weatherApi, ?_⟩
  rintro none
  rw [none] at names
  exact absurd names (Findings.not_isValid_error _ _)

end ProviderSettings

theorem OpenMeteoSettings.contactable_of_isValid {settings : OpenMeteoSettings} (valid : settings.check.isValid)
    (enabled : settings.enabled = true) :
    Url.Contactable settings.forecastUrl ∧ Url.Contactable settings.geocodingUrl := by
  unfold check at valid
  rw [if_pos enabled, Findings.isValid_append, isValid_checkUrl, isValid_checkUrl] at valid
  exact valid

theorem WeatherApiSettings.contactable_of_isValid {settings : WeatherApiSettings} (valid : settings.check.isValid)
    (enabled : settings.enabled = true) : Url.Contactable settings.baseUrl := by
  unfold check at valid
  rw [if_pos enabled, Findings.isValid_append, isValid_checkUrl] at valid
  exact valid.1

theorem mem_addName {names : List String} {name other : String} :
    other ∈ addName names name ↔ other ∈ names ∨ other = name := by
  unfold addName
  split
  · next there =>
    rw [List.contains_iff_mem] at there
    constructor
    · exact Or.inl
    · rintro (member | rfl)
      · exact member
      · exact there
  · rw [List.mem_append, List.mem_singleton]

theorem ProviderSettings.mem_enabledNames {settings : ProviderSettings} {name : String} :
    name ∈ settings.enabledNames ↔ name ∈ settings.order ∧ settings.usable name := by
  have added (names seen : List String) : name ∈ names.foldl addName seen ↔ name ∈ names ∨ name ∈ seen := by
    induction names generalizing seen with
    | nil => simp
    | cons first rest ih =>
      rw [List.foldl_cons, ih, mem_addName, List.mem_cons]
      tauto
  rw [enabledNames, added, List.mem_filter]
  simp only [List.not_mem_nil, or_false]

/-- What makes a provider usable. -/
theorem ProviderSettings.cases_of_usable {settings : ProviderSettings} {name : String} (usable : settings.usable name) :
    (name = OpenMeteo.name ∧ settings.openMeteo.enabled = true) ∨
    (name = WeatherApi.name ∧ settings.weatherApi.enabled = true ∧ ∃ key, settings.weatherApi.apiKey = some key) := by
  unfold ProviderSettings.usable at usable
  split at usable
  · next same => exact .inl ⟨beq_iff_eq.mp same, usable⟩
  · split at usable
    · next same =>
      obtain ⟨enabled, configured⟩ := Bool.and_eq_true_iff.mp usable
      unfold WeatherApiSettings.isConfigured at configured
      cases present : settings.weatherApi.apiKey with
      | none => simp [present] at configured
      | some key => exact .inr ⟨beq_iff_eq.mp same, enabled, key, rfl⟩
    · contradiction

namespace Adapter

variable {settings : ProviderSettings} {adapter : Adapter}

theorem ofName?_openMeteo : ofName? settings OpenMeteo.name =
    some (openMeteo settings.openMeteo.forecastUrl settings.openMeteo.geocodingUrl) :=
  rfl

theorem ofName?_weatherApi {key : String} (present : settings.weatherApi.apiKey = some key) :
    ofName? settings WeatherApi.name =
      some (weatherApi settings.weatherApi.baseUrl settings.openMeteo.geocodingUrl key) :=
  Option.map_eq_some_iff.mpr ⟨key, present, rfl⟩

/-- The two kinds of adapters that settings can give. -/
theorem kinds_of_mem (member : adapter ∈ ofSettings settings) :
    (settings.openMeteo.enabled = true ∧
      adapter = openMeteo settings.openMeteo.forecastUrl settings.openMeteo.geocodingUrl) ∨
    (settings.weatherApi.enabled = true ∧ ∃ key, settings.weatherApi.apiKey = some key ∧
      adapter = weatherApi settings.weatherApi.baseUrl settings.openMeteo.geocodingUrl key) := by
  obtain ⟨name, named, found⟩ := List.mem_filterMap.mp member
  have usable := (ProviderSettings.mem_enabledNames.mp named).2
  obtain ⟨rfl, enabled⟩ | ⟨rfl, enabled, key, present⟩ := ProviderSettings.cases_of_usable usable
  · rw [ofName?_openMeteo] at found
    exact .inl ⟨enabled, (Option.some.inj found).symm⟩
  · rw [ofName?_weatherApi present] at found
    exact .inr ⟨enabled, key, present, (Option.some.inj found).symm⟩

theorem geocodingUrl_of_mem (member : adapter ∈ ofSettings settings) :
    adapter.geocodingUrl = settings.openMeteo.geocodingUrl := by
  obtain ⟨_, rfl⟩ | ⟨_, key, _, rfl⟩ := kinds_of_mem member
  · rfl
  · rfl

theorem contactable_forecastUrl (valid : settings.check.isValid) (member : adapter ∈ ofSettings settings) :
    Url.Contactable adapter.forecastUrl := by
  obtain ⟨checked, checked', _⟩ := ProviderSettings.parts_of_isValid valid
  obtain ⟨enabled, rfl⟩ | ⟨enabled, key, _, rfl⟩ := kinds_of_mem member
  · exact (OpenMeteoSettings.contactable_of_isValid checked enabled).1
  · exact WeatherApiSettings.contactable_of_isValid checked' enabled

theorem ofSettings_ne_nil (valid : settings.check.isValid) : ofSettings settings ≠ [] := by
  obtain ⟨_, _, names⟩ := ProviderSettings.parts_of_isValid valid
  obtain ⟨name, named⟩ := List.exists_mem_of_ne_nil _ names
  have usable := (ProviderSettings.mem_enabledNames.mp named).2
  obtain ⟨rfl, _⟩ | ⟨rfl, _, key, present⟩ := ProviderSettings.cases_of_usable usable
  · exact List.ne_nil_of_mem (List.mem_filterMap.mpr ⟨_, named, ofName?_openMeteo⟩)
  · exact List.ne_nil_of_mem (List.mem_filterMap.mpr ⟨_, named, ofName?_weatherApi present⟩)

/-- A message to a path below an endpoint of an adapter. -/
def Sends (adapter : Adapter) (message : Web.Message) : Prop :=
  ∃ base ∈ adapter.endpoints, ∃ path fields sent,
    Web.prepare (Web.addressOf base path) fields = .ok sent ∧ message = { sent with body := none }

variable {first second : Web.Transport}

theorem exchange_congr {base path : String} {fields : List (String × String)} (endpoint : base ∈ adapter.endpoints)
    (agree : ∀ message, adapter.Sends message → first message = second message) :
    Web.exchange first (Web.addressOf base path) fields none =
      Web.exchange second (Web.addressOf base path) fields none := by
  unfold Web.exchange
  cases prepared : Web.prepare (Web.addressOf base path) fields with
  | error failure => rfl
  | ok sent =>
    have same := agree { sent with body := none } ⟨base, endpoint, path, fields, sent, prepared, rfl⟩
    simp only [Web.send, same]

theorem search_congr {city : String} {country : Country}
    (agree : ∀ message, adapter.Sends message → first message = second message) :
    Geocoder.search first adapter.geocodingUrl city country =
      Geocoder.search second adapter.geocodingUrl city country := by
  have endpoint : adapter.geocodingUrl ∈ adapter.endpoints := List.mem_cons_self ..
  simp only [Geocoder.search]
  rw [exchange_congr endpoint agree]

theorem forecastAt_congr {place : Coordinates} {request : Request}
    (agree : ∀ message, adapter.Sends message → first message = second message) :
    adapter.forecastAt first place request = adapter.forecastAt second place request := by
  cases adapter with
  | openMeteo url locate =>
    simp only [forecastAt, OpenMeteo.forecastAt, OpenMeteo.ask]
    rw [exchange_congr (by simp [endpoints, forecastUrl]) agree]
  | weatherApi url locate key =>
    simp only [forecastAt, WeatherApi.forecastAt, WeatherApi.ask]
    rw [exchange_congr (by simp [endpoints, forecastUrl]) agree]

/-- An adapter asks nobody but its endpoints. -/
theorem forecast_congr (agree : ∀ message, adapter.Sends message → first message = second message)
    (request : Request) : adapter.forecast first request = adapter.forecast second request := by
  unfold forecast
  rw [search_congr agree]
  simp only [forecastAt_congr agree]

end Adapter

namespace Settings

variable {settings : Settings}

/-- The settings with another address for locating cities. -/
def locatingAt (settings : Settings) (address : String) : Settings :=
  { settings with providers := { settings.providers with
      openMeteo := { settings.providers.openMeteo with geocodingUrl := address } } }

/-- Every endpoint of the chain can be contacted. -/
def Covered (settings : Settings) : Prop :=
  ∀ adapter ∈ Adapter.ofSettings settings.providers, ∀ address ∈ adapter.endpoints, Url.Contactable address

theorem providers_isValid (valid : settings.check.isValid) : settings.providers.check.isValid := by
  unfold check at valid
  simp only [Findings.isValid_append] at valid
  exact valid.1.2

theorem covered_iff (valid : settings.check.isValid) :
    settings.Covered ↔ Url.Contactable settings.providers.openMeteo.geocodingUrl := by
  have checked := providers_isValid valid
  constructor
  · intro covered
    obtain ⟨adapter, member⟩ := List.exists_mem_of_ne_nil _ (Adapter.ofSettings_ne_nil checked)
    rw [← Adapter.geocodingUrl_of_mem member]
    exact covered adapter member _ (List.mem_cons_self ..)
  · intro located adapter member address endpoint
    rcases List.mem_pair.mp endpoint with rfl | rfl
    · rw [Adapter.geocodingUrl_of_mem member]
      exact located
    · exact Adapter.contactable_forecastUrl checked member

theorem contactable_of_enabled (valid : settings.check.isValid)
    (enabled : settings.providers.openMeteo.enabled = true) :
    Url.Contactable settings.providers.openMeteo.geocodingUrl :=
  (OpenMeteoSettings.contactable_of_isValid (ProviderSettings.parts_of_isValid (providers_isValid valid)).1 enabled).2

/-- Nothing is said about the address for locating cities if the provider it is listed with is not enabled. -/
theorem check_locatingAt (disabled : settings.providers.openMeteo.enabled = false) (address : String) :
    (settings.locatingAt address).check = settings.check := by
  have unchecked (locate : String) :
      ({ settings.providers.openMeteo with geocodingUrl := locate } : OpenMeteoSettings).check = {} := by
    unfold OpenMeteoSettings.check
    exact if_neg (ne_true_of_eq_false disabled)
  have same : (settings.locatingAt address).providers.check = settings.providers.check := by
    have before := unchecked settings.providers.openMeteo.geocodingUrl
    change _ ++ _ ++ _ ++ _ = _ ++ _ ++ _ ++ _
    rw [before]
    exact congrArg (· ++ _ ++ _ ++ _) (unchecked address)
  exact congrArg (settings.lookup.check ++ settings.cache.check ++ · ++ settings.publisher.check) same

theorem not_contactable_empty : ¬Url.Contactable "" := by
  rintro ⟨url, parsed, _⟩
  have failed : Url.parse "" = .error .relative := rfl
  rw [failed] at parsed
  contradiction

/-- What is known of the endpoints when the check of settings reports no error. -/
structure Endpoints (settings : Settings) : Prop where
  /-- The settings give a service, and its chain is that of their adapters. -/
  assembled : ∀ transport startedAt, ∃ service, Service.ofSettings transport startedAt settings = .ok service ∧
    service.hedger.providers = (Adapter.ofSettings settings.providers).map (Adapter.provider transport)
  /-- What an adapter tells depends on nothing but the answers to messages below its endpoints. -/
  confined : ∀ adapter ∈ Adapter.ofSettings settings.providers, ∀ first second,
    (∀ message, adapter.Sends message → first message = second message) →
    ∀ request, adapter.forecast first request = adapter.forecast second request
  /-- Forecasts are asked for at addresses that can be contacted. -/
  forecasts : ∀ adapter ∈ Adapter.ofSettings settings.providers, Url.Contactable adapter.forecastUrl
  /-- Cities are located at one address, so that this address decides for all endpoints. -/
  covered_iff : settings.Covered ↔ Url.Contactable settings.providers.openMeteo.geocodingUrl
  /-- That address can be contacted if the provider it is listed with is enabled. -/
  located : settings.providers.openMeteo.enabled = true → Url.Contactable settings.providers.openMeteo.geocodingUrl
  /-- The check covers the endpoints, whatever that address is, exactly if that provider is enabled. -/
  complete_iff : (∀ address, (settings.locatingAt address).check.isValid → (settings.locatingAt address).Covered) ↔
    settings.providers.openMeteo.enabled = true

/-- The check of settings covers the endpoints of their chain but for one: the address where cities are located is
checked only if the provider it is listed with is enabled. -/
theorem endpoints_of_isValid (valid : settings.check.isValid) : settings.Endpoints where
  assembled := by
    intro transport startedAt
    have inhabited := Adapter.ofSettings_ne_nil (providers_isValid valid)
    exact ⟨_, Service.assemble_eq_new _ startedAt inhabited, rfl⟩
  confined := fun _ _ _ _ agree request => Adapter.forecast_congr agree request
  forecasts := fun _ member => Adapter.contactable_forecastUrl (providers_isValid valid) member
  covered_iff := covered_iff valid
  located := contactable_of_enabled valid
  complete_iff := by
    constructor
    · intro complete
      by_contra disabled
      have blind := check_locatingAt (Bool.eq_false_of_not_eq_true disabled) ""
      have passed : (settings.locatingAt "").check.isValid := by rw [blind]; exact valid
      exact not_contactable_empty ((Settings.covered_iff passed).mp (complete "" passed))
    · intro enabled address passed
      exact (Settings.covered_iff passed).mpr (contactable_of_enabled passed enabled)

/-- Settings for the provider with key alone, with an address for locating cities that is none. -/
def astray : Settings where
  providers := {
    openMeteo := { enabled := false, geocodingUrl := "not a url" }
    weatherApi := { apiKey := some "k" } }

theorem isValid_astray : astray.check.isValid := by decide

theorem not_covered_astray : ¬astray.Covered := by
  rw [covered_iff isValid_astray]
  rintro ⟨url, parsed, _⟩
  have failed : Url.parse "not a url" = .error .relative := rfl
  change Url.parse "not a url" = .ok url at parsed
  rw [failed] at parsed
  contradiction

/-- The settings for one provider pass, and its chain cannot locate cities. -/
theorem endpoints_astray : astray.check.isValid ∧ astray.Endpoints ∧ ¬astray.Covered :=
  ⟨isValid_astray, endpoints_of_isValid isValid_astray, not_covered_astray⟩

/-- Settings without errors may have endpoints that cannot be contacted. -/
theorem not_covered_of_isValid : ¬∀ settings : Settings, settings.check.isValid → settings.Covered :=
  fun covered => not_covered_astray (covered astray isValid_astray)

end Settings

end HedgedForecast
