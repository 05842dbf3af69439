import HedgedForecast.Proofs.Settings.Endpoints
import Mathlib.Data.List.Induction

/-! # The chain of settings

Which providers are usable is asked three times: by the check of settings, for the list of names, and when the
adapters are made. The answers agree. The list has each usable name once, in the order of the first mentions, every
name on it gives an adapter, and the adapters are those of a chain.
-/

namespace HedgedForecast

namespace ProviderSettings

variable {settings : ProviderSettings} {name : String}

/-- A usable provider is enabled, and if it needs a key, it has one that is not a placeholder. -/
theorem usable_iff : settings.usable name ↔
    (name = OpenMeteo.name ∧ settings.openMeteo.enabled = true) ∨
    (name = WeatherApi.name ∧ settings.weatherApi.enabled = true ∧
      ∃ key, settings.weatherApi.apiKey = some key ∧ key ≠ "" ∧ ¬"YOUR_".toList <+: key.toList) := by
  have configured : settings.weatherApi.isConfigured ↔
      ∃ key, settings.weatherApi.apiKey = some key ∧ key ≠ "" ∧ ¬"YOUR_".toList <+: key.toList := by
    unfold WeatherApiSettings.isConfigured
    cases settings.weatherApi.apiKey with
    | none => simp
    | some key => simp only [Bool.and_eq_true, bne_iff_ne, Bool.not_eq_true', Option.some.injEq, exists_eq_left',
        ← List.isPrefixOf_iff_prefix, Bool.not_eq_true]
  rw [← configured, ← Bool.and_eq_true_iff]
  constructor
  · intro usable
    unfold ProviderSettings.usable at usable
    split at usable
    · next same => exact .inl ⟨beq_iff_eq.mp same, usable⟩
    · split at usable
      · next same => exact .inr ⟨beq_iff_eq.mp same, usable⟩
      · contradiction
  · rintro (⟨rfl, enabled⟩ | ⟨rfl, ready⟩)
    · exact enabled
    · exact ready

theorem enabledNames_snoc (settings : ProviderSettings) (order : List String) (name : String) :
    ({ settings with order := order ++ [name] } : ProviderSettings).enabledNames =
      if settings.usable name then addName ({ settings with order } : ProviderSettings).enabledNames name
      else ({ settings with order } : ProviderSettings).enabledNames := by
  have same (order : List String) : ({ settings with order } : ProviderSettings).usable = settings.usable := rfl
  simp only [enabledNames, same, List.filter_append, List.foldl_append, List.filter_singleton]
  cases settings.usable name with
  | true => rfl
  | false => rfl

theorem ordered_enabledNames (settings : ProviderSettings) :
    settings.enabledNames.Pairwise fun first second => settings.order.idxOf first < settings.order.idxOf second := by
  obtain ⟨order, openMeteo, weatherApi⟩ := settings
  let settings (order : List String) : ProviderSettings := { order, openMeteo, weatherApi }
  change (settings order).enabledNames.Pairwise fun first second => order.idxOf first < order.idxOf second
  induction order using List.reverseRecOn with
  | nil => exact .nil
  | append_singleton order name ih =>
    have mentioned {other : String} (member : other ∈ (settings order).enabledNames) : other ∈ order :=
      (mem_enabledNames.mp member).1
    have kept : (settings order).enabledNames.Pairwise fun first second =>
        (order ++ [name]).idxOf first < (order ++ [name]).idxOf second := by
      refine ih.imp_of_mem fun member member' before => ?_
      rw [List.idxOf_append_of_mem (mentioned member), List.idxOf_append_of_mem (mentioned member')]
      exact before
    change (ProviderSettings.enabledNames { settings order with order := order ++ [name] }).Pairwise _
    rw [enabledNames_snoc]
    split
    · next usable =>
      unfold addName
      split
      · exact kept
      · next new =>
        rw [List.contains_iff_mem, mem_enabledNames] at new
        have first : name ∉ order := fun member => new ⟨member, usable⟩
        refine List.pairwise_append.mpr ⟨kept, List.pairwise_singleton .., fun other member last same => ?_⟩
        obtain rfl := List.mem_singleton.mp same
        rw [List.idxOf_append_of_mem (mentioned member), List.idxOf_append_of_notMem first]
        exact Nat.lt_of_lt_of_le (List.idxOf_lt_length_of_mem (mentioned member)) (Nat.le_add_right ..)
    · exact kept

end ProviderSettings

namespace Adapter

variable {settings : ProviderSettings} {name : String}

theorem exists_ofName? (usable : settings.usable name) :
    ∃ adapter, ofName? settings name = some adapter ∧ adapter.name = name := by
  obtain ⟨rfl, _⟩ | ⟨rfl, _, key, present⟩ := ProviderSettings.cases_of_usable usable
  · exact ⟨_, ofName?_openMeteo, rfl⟩
  · exact ⟨_, ofName?_weatherApi present, rfl⟩

/-- Every usable name gives an adapter, which has that name. -/
theorem names_ofSettings (settings : ProviderSettings) :
    (ofSettings settings).map Adapter.name = settings.enabledNames := by
  have own (name : String) (member : name ∈ settings.enabledNames) :
      (ofName? settings name).map Adapter.name = some name := by
    obtain ⟨adapter, found, same⟩ := exists_ofName? (ProviderSettings.mem_enabledNames.mp member).2
    rw [found, Option.map_some, same]
  rw [ofSettings, List.map_filterMap, List.filterMap_congr own, List.filterMap_some]

end Adapter

/-- The providers of the service make a chain, and these are their names. -/
def Service.HasChain (service : Service) (names : List String) : Prop :=
  ∃ chain, ProviderChain.make (service.hedger.providers.map Provider.name) = .ok chain ∧ chain.names = names

namespace Settings

/-- The list of usable names and the chain that is built agree. -/
structure Chained (settings : Settings) : Prop where
  /-- On the list are the names from the order of providers that are usable. -/
  mem_iff : ∀ name, name ∈ settings.providers.enabledNames ↔ name ∈ settings.providers.order ∧
    ((name = "open_meteo" ∧ settings.providers.openMeteo.enabled = true) ∨
      (name = "weather_api" ∧ settings.providers.weatherApi.enabled = true ∧
        ∃ key, settings.providers.weatherApi.apiKey = some key ∧ key ≠ "" ∧ ¬"YOUR_".toList <+: key.toList))
  nodup : settings.providers.enabledNames.Nodup
  /-- They come in the order in which they are first mentioned. -/
  ordered : settings.providers.enabledNames.Pairwise fun first second =>
    settings.providers.order.idxOf first < settings.providers.order.idxOf second
  /-- There is a service exactly if there is a name on the list. -/
  built_iff : ∀ transport startedAt,
    (∃ service, Service.ofSettings transport startedAt settings = .ok service) ↔ settings.providers.enabledNames ≠ []
  refused : ∀ transport startedAt, settings.providers.enabledNames = [] →
    Service.ofSettings transport startedAt settings = .error .noProviders
  /-- Its chain is that of the names on the list. -/
  chained : ∀ transport startedAt service, Service.ofSettings transport startedAt settings = .ok service →
    service.HasChain settings.providers.enabledNames
  /-- Settings that are checked without errors give a service and its chain. -/
  accepted : settings.check.isValid → ∀ transport startedAt, ∃ service,
    Service.ofSettings transport startedAt settings = .ok service ∧
      service.HasChain settings.providers.enabledNames

/-- Whatever the settings are, the list of usable names and the chain agree. -/
theorem chained_ofSettings (settings : Settings) : settings.Chained := by
  have nodup := Service.nodup_enabledNames settings.providers
  have names := Adapter.names_ofSettings settings.providers
  have refused (transport : Web.Transport) (startedAt : Moment) (none : settings.providers.enabledNames = []) :
      Service.ofSettings transport startedAt settings = .error .noProviders :=
    Service.assemble_eq_noProviders _ startedAt (List.map_eq_nil_iff.mp (names.trans none))
  have built (transport : Web.Transport) (startedAt : Moment) (some : settings.providers.enabledNames ≠ []) :
      ∃ service, Service.ofSettings transport startedAt settings = .ok service := by
    refine ⟨_, Service.assemble_eq_new _ startedAt fun nothing => ?_⟩
    rw [← names, nothing] at some
    exact some rfl
  have chained (transport : Web.Transport) (startedAt : Moment) (service : Service)
      (made : Service.ofSettings transport startedAt settings = .ok service) :
      service.HasChain settings.providers.enabledNames := by
    have providers : service.hedger.providers.map Provider.name = settings.providers.enabledNames := by
      rw [Service.eq_new_of_assemble made, ← names, Service.new, List.map_map]
      rfl
    rw [Service.HasChain, providers]
    exact ProviderChain.exists_make nodup
  refine ⟨fun name => ?_, nodup, ProviderSettings.ordered_enabledNames _, fun transport startedAt => ?_, refused, chained,
    fun valid transport startedAt => ?_⟩
  · rw [ProviderSettings.mem_enabledNames, ProviderSettings.usable_iff]
    rfl
  · refine ⟨?_, built transport startedAt⟩
    rintro ⟨service, made⟩ none
    rw [refused transport startedAt none] at made
    contradiction
  · obtain ⟨_, _, some⟩ := ProviderSettings.parts_of_isValid (providers_isValid valid)
    obtain ⟨service, made⟩ := built transport startedAt some
    exact ⟨service, made, chained transport startedAt service made⟩

end Settings

end HedgedForecast
