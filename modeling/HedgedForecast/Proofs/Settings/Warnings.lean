import HedgedForecast.Proofs.Settings.Bounds

/-! # What settings are warned about

Each section has its own fields to warn about. That hedging never starts is told exactly of those settings by which a
lookup has no more time than the first provider runs alone.
-/

namespace HedgedForecast

namespace Findings

variable {first second : Findings} {fields : List String} {field detail : String}

/-- All warnings are about the given fields. -/
def WarnOf (findings : Findings) (fields : List String) : Prop :=
  ∀ warning ∈ findings.warnings, warning.field ∈ fields

@[simp] theorem warnOf_append : (first ++ second).WarnOf fields ↔ first.WarnOf fields ∧ second.WarnOf fields := by
  simp only [WarnOf, warnings_append, List.forall_mem_append]

@[simp] theorem warnOf_empty : ({} : Findings).WarnOf fields :=
  nofun

@[simp] theorem warnOf_error : (error field detail).WarnOf fields :=
  nofun

@[simp] theorem warnOf_warning : (warning field detail).WarnOf fields ↔ field ∈ fields :=
  List.forall_mem_singleton

theorem WarnOf.ite {condition : Prop} [Decidable condition] (left : first.WarnOf fields)
    (right : second.WarnOf fields) : (if condition then first else second).WarnOf fields := by
  split
  · exact left
  · exact right

end Findings

open Findings

/-- Addresses are right or wrong; nobody is warned about them. -/
theorem warnOf_checkUrl (field address : String) (fields : List String) : (checkUrl field address).WarnOf fields := by
  unfold checkUrl
  split
  · exact warnOf_error
  · exact warnOf_append.mpr ⟨warnOf_append.mpr ⟨.ite warnOf_error warnOf_empty, .ite warnOf_error warnOf_empty⟩,
      .ite warnOf_error warnOf_empty⟩

theorem CacheSettings.warnOf_check (settings : CacheSettings) : settings.check.WarnOf
    ["cache.duration_minutes", "cache.fail_safe_max_duration_minutes", "cache.factory_hard_timeout_ms"] := by
  unfold CacheSettings.check
  simp only [warnOf_append]
  refine ⟨⟨⟨⟨⟨⟨?_, ?_⟩, ?_⟩, ?_⟩, ?_⟩, ?_⟩, ?_⟩
  · exact .ite warnOf_error (.ite (warnOf_warning.mpr (by decide)) warnOf_empty)
  · exact .ite warnOf_error (.ite (warnOf_warning.mpr (by decide)) warnOf_empty)
  · exact .ite warnOf_error warnOf_empty
  · exact .ite warnOf_error warnOf_empty
  · exact .ite warnOf_error (.ite (warnOf_warning.mpr (by decide)) warnOf_empty)
  · exact .ite warnOf_empty warnOf_error
  · exact .ite warnOf_error warnOf_empty

theorem warnOf_checkProviderNames (names : List String) (fields : List String) :
    (Findings.join (names.map checkProviderName)).WarnOf fields := by
  induction names with
  | nil => exact warnOf_empty
  | cons name rest ih => exact warnOf_append.mpr ⟨.ite warnOf_empty warnOf_error, ih⟩

theorem ProviderSettings.warnOf_check (settings : ProviderSettings) :
    settings.check.WarnOf ["providers.weather_api.api_key"] := by
  unfold ProviderSettings.check OpenMeteoSettings.check WeatherApiSettings.check
  simp only [warnOf_append]
  refine ⟨⟨⟨?_, ?_⟩, warnOf_checkProviderNames _ _⟩, .ite warnOf_error warnOf_empty⟩
  · exact .ite (warnOf_append.mpr ⟨warnOf_checkUrl _ _ _, warnOf_checkUrl _ _ _⟩) warnOf_empty
  · refine .ite (warnOf_append.mpr ⟨warnOf_checkUrl _ _ _, ?_⟩) warnOf_empty
    exact .ite warnOf_empty (warnOf_warning.mpr (by decide))

theorem PublisherSettings.warnOf_check (settings : PublisherSettings) : settings.check.WarnOf [] := by
  unfold PublisherSettings.check
  refine warnOf_append.mpr ⟨.ite warnOf_error warnOf_empty, ?_⟩
  cases settings.webhookUrl with
  | none => exact warnOf_empty
  | some address => exact warnOf_checkUrl _ address _

/-- What is told of settings by which the first provider runs alone for as long as a lookup has. -/
def hedgingNeverStarts : Finding :=
  ⟨"forecast.request_timeout_ms", "Request timeout is shorter than the primary max duration; hedging never starts"⟩

theorem LookupSettings.warnings_check (settings : LookupSettings) : settings.check.warnings =
    if settings.requestTimeout ≠ 0 ∧ settings.requestTimeout ≤ settings.primaryMaxDuration
    then [hedgingNeverStarts] else [] := by
  unfold check
  simp only [warnings_append, beq_iff_eq]
  have primary {condition : Prop} [Decidable condition] (field detail : String) :
      (if condition then {} else error field detail).warnings = [] := by
    split <;> rfl
  rw [primary, List.nil_append]
  by_cases none : settings.requestTimeout = 0
  · simp [none, error]
  · by_cases short : settings.requestTimeout ≤ settings.primaryMaxDuration
    · simp only [none, short, if_false, if_true, ne_eq, not_false_eq_true, true_and]
      rfl
    · simp [none, short]

namespace Settings

variable {settings : Settings}

/-- Only the times of lookups are reason for this warning. -/
theorem hedgingNeverStarts_mem_iff (valid : settings.check.isValid) :
    hedgingNeverStarts ∈ settings.check.warnings ↔
      settings.lookup.requestTimeout.toNat ≤ settings.lookup.primaryMaxDuration.toNat := by
  have positive := (lookup_of_isValid valid).2
  have nonzero : settings.lookup.requestTimeout ≠ 0 := by
    intro zero
    simp [zero] at positive
  have cache : hedgingNeverStarts ∉ settings.cache.check.warnings := fun member =>
    absurd (settings.cache.warnOf_check _ member) (by decide)
  have providers : hedgingNeverStarts ∉ settings.providers.check.warnings := fun member =>
    absurd (settings.providers.warnOf_check _ member) (by decide)
  have publisher : hedgingNeverStarts ∉ settings.publisher.check.warnings := fun member =>
    absurd (settings.publisher.warnOf_check _ member) (by decide)
  unfold check
  simp only [warnings_append, List.mem_append, cache, providers, publisher, or_false,
    LookupSettings.warnings_check, nonzero, ne_eq, not_false_eq_true, true_and, UInt64.le_iff_toNat_le]
  split <;> simp_all

/-- Settings by which lookups have less time than the first provider runs alone. -/
def hasty : Settings :=
  { lookup := { primaryMaxDuration := 150, requestTimeout := 100 }
    providers := { weatherApi := { apiKey := some "key" } } }

theorem isValid_hasty : hasty.check.isValid := by
  decide

theorem hedgingNeverStarts_mem_hasty : hedgingNeverStarts ∈ hasty.check.warnings := by
  decide

end Settings

end HedgedForecast
