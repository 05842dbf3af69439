import HedgedForecast.Proofs.Settings.Endpoints
import HedgedForecast.Proofs.Settings.Secrets
import HedgedForecast.Proofs.Settings.Storing

/-! # Checked loading

Checked loading returns the settings of a file with the overrides of the environment, together with all findings about
them, exactly if these have no errors; otherwise it tells all errors. Settings are checked after the overrides, so that
an override can spoil the settings of a file, and it can mend them.
-/

namespace HedgedForecast

namespace Findings

variable {first second : Findings} {fields : List String} {field detail : String}

/-- All errors are about the given fields. -/
def Concern (findings : Findings) (fields : List String) : Prop :=
  ∀ error ∈ findings.errors, error.field ∈ fields

@[simp] theorem concern_append : (first ++ second).Concern fields ↔ first.Concern fields ∧ second.Concern fields := by
  simp only [Concern, errors_append, List.forall_mem_append]

@[simp] theorem concern_empty : ({} : Findings).Concern fields :=
  nofun

@[simp] theorem concern_warning : (warning field detail).Concern fields :=
  nofun

@[simp] theorem concern_error : (error field detail).Concern fields ↔ field ∈ fields :=
  List.forall_mem_singleton

theorem Concern.ite {condition : Prop} [Decidable condition] (left : first.Concern fields)
    (right : second.Concern fields) : (if condition then first else second).Concern fields := by
  split
  · exact left
  · exact right

theorem Concern.mono {more : List String} (concern : first.Concern fields) (subset : fields ⊆ more) :
    first.Concern more :=
  fun error member => subset (concern error member)

/-- Where errors could only be about other fields there are none. -/
theorem Concern.errors_eq_nil (concern : first.Concern fields) (others : ∀ error ∈ first.errors, error.field ∉ fields) :
    first.errors = [] :=
  List.eq_nil_iff_forall_not_mem.mpr fun error member => others error member (concern error member)

end Findings

open Findings

theorem concern_checkUrl {field address : String} {fields : List String} (member : field ∈ fields) :
    (checkUrl field address).Concern fields := by
  have reported {condition : Prop} [Decidable condition] (detail : String) :
      (if condition then error field detail else {}).Concern fields := .ite (concern_error.mpr member) concern_empty
  unfold checkUrl
  split
  · exact concern_error.mpr member
  · exact concern_append.mpr ⟨concern_append.mpr ⟨reported _, reported _⟩, reported _⟩

/-- Errors of the cache policy are about its own fields. -/
theorem CacheSettings.concern_check (settings : CacheSettings) :
    settings.check.Concern (fieldNames.map ("cache." ++ ·)) := by
  have own (name : String) (member : name ∈ fieldNames) : "cache." ++ name ∈ fieldNames.map ("cache." ++ ·) :=
    List.mem_map_of_mem member
  have reported {condition : Prop} [Decidable condition] {otherwise : Findings} (name detail : String)
      (member : name ∈ fieldNames) (rest : otherwise.Concern (fieldNames.map ("cache." ++ ·))) :
      (if condition then error ("cache." ++ name) detail else otherwise).Concern (fieldNames.map ("cache." ++ ·)) :=
    .ite (concern_error.mpr (own name member)) rest
  unfold CacheSettings.check
  simp only [concern_append]
  refine ⟨⟨⟨⟨⟨⟨?_, ?_⟩, ?_⟩, ?_⟩, ?_⟩, ?_⟩, ?_⟩
  · exact reported "duration_minutes" _ (by decide) (.ite concern_warning concern_empty)
  · exact reported "fail_safe_max_duration_minutes" _ (by decide) (.ite concern_warning concern_empty)
  · exact reported "fail_safe_throttle_seconds" _ (by decide) concern_empty
  · exact reported "factory_soft_timeout_ms" _ (by decide) concern_empty
  · exact reported "factory_hard_timeout_ms" _ (by decide) (.ite concern_warning concern_empty)
  · exact .ite concern_empty (concern_error.mpr (own "eager_refresh_threshold" (by decide)))
  · exact reported "max_entries" _ (by decide) concern_empty

theorem OpenMeteoSettings.concern_check (settings : OpenMeteoSettings) :
    settings.check.Concern ["providers.open_meteo.forecast_url", "providers.open_meteo.geocoding_url"] := by
  unfold OpenMeteoSettings.check
  refine .ite (concern_append.mpr ⟨?_, ?_⟩) concern_empty
  · exact concern_checkUrl (by decide)
  · exact concern_checkUrl (by decide)

theorem WeatherApiSettings.concern_check (settings : WeatherApiSettings) :
    settings.check.Concern ["providers.weather_api.base_url"] := by
  unfold WeatherApiSettings.check
  refine .ite (concern_append.mpr ⟨?_, ?_⟩) concern_empty
  · exact concern_checkUrl (by decide)
  · exact .ite concern_empty concern_warning

theorem concern_checkProviderNames (names : List String) :
    (Findings.join (names.map checkProviderName)).Concern ["providers.order"] := by
  induction names with
  | nil => exact concern_empty
  | cons name rest ih =>
    refine concern_append.mpr ⟨?_, ih⟩
    exact .ite concern_empty (concern_error.mpr (by decide))

theorem PublisherSettings.concern_check (settings : PublisherSettings) :
    settings.check.Concern ["publisher.queue_capacity", "publisher.webhook_url"] := by
  unfold PublisherSettings.check
  refine concern_append.mpr ⟨.ite (concern_error.mpr (by decide)) concern_empty, ?_⟩
  cases settings.webhookUrl with
  | none => exact concern_empty
  | some address => exact concern_checkUrl (by decide)

theorem ProviderSettings.concern_check (settings : ProviderSettings) :
    settings.check.Concern ["providers.open_meteo.forecast_url", "providers.open_meteo.geocoding_url",
      "providers.weather_api.base_url", "providers.order", "providers"] := by
  unfold ProviderSettings.check
  simp only [concern_append]
  refine ⟨⟨⟨?_, ?_⟩, ?_⟩, ?_⟩
  · exact settings.openMeteo.concern_check.mono (by decide)
  · exact settings.weatherApi.concern_check.mono (by decide)
  · exact (concern_checkProviderNames _).mono (by decide)
  · exact .ite (concern_error.mpr (by decide)) concern_empty

namespace LookupSettings

/-- The finding about a duration for which the first provider may not run alone. -/
def excessive (duration : UInt64) : Finding :=
  ⟨"forecast.primary_max_duration_ms", s!"Must be between 1 and 1000, got {duration}"⟩

/-- Errors about the times of a lookup. -/
theorem errors_check (settings : LookupSettings) : settings.check.errors =
    (if 1 ≤ settings.primaryMaxDuration ∧ settings.primaryMaxDuration ≤ 1000 then []
      else [excessive settings.primaryMaxDuration]) ++
    (if settings.requestTimeout = 0 then
      [⟨"forecast.request_timeout_ms", "Request timeout must be greater than 0"⟩] else []) := by
  unfold check
  simp only [errors_append, Bool.and_eq_true, decide_eq_true_eq, beq_iff_eq]
  congr 1
  · split <;> rfl
  · split
    · rfl
    · split <;> rfl

theorem concern_check (settings : LookupSettings) :
    settings.check.Concern ["forecast.primary_max_duration_ms", "forecast.request_timeout_ms"] := by
  unfold check
  refine concern_append.mpr ⟨.ite concern_empty (concern_error.mpr (by decide)), ?_⟩
  exact .ite (concern_error.mpr (by decide)) (.ite concern_warning concern_empty)

end LookupSettings

namespace Settings

variable {environment : Environment} {base settings : Settings} {raw key : String} {duration : UInt64}

theorem errors_check (settings : Settings) : settings.check.errors = settings.lookup.check.errors ++
    settings.cache.check.errors ++ settings.providers.check.errors ++ settings.publisher.check.errors :=
  rfl

/-- A duration out of bounds is an error, wherever it comes from. -/
theorem excessive_mem_errors (outside : duration < 1 ∨ 1000 < duration)
    (own : settings.lookup.primaryMaxDuration = duration) :
    LookupSettings.excessive duration ∈ settings.check.errors := by
  have bad : ¬(1 ≤ duration ∧ duration ≤ 1000) := by
    rintro ⟨low, high⟩
    rcases outside with below | above
    · exact absurd low (UInt64.not_le.mpr below)
    · exact absurd high (UInt64.not_le.mpr above)
  rw [errors_check, LookupSettings.errors_check, own, if_neg bad]
  simp only [List.cons_append, List.mem_cons, true_or]

/-- A duration within bounds leaves no errors where there were only those of another duration. -/
theorem errors_of_duration (only : ∀ error ∈ base.check.errors, error.field = "forecast.primary_max_duration_ms")
    (inside : 1 ≤ duration ∧ duration ≤ 1000) :
    { base with lookup := { base.lookup with primaryMaxDuration := duration } }.check.errors = [] := by
  simp only [errors_check, LookupSettings.errors_check, List.forall_mem_append] at only
  obtain ⟨⟨⟨⟨_, ofTimeout⟩, ofCache⟩, ofProviders⟩, ofPublisher⟩ := only
  have timeout : base.lookup.requestTimeout ≠ 0 := by
    intro zero
    rw [if_pos zero] at ofTimeout
    exact absurd (ofTimeout _ (List.mem_singleton_self _)) (by decide)
  have cache : base.cache.check.errors = [] :=
    base.cache.concern_check.errors_eq_nil fun error member => ofCache error member ▸ by decide
  have providers : base.providers.check.errors = [] :=
    base.providers.concern_check.errors_eq_nil fun error member => ofProviders error member ▸ by decide
  have publisher : base.publisher.check.errors = [] :=
    base.publisher.concern_check.errors_eq_nil fun error member => ofPublisher error member ▸ by decide
  simp only [errors_check, LookupSettings.errors_check, if_pos inside, if_neg timeout, cache, providers, publisher,
    List.append_nil]

/-- A key leaves no errors where there was only that no provider is enabled, if it enables its provider. -/
theorem errors_of_key (only : ∀ error ∈ base.check.errors, error.field = "providers")
    (ordered : "weather_api" ∈ base.providers.order) (enabled : base.providers.weatherApi.enabled = true)
    (usable : { base.providers.weatherApi with apiKey := some key }.isConfigured = true) :
    { base with providers := { base.providers with
      weatherApi := { base.providers.weatherApi with apiKey := some key } } }.check.errors = [] := by
  simp only [errors_check, List.forall_mem_append] at only
  obtain ⟨⟨⟨ofLookup, ofCache⟩, ofProviders⟩, ofPublisher⟩ := only
  have lookup : base.lookup.check.errors = [] :=
    base.lookup.concern_check.errors_eq_nil fun error member => ofLookup error member ▸ by decide
  have cache : base.cache.check.errors = [] :=
    base.cache.concern_check.errors_eq_nil fun error member => ofCache error member ▸ by decide
  have publisher : base.publisher.check.errors = [] :=
    base.publisher.concern_check.errors_eq_nil fun error member => ofPublisher error member ▸ by decide
  simp only [errors_check, lookup, cache, publisher, List.nil_append, List.append_nil]
  simp only [ProviderSettings.check, errors_append, List.forall_mem_append] at ofProviders ⊢
  obtain ⟨⟨⟨ofOpenMeteo, ofWeatherApi⟩, ofNames⟩, _⟩ := ofProviders
  have openMeteo : base.providers.openMeteo.check.errors = [] :=
    base.providers.openMeteo.concern_check.errors_eq_nil fun error member => ofOpenMeteo error member ▸ by decide
  have weatherApi : base.providers.weatherApi.check.errors = [] :=
    base.providers.weatherApi.concern_check.errors_eq_nil fun error member => ofWeatherApi error member ▸ by decide
  have names : (Findings.join (base.providers.order.map checkProviderName)).errors = [] :=
    (concern_checkProviderNames _).errors_eq_nil fun error member => ofNames error member ▸ by decide
  rw [WeatherApiSettings.check, if_pos enabled, errors_append, List.append_eq_nil_iff] at weatherApi
  rw [WeatherApiSettings.check, if_pos enabled, if_pos usable, errors_append, weatherApi.1, openMeteo, names]
  have some : "weather_api" ∈ ({ base.providers with
      weatherApi := { base.providers.weatherApi with apiKey := some key } } : ProviderSettings).enabledNames := by
    refine ProviderSettings.mem_enabledNames.mpr ⟨ordered, ?_⟩
    exact Bool.and_eq_true_iff.mpr ⟨enabled, usable⟩
  rw [if_neg (by simpa using List.ne_nil_of_mem some)]
  rfl

/-- A file can be read as these settings. -/
def Holds (disk : Disk) (path : Path) (base : Settings) : Prop :=
  ∃ text, disk.readText path = .ok text ∧ ofText? text = some base

variable {directory path : Path} {disk after : Disk} {path? : Option Path}

theorem holds_iff : Holds disk path base ↔ readFile disk path = .ok base := by
  unfold Holds readFile
  cases disk.readText path with
  | error cause => simp
  | ok text => cases parsed : ofText? text <;> simp [parsed]

/-- How checked loading goes: the file is made if it is to be made, read, overridden, and checked. -/
theorem loadValidated_eq (environment : Environment) (disk : Disk) (directory : Path) (path? : Option Path) :
    loadValidated environment disk directory path? =
      (((Loading.checked path?).prepare directory disk).1,
        ((Loading.checked path?).prepare directory disk).2.bind fun _ =>
          (loadFrom environment ((Loading.checked path?).prepare directory disk).1
            (path?.getD (defaultPath directory))).bind accept) := by
  cases path? with
  | some path => rfl
  | none =>
    have own : (Loading.checked none).prepare directory disk = ensure disk (defaultPath directory) := rfl
    rw [loadValidated, loadOrCreate_eq, own]
    rcases ensure disk (defaultPath directory) with ⟨after, failure | _⟩ <;> rfl

theorem accept_eq_ok_iff {findings : Findings} {checked : Settings} :
    accept settings = .ok (checked, findings) ↔
      settings.check.errors = [] ∧ checked = settings ∧ findings = settings.check := by
  unfold accept
  by_cases valid : settings.check.isValid
  · simp [valid, Findings.isValid_iff.mp valid, eq_comm]
  · simp [valid, mt Findings.isValid_iff.mpr valid]

/-- What is told of settings with errors: all of them in one line. -/
theorem accept_of_errors (errors : settings.check.errors ≠ []) : accept settings = .error (.rejected
    ("; ".intercalate (settings.check.errors.map fun error => error.field ++ ": " ++ error.detail))) := by
  have invalid : ¬settings.check.isValid := mt Findings.isValid_iff.mp errors
  rw [accept, if_neg invalid]
  rfl

theorem loadFrom_accept_of_holds (holds : Holds disk path base) :
    (loadFrom environment disk path).bind accept = accept (base.withEnvironment environment) := by
  rw [loadFrom, holds_iff.mp holds]
  rfl

/-- Reading alone refuses no settings for their errors. -/
theorem readFile_ne_rejected (summary : String) : readFile disk path ≠ .error (.rejected summary) := by
  unfold readFile
  split
  · simp
  · split <;> simp

theorem loadFrom_accept_of_not_holds (unread : ∀ base, ¬Holds disk path base) :
    ∃ failure, (loadFrom environment disk path).bind accept = .error failure ∧
      ∀ summary, failure ≠ .rejected summary := by
  cases read : readFile disk path with
  | ok base => exact absurd (holds_iff.mpr read) (unread base)
  | error failure =>
    refine ⟨failure, by rw [loadFrom, read]; rfl, fun summary same => ?_⟩
    exact readFile_ne_rejected summary (same ▸ read)

/-- The file that checked loading reads holds these settings. -/
def Opens (environment : Environment) (disk : Disk) (directory : Path) (path? : Option Path) (base : Settings) : Prop :=
  Holds (loadValidated environment disk directory path?).1 (path?.getD (defaultPath directory)) base

/-- The environment makes no difference to what the file holds. -/
theorem opens_iff : Opens environment disk directory path? base ↔
    Holds ((Loading.checked path?).prepare directory disk).1 (path?.getD (defaultPath directory)) base := by
  rw [Opens, loadValidated_eq]

theorem loadValidated_of_opens (opens : Opens environment disk directory path? base) :
    (loadValidated environment disk directory path?).2 = accept (base.withEnvironment environment) := by
  have prepared := Loading.prepared (.checked path?) directory disk
  rw [opens_iff] at opens
  rw [loadValidated_eq]
  generalize (Loading.checked path?).prepare directory disk = outcome at prepared opens
  cases prepared with
  | untouched | made => exact loadFrom_accept_of_holds opens
  | refused _ missing =>
    obtain ⟨text, there, _⟩ := opens
    exact absurd there (Disk.readText_of_missing missing)

theorem loadValidated_of_unread (unread : ∀ base, ¬Opens environment disk directory path? base) :
    ∃ failure, (loadValidated environment disk directory path?).2 = .error failure ∧
      ∀ summary, failure ≠ .rejected summary := by
  have prepared := Loading.prepared (.checked path?) directory disk
  simp only [opens_iff] at unread
  rw [loadValidated_eq]
  generalize (Loading.checked path?).prepare directory disk = outcome at prepared unread
  cases prepared with
  | untouched | made => exact loadFrom_accept_of_not_holds unread
  | refused => exact ⟨_, rfl, nofun⟩

/-- What checked loading reads and returns. -/
structure Vetted (environment : Environment) (disk : Disk) (directory : Path) (path? : Option Path) : Prop where
  /-- A file that is named is read as it stands. -/
  named : path? ≠ none → (loadValidated environment disk directory path?).1 = disk
  /-- So is the standard file if anything stands in its place. -/
  standing : (disk.node? (defaultPath directory)).isSome → (loadValidated environment disk directory path?).1 = disk
  /-- Otherwise it is made, and then it holds the defaults. -/
  made : path? = none → disk.node? (defaultPath directory) = none → ¬disk.Blocked (defaultPath directory) →
    Opens environment disk directory path? {}
  /-- What is returned are the settings of the file with the overrides of the environment, if these have no errors,
  and everything that was found out about them. -/
  returned : ∀ settings findings, (loadValidated environment disk directory path?).2 = .ok (settings, findings) ↔
    (∃ base, Opens environment disk directory path? base ∧ environment.Overrides base settings) ∧
      settings.check.errors = [] ∧ findings = settings.check
  /-- Settings with errors are refused with all of them. -/
  rejected : ∀ base settings, Opens environment disk directory path? base → environment.Overrides base settings →
    settings.check.errors ≠ [] → (loadValidated environment disk directory path?).2 = .error (.rejected
      ("; ".intercalate (settings.check.errors.map fun error => error.field ++ ": " ++ error.detail)))
  /-- A file that cannot be read as settings is refused for another reason. -/
  unread : (∀ base, ¬Opens environment disk directory path? base) →
    ∃ failure, (loadValidated environment disk directory path?).2 = .error failure ∧
      ∀ summary, failure ≠ .rejected summary
  /-- An override out of bounds is refused, whatever the file holds. -/
  spoilt : ∀ base raw duration, Opens environment disk directory path? base →
    environment.primaryMaxDuration = some raw → IsNumeral raw duration → duration < 1 ∨ 1000 < duration →
    ∃ errors : List Finding, LookupSettings.excessive duration ∈ errors ∧
      (loadValidated environment disk directory path?).2 =
        .error (.rejected ("; ".intercalate (errors.map Finding.message)))
  /-- An override within bounds mends a file that is refused for nothing but another duration. -/
  mended : ∀ base raw duration, Opens environment disk directory path? base → base.check.errors ≠ [] →
    (∀ error ∈ base.check.errors, error.field = "forecast.primary_max_duration_ms") →
    environment = { primaryMaxDuration := some raw } → IsNumeral raw duration → 1 ≤ duration ∧ duration ≤ 1000 →
    (∃ summary, (loadValidated {} disk directory path?).2 = .error (.rejected summary)) ∧
      ∃ settings findings, (loadValidated environment disk directory path?).2 = .ok (settings, findings) ∧
        settings.lookup.primaryMaxDuration = duration
  /-- A key mends a file that is refused for nothing but that no provider is enabled, if it enables one. -/
  unlocked : ∀ base key, Opens environment disk directory path? base → base.check.errors ≠ [] →
    (∀ error ∈ base.check.errors, error.field = "providers") → "weather_api" ∈ base.providers.order →
    base.providers.weatherApi.enabled = true →
    { base.providers.weatherApi with apiKey := some key }.isConfigured = true →
    environment = { weatherApiKey := some key } →
    (∃ summary, (loadValidated {} disk directory path?).2 = .error (.rejected summary)) ∧
      ∃ settings findings, (loadValidated environment disk directory path?).2 = .ok (settings, findings) ∧
        settings.providers.weatherApi.apiKey = some key

/-- Without overrides the settings are those of the file. -/
theorem withEnvironment_empty : base.withEnvironment {} = base :=
  rfl

theorem rejected_alone (opens : Opens environment disk directory path? base) (errors : base.check.errors ≠ []) :
    ∃ summary, (loadValidated {} disk directory path?).2 = .error (.rejected summary) := by
  have opens' : Opens {} disk directory path? base := opens_iff.mpr (opens_iff.mp opens)
  exact ⟨_, by rw [loadValidated_of_opens opens', withEnvironment_empty, accept_of_errors errors]⟩

/-- Nothing gets through checked loading that was not checked with the overrides. -/
theorem vetted (environment : Environment) (disk : Disk) (directory : Path) (path? : Option Path) :
    Vetted environment disk directory path? := by
  have secluded := Loading.secluded (.checked path?) directory disk
  constructor
  case named =>
    intro given
    exact secluded.given (Option.isNone_eq_false_iff.mpr (Option.isSome_iff_ne_none.mpr given)) environment
  case standing =>
    intro present
    cases path? with
    | some path => rfl
    | none => exact secluded.present present environment
  case made =>
    rintro rfl missing free
    obtain ⟨text, written, gains⟩ := secluded.made rfl missing free
    exact ⟨text, Disk.readText_of_file (gains environment).file, ofText?_of_toText? written⟩
  case returned =>
    intro settings findings
    constructor
    · intro returned
      by_cases read : ∃ base, Opens environment disk directory path? base
      · obtain ⟨base, opens⟩ := read
        rw [loadValidated_of_opens opens] at returned
        obtain ⟨errors, rfl, same⟩ := accept_eq_ok_iff.mp returned
        exact ⟨⟨base, opens, Environment.overrides_withEnvironment⟩, errors, same⟩
      · obtain ⟨failure, failed, _⟩ := loadValidated_of_unread (not_exists.mp read)
        rw [failed] at returned
        contradiction
    · rintro ⟨⟨base, opens, overrides⟩, errors, same⟩
      obtain rfl := Environment.overrides_iff.mp overrides
      rw [loadValidated_of_opens opens]
      exact accept_eq_ok_iff.mpr ⟨errors, rfl, same⟩
  case rejected =>
    intro base settings opens overrides errors
    obtain rfl := Environment.overrides_iff.mp overrides
    rw [loadValidated_of_opens opens, accept_of_errors errors]
  case unread => exact loadValidated_of_unread
  case spoilt =>
    intro base raw duration opens given numeral outside
    have applied : environment.Overrides base (base.withEnvironment environment) :=
      Environment.overrides_withEnvironment
    have member := excessive_mem_errors outside (applied.duration raw duration given numeral)
    exact ⟨_, member, by rw [loadValidated_of_opens opens, accept_of_errors (List.ne_nil_of_mem member)]; rfl⟩
  case mended =>
    intro base raw duration opens errors only given numeral inside
    refine ⟨rejected_alone opens errors, ?_⟩
    subst given
    have applied : base.withEnvironment { primaryMaxDuration := some raw } =
        { base with lookup := { base.lookup with primaryMaxDuration := duration } } := by
      rw [withEnvironment, Environment.durationOr, Option.bind_some, readDuration?_eq_some_iff.mpr numeral]
      rfl
    have mended := errors_of_duration only inside
    rw [← applied] at mended
    refine ⟨_, _, (loadValidated_of_opens opens).trans (accept_eq_ok_iff.mpr ⟨mended, rfl, rfl⟩), ?_⟩
    rw [applied]
  case unlocked =>
    intro base key opens errors only ordered enabled usable given
    refine ⟨rejected_alone opens errors, ?_⟩
    subst given
    have inhabited : key ≠ "" := by
      rintro rfl
      exact absurd usable (by simp [WeatherApiSettings.isConfigured])
    have applied : base.withEnvironment { weatherApiKey := some key } = { base with providers := { base.providers with
        weatherApi := { base.providers.weatherApi with apiKey := some key } } } := by
      simp only [withEnvironment, Environment.keyOr]
      rfl
    have unlocked := errors_of_key only ordered enabled usable
    rw [← applied] at unlocked
    refine ⟨_, _, (loadValidated_of_opens opens).trans (accept_eq_ok_iff.mpr ⟨unlocked, rfl, rfl⟩), ?_⟩
    rw [applied]

end Settings

end HedgedForecast
