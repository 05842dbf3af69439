import HedgedForecast.Proofs.Settings.Listings
import HedgedForecast.Proofs.Settings.Saving
import HedgedForecast.Proofs.Toml.Files

/-! # Settings in a file

A settings file is a store with one place: what is read from it are the settings that the last save put there. A save
refuses numbers that do not fit before it touches the file.
-/

namespace HedgedForecast

namespace Disk

variable {disk after : Disk} {path : Path}

/-- A file can be written: neither is a file in the way of the directories above it nor a directory in its place. -/
structure Writable (disk : Disk) (path : Path) : Prop where
  inhabited : path ≠ []
  free : ¬disk.Blocked path
  place : disk.node? path ≠ some .directory

/-- With the directories above it made, a file can be written if it could before. -/
theorem Writable.keep (writable : disk.Writable path)
    (directories : ∀ parent ∈ above path, after.node? parent = some .directory)
    (rest : ∀ other, other ≠ path → other ∉ above path → after.node? other = disk.node? other)
    (place : after.node? path ≠ some .directory) : after.Writable path := by
  refine ⟨writable.inhabited, ?_, place⟩
  rintro ⟨directory, position, file⟩
  by_cases root : directory = []
  · subst root
    have untouched := rest [] (Ne.symm writable.inhabited) fun member => (mem_above.mp member).1 rfl
    refine writable.free ⟨[], position, ?_⟩
    rw [isFile_iff] at file ⊢
    rwa [← untouched]
  · have higher : directory ∈ above path := by
      rw [above_eq_downTo_dropLast, mem_downTo]
      refine ⟨root, ?_⟩
      obtain rfl | above := position
      · exact List.prefix_rfl
      · exact (mem_above.mp above).2.1
    rw [isFile_iff, directories directory higher] at file
    simp at file

end Disk

namespace Toml

variable {name : String} {fields : List (String × Data)} {level : Nat}

/-- What a file keeps of a field. -/
def kept? : Data → Option Data
  | .null => none
  | data => some (filed data)

theorem kept?_of_ne {data : Data} (value : data ≠ .null) : kept? data = some (filed data) := by
  cases data <;> first | rfl | exact absurd rfl value

theorem kept?_of_isValue {data : Data} (value : isValue data = true) : kept? data = some data := by
  cases data <;> first | rfl | exact absurd value (by simp [isValue])

/-- A field is a value, a table or nothing. -/
theorem kind (data : Data) : isValue data = true ∨ (isValue data = false ∧ isTable data = true) ∨ data = .null := by
  cases data <;> simp [isValue, isTable]

theorem lookup_eq_none_of_not_mem (absent : name ∉ fields.map Prod.fst) : fields.lookup name = none := by
  rw [List.lookup_eq_none_iff]
  rintro ⟨own, data⟩ member
  have differs : name ≠ own := fun same => absent (same ▸ List.mem_map_of_mem member)
  simpa using differs

theorem mem_of_lookup {data : Data} (found : fields.lookup name = some data) : (name, data) ∈ fields := by
  obtain ⟨before, behind, rfl, _⟩ := List.lookup_eq_some_iff.mp found
  exact List.mem_append_right _ List.mem_cons_self

theorem filter_isValue_of_value {data : Data} (value : isValue data = true) :
    (((name, data) :: fields).filter fun field => isValue field.2) =
      (name, data) :: fields.filter fun field => isValue field.2 :=
  List.filter_cons_of_pos value

theorem filter_isValue_of_other {data : Data} (other : isValue data = false) :
    (((name, data) :: fields).filter fun field => isValue field.2) = fields.filter fun field => isValue field.2 :=
  List.filter_cons_of_neg (Bool.eq_false_iff.mp other)

/-- Every field that a file keeps is found in it by its name. -/
theorem lookup_filed (distinct : (fields.map Prod.fst).Nodup) :
    ((fields.filter fun field => isValue field.2) ++ filedTables fields).lookup name =
      (fields.lookup name).bind kept? := by
  induction fields with
  | nil => rfl
  | cons field rest ih =>
    obtain ⟨own, data⟩ := field
    obtain ⟨absent, distinct'⟩ := List.nodup_cons.mp distinct
    have behind := ih distinct'
    rw [List.lookup_append] at behind ⊢
    by_cases same : name = own
    · subst same
      rw [lookup_eq_none_of_not_mem absent, Option.bind_none, Option.or_eq_none_iff] at behind
      rw [List.lookup_cons_self, Option.bind_some, filedTables]
      obtain value | ⟨lines, table⟩ | rfl := kind data
      · rw [filter_isValue_of_value value, List.lookup_cons_self, Option.some_or, kept?_of_isValue value]
      · rw [filter_isValue_of_other lines, behind.1, Option.none_or, if_pos table,
          List.lookup_cons_self, kept?_of_ne fun null => by simp [null, isTable] at table]
      · exact Option.or_eq_none_iff.mpr behind
    · have other : (name == own) = false := by simpa using same
      have skip (data : Data) (fields : List (String × Data)) :
          ((own, data) :: fields).lookup name = fields.lookup name := by
        rw [List.lookup_cons, other]
      rw [skip, ← behind, filedTables]
      obtain value | ⟨lines, table⟩ | rfl := kind data
      · have notTable : ¬isTable data = true := by
          cases data <;> simp [isTable, isValue] at value ⊢
        rw [filter_isValue_of_value value, skip, if_neg notTable]
      · rw [filter_isValue_of_other lines, if_pos table, skip]
      · rfl

theorem Fits.of_mem {data : Data} (fit : FieldsFit level fields) (member : (name, data) ∈ fields) :
    Fits (level + 1) data := by
  induction fields with
  | nil => exact absurd member List.not_mem_nil
  | cons field rest ih =>
    obtain ⟨own, first⟩ := field
    obtain ⟨_, fits, others⟩ := fit
    rcases List.mem_cons.mp member with same | behind
    · obtain ⟨rfl, rfl⟩ := Prod.mk.inj same
      exact fits
    · exact ih others behind

/-- What stands at a path of a file stood there before, unless it was null. -/
theorem at?_filed (path : List String) : ∀ (level : Nat) (data : Data), Fits level data → data ≠ .null →
    (filed data).at? path = (data.at? path).bind kept? := by
  induction path with
  | nil =>
    intro level data _ value
    rw [Data.at?, Data.at?, Option.bind_some, kept?_of_ne value]
  | cons name path ih =>
    intro level data fit value
    cases data with
    | record fields =>
      rw [Fits] at fit
      obtain ⟨_, distinct, fits⟩ := fit
      rw [filed, Data.at?, Data.at?, lookup_filed distinct]
      cases found : fields.lookup name with
      | none => rfl
      | some inner =>
        have member : (name, inner) ∈ fields := mem_of_lookup found
        simp only [Option.bind_some]
        by_cases null : inner = .null
        · subst null
          cases path <;> rfl
        · rw [kept?_of_ne null, Option.bind_some]
          exact ih (level + 1) inner (.of_mem fits member) null
    | _ => rfl

/-- Tables of a file are tables in which no name stands twice. -/
theorem exists_fields_filed {data : Data} (fit : Fits level data) (table : isTable data = true) :
    ∃ fields, filed data = .record fields ∧ (fields.map Prod.fst).Nodup := by
  obtain ⟨fields, rfl⟩ := isTable_iff.mp table
  rw [Fits] at fit
  exact ⟨_, by rw [filed], nodup_filed fit.2.1⟩

theorem Fits.at? (path : List String) : ∀ {level : Nat} {data found : Data}, Fits level data →
    data.at? path = some found → ∃ level, Fits level found := by
  induction path with
  | nil =>
    intro level data found fit there
    obtain rfl := Option.some.inj there
    exact ⟨level, fit⟩
  | cons name path ih =>
    intro level data found fit there
    cases data with
    | record fields =>
      rw [Fits] at fit
      rw [Data.at?] at there
      obtain ⟨inner, found', there⟩ := Option.bind_eq_some_iff.mp there
      exact ih (.of_mem fit.2.2 (mem_of_lookup found')) there
    | _ => exact absurd there (by simp [Data.at?])

end Toml

namespace Settings

/-- A field with the value of a setting if it is listed. -/
def field (settings : Settings) (listed : Setting → Bool) (setting : Setting) : String × Data :=
  (setting.path.getLast?.getD "", if listed setting then settings.value setting else .null)

/-- The data that lists some of the settings. -/
def listing (settings : Settings) (listed : Setting → Bool) : Data :=
  let field := settings.field listed
  .record [
    ("forecast", .record [field .primaryMaxDuration, field .requestTimeout]),
    ("cache", .record [field .durationMinutes, field .enableFailSafe, field .failSafeMaxDurationMinutes,
      field .failSafeThrottleSeconds, field .factorySoftTimeout, field .factoryHardTimeout, field .eagerRefreshThreshold,
      field .maxEntries]),
    ("providers", .record [field .providerOrder,
      ("open_meteo", .record [field .openMeteoEnabled, field .forecastUrl, field .geocodingUrl]),
      ("weather_api", .record [field .weatherApiEnabled, field .baseUrl, field .apiKey])]),
    ("publisher", .record [field .queueCapacity, field .webhookUrl, field .publishTimeout])]

variable {settings : Settings} {listed : Setting → Bool}

/-- What is saved of settings lists all of them. -/
theorem listing_all (settings : Settings) : settings.listing (fun _ => true) = settings.toData :=
  rfl

theorem at?_listing (settings : Settings) (listed : Setting → Bool) (setting : Setting) :
    (settings.listing listed).at? setting.path =
      some (if listed setting then settings.value setting else .null) := by
  cases setting <;> rfl

theorem nesting_value (settings : Settings) (setting : Setting) : Toml.nesting (settings.value setting) ≤ 1 := by
  have texts (values : List String) : Toml.itemsNesting (values.map .text) = 0 := by
    induction values with
    | nil => rfl
    | cons first rest ih => rw [List.map_cons, Toml.itemsNesting, ih]; rfl
  have optional (value : Option String) : Toml.nesting (.ofOptionalText value) = 0 := by
    cases value <;> rfl
  cases setting <;> simp [value, Toml.nesting, texts, optional]

theorem fits_field {level : Nat} (settings : Settings) (listed : Setting → Bool) (setting : Setting) :
    Toml.Fits level (settings.field listed setting).2 := by
  have shallow : Toml.nesting (if listed setting then settings.value setting else .null) < Toml.depthLimit := by
    have bound := settings.nesting_value setting
    split
    · exact Nat.lt_of_le_of_lt bound (by decide)
    · decide
  have leaf : ∀ fields, (if listed setting then settings.value setting else .null) ≠ .record fields := by
    intro fields
    split
    · cases setting
      case apiKey | webhookUrl => exact Toml.ofOptionalText_ne_record
      all_goals exact Data.noConfusion
    · exact Data.noConfusion
  rw [field]
  revert shallow leaf
  generalize (if listed setting then settings.value setting else .null) = data
  intro shallow leaf
  cases data with
  | record fields => exact absurd rfl (leaf fields)
  | _ => exact shallow

theorem filed_value (settings : Settings) (setting : Setting) :
    Toml.filed (settings.value setting) = settings.value setting := by
  have optional (value : Option String) : Toml.filed (.ofOptionalText value) = .ofOptionalText value := by
    cases value <;> rfl
  cases setting
  case apiKey | webhookUrl => exact optional _
  all_goals rfl

theorem fits_record (level : Nat) (settings : Settings) (listed : Setting → Bool) (members : List Setting)
    (short : level < Toml.depthLimit) (distinct : (members.map fun setting => setting.path.getLast?.getD "").Nodup)
    (bare : ∀ setting ∈ members, Toml.IsBare (setting.path.getLast?.getD "")) :
    Toml.Fits level (.record (members.map (settings.field listed))) := by
  have fields : Toml.FieldsFit level (members.map (settings.field listed)) := by
    clear distinct
    induction members with
    | nil => trivial
    | cons setting rest ih =>
      obtain ⟨here, behind⟩ := List.forall_mem_cons.mp bare
      exact ⟨here, settings.fits_field listed setting, ih behind⟩
  rw [Toml.Fits, List.map_map]
  exact ⟨short, distinct, fields⟩

theorem fits_listing (settings : Settings) (listed : Setting → Bool) : Toml.Fits 0 (settings.listing listed) := by
  have lookup := fits_record 1 settings listed [.primaryMaxDuration, .requestTimeout]
    (by decide) (by decide) (by decide)
  have cache := fits_record 1 settings listed [.durationMinutes, .enableFailSafe, .failSafeMaxDurationMinutes,
    .failSafeThrottleSeconds, .factorySoftTimeout, .factoryHardTimeout, .eagerRefreshThreshold, .maxEntries]
    (by decide) (by decide) (by decide)
  have openMeteo := fits_record 2 settings listed [.openMeteoEnabled, .forecastUrl, .geocodingUrl]
    (by decide) (by decide) (by decide)
  have weatherApi := fits_record 2 settings listed [.weatherApiEnabled, .baseUrl, .apiKey]
    (by decide) (by decide) (by decide)
  have publisher := fits_record 1 settings listed [.queueCapacity, .webhookUrl, .publishTimeout]
    (by decide) (by decide) (by decide)
  have order : Toml.Fits 2 (settings.field listed .providerOrder).2 := settings.fits_field listed .providerOrder
  have names : ["order", "open_meteo", "weather_api"].Nodup := by decide
  have providers : Toml.Fits 1 (.record [settings.field listed .providerOrder,
      ("open_meteo", .record ([.openMeteoEnabled, .forecastUrl, .geocodingUrl].map (settings.field listed))),
      ("weather_api", .record ([.weatherApiEnabled, .baseUrl, .apiKey].map (settings.field listed)))]) := by
    rw [Toml.Fits]
    exact ⟨by decide, names, by decide, order, by decide, openMeteo, by decide, weatherApi, trivial⟩
  have tables : ["forecast", "cache", "providers", "publisher"].Nodup := by decide
  rw [listing, Toml.Fits]
  exact ⟨by decide, tables, by decide, lookup, by decide, cache, by decide, providers, by decide, publisher, trivial⟩

/-- What is written when some of the settings are listed does list them. -/
theorem listedIn_listing (settings : Settings) (listed : Setting → Bool) :
    settings.ListedIn listed (Toml.filed (settings.listing listed)) := by
  have fit := settings.fits_listing listed
  have stands (path : List String) : (Toml.filed (settings.listing listed)).at? path =
      ((settings.listing listed).at? path).bind Toml.kept? :=
    Toml.at?_filed path 0 _ fit Data.noConfusion
  constructor
  · intro path member table there
    rw [stands] at there
    have isTable : ∃ fields, (settings.listing listed).at? path = some (.record fields) := by
      simp only [Setting.tables, List.mem_cons, List.not_mem_nil, or_false] at member
      obtain rfl | rfl | rfl | rfl | rfl | rfl | rfl := member <;> exact ⟨_, rfl⟩
    obtain ⟨fields, found⟩ := isTable
    rw [found, Option.bind_some] at there
    obtain rfl := Option.some.inj there
    obtain ⟨level, fit⟩ := fit.at? path found
    exact Toml.exists_fields_filed fit rfl
  · intro setting
    rw [stands, at?_listing, Option.bind_some]
    constructor
    · intro isListed value
      rw [if_pos isListed, Toml.kept?_of_ne value, filed_value]
      exact ⟨_, rfl, .same _⟩
    · rintro (unlisted | null)
      · rw [unlisted]
        rfl
      · rw [null, ite_self]
        rfl

variable {disk after : Disk} {path : Path} {text : String}

/-- The text of some of the settings is read as these, and defaults for all others. -/
theorem exists_ofText?_of_write? (written : Toml.write? (settings.listing listed) = some text) :
    ∃ loaded, ofText? text = some loaded ∧
      ∀ setting, loaded.value setting = if listed setting then settings.value setting else value {} setting := by
  obtain ⟨loaded, decoded, values⟩ := (settings.listedIn_listing listed).exists_ofData?
  refine ⟨loaded, ?_, values⟩
  rw [ofText?, Toml.read?_of_write? rfl (settings.fits_listing listed) written, Option.bind_some, decoded]

/-- Settings are read from their text. -/
theorem ofText?_of_toText? (written : settings.toText? = some text) : ofText? text = some settings := by
  rw [toText?, ← listing_all] at written
  obtain ⟨loaded, read, values⟩ := exists_ofText?_of_write? written
  rw [read, eq_of_value fun setting => (values setting).trans (if_pos rfl)]

/-- A number in the settings needs more than the 64 bits with sign that files have for it. -/
def Exceeds (settings : Settings) : Prop :=
  ∃ setting number, settings.value setting = .int number ∧ Int.pow 2 63 ≤ number

/-- Settings have a text unless a number in them is too large. -/
theorem exceeds_iff : settings.Exceeds ↔ ¬settings.Representable := by
  have above (number : Nat) : Int.pow 2 63 ≤ (number : Int) ↔ ¬number < Nat.pow 2 63 := by
    change (2 : Int) ^ 63 ≤ number ↔ ¬number < 2 ^ 63
    omega
  have short (number : UInt32) : number.toNat < Nat.pow 2 63 := Nat.lt_trans number.toNat_lt (by decide)
  constructor
  · rintro ⟨setting, number, same, large⟩ fits
    have absurd' (other : Nat) (small : other < Nat.pow 2 63) (same : Data.int other = .int number) : False := by
      obtain rfl := Data.int.inj same
      exact (above other).mp large small
    cases setting
    case primaryMaxDuration => exact absurd' _ fits.primaryMaxDuration same
    case requestTimeout => exact absurd' _ fits.requestTimeout same
    case durationMinutes => exact absurd' _ (short _) same
    case failSafeMaxDurationMinutes => exact absurd' _ (short _) same
    case failSafeThrottleSeconds => exact absurd' _ (short _) same
    case factorySoftTimeout => exact absurd' _ fits.factorySoftTimeout same
    case factoryHardTimeout => exact absurd' _ fits.factoryHardTimeout same
    case maxEntries => exact absurd' _ fits.maxEntries same
    case queueCapacity => exact absurd' _ fits.queueCapacity same
    case publishTimeout => exact absurd' _ fits.publishTimeout same
    case apiKey | webhookUrl =>
      rw [value, Data.ofOptionalText.eq_def] at same
      split at same <;> exact Data.noConfusion same
    all_goals exact Data.noConfusion same
  · intro unfit
    by_contra fits
    have small (setting : Setting) (number : Nat) (same : settings.value setting = .int number) :
        number < Nat.pow 2 63 := by
      by_contra large
      exact fits ⟨setting, number, same, (above number).mpr large⟩
    exact unfit ⟨small .primaryMaxDuration _ rfl, small .requestTimeout _ rfl, small .factorySoftTimeout _ rfl,
      small .factoryHardTimeout _ rfl, small .maxEntries _ rfl, small .queueCapacity _ rfl, small .publishTimeout _ rfl⟩

/-- What a save does to a place where a file can be written: it puts the settings there, or refuses them for a number
and leaves the place as it is. -/
inductive Saved (disk : Disk) (path : Path) (settings : Settings) : Disk × Except SettingsFailure Unit → Prop
  | kept {after : Disk} (fits : ¬settings.Exceeds) (reads : readFile after path = .ok settings)
      (writable : after.Writable path) : Saved disk path settings (after, .ok ())
  | refused {after : Disk} (exceeds : settings.Exceeds) (unchanged : after.node? path = disk.node? path)
      (writable : after.Writable path) : Saved disk path settings (after, .error .unrepresentable)

theorem saved_save (writable : disk.Writable path) (settings : Settings) :
    Saved disk path settings (save disk path settings) := by
  cases written : settings.toText? with
  | some text =>
    have fits : ¬settings.Exceeds := by
      rw [exceeds_iff, not_not, ← isSome_toText?_iff, written, Option.isSome_some]
    obtain ⟨after, saved, gains⟩ := save_of_free writable.free writable.place written
    rw [saved]
    refine .kept fits ?_ ?_
    · rw [readFile, Disk.readText_of_file gains.file]
      simp only [ofText?_of_toText? written]
    · exact writable.keep gains.directories gains.rest (by rw [gains.file]; simp)
  | none =>
    have exceeds : settings.Exceeds := by
      rw [exceeds_iff, ← isSome_toText?_iff, written, Option.isSome_none]
      exact Bool.false_ne_true
    obtain ⟨made, directories, stands⟩ := Disk.makeDirectories_of_not_blocked writable.free
    have unchanged : made.node? path = disk.node? path := by rw [stands, if_neg Disk.not_mem_above_self]
    have saved : save disk path settings = (made, .error .unrepresentable) := by
      unfold save
      rw [written, directories]
    rw [saved]
    refine .refused exceeds unchanged (writable.keep ?_ ?_ ?_)
    · intro parent member
      rw [stands, if_pos member]
    · intro other _ outside
      rw [stands, if_neg outside]
    · rw [unchanged]
      exact writable.place

/-- Saves settings one after another, and records what became of each save. -/
def saveAll (path : Path) : List Settings → Disk → Disk × List (Settings × Except SettingsFailure Unit)
  | [], disk => (disk, [])
  | settings :: rest, disk =>
    let saved := save disk path settings
    let last := saveAll path rest saved.1
    (last.1, (settings, saved.2) :: last.2)

/-- The settings of the last save that succeeded. -/
def lastSaved (saves : List (Settings × Except SettingsFailure Unit)) : Option Settings :=
  (saves.filterMap fun (settings, outcome) => outcome.toOption.map fun _ => settings).getLast?

/-- What a run of saves leaves in its file. -/
structure Stored (disk : Disk) (path : Path) (run : List Settings) : Prop where
  /-- The settings of the last save that succeeded are read back. -/
  last : ∀ settings, lastSaved (saveAll path run disk).2 = some settings →
    readFile (saveAll path run disk).1 path = .ok settings
  /-- Where none succeeded, the file is what it was. -/
  untouched : lastSaved (saveAll path run disk).2 = none → (saveAll path run disk).1.node? path = disk.node? path
  /-- Every save either succeeds or cannot be written down. -/
  outcomes : ∀ save ∈ (saveAll path run disk).2, save.2 = .ok () ∨ save.2 = .error .unrepresentable
  /-- It cannot be written down exactly if a number is too large. -/
  refused : ∀ save ∈ (saveAll path run disk).2, save.2 = .error .unrepresentable ↔ save.1.Exceeds
  /-- A save that cannot be written down leaves the file as it was just before. -/
  unchanged : ∀ earlier settings later, run = earlier ++ settings :: later → settings.Exceeds →
    (saveAll path (earlier ++ [settings]) disk).1.node? path = (saveAll path earlier disk).1.node? path

theorem lastSaved_cons (settings : Settings) (outcome : Except SettingsFailure Unit)
    (saves : List (Settings × Except SettingsFailure Unit)) : lastSaved ((settings, outcome) :: saves) =
      (lastSaved saves).or (outcome.toOption.map fun _ => settings) := by
  unfold lastSaved
  rw [List.filterMap_cons]
  cases outcome with
  | error failure => simp [Except.toOption]
  | ok _ => simp [Except.toOption, List.getLast?_cons]

theorem Saved.writable {step : Disk × Except SettingsFailure Unit} (saved : Saved disk path settings step) :
    step.1.Writable path := by
  cases saved with
  | kept _ _ writable => exact writable
  | refused _ _ writable => exact writable

/-- What is read from a file depends on nothing else on the disk. -/
theorem readFile_of_node? (reads : readFile disk path = .ok settings) (same : after.node? path = disk.node? path) :
    readFile after path = .ok settings := by
  have texts : disk.readText path = after.readText path ∨ ∃ cause, disk.readText path = .error cause := by
    unfold Disk.readText
    rw [same]
    cases disk.node? path with
    | none => exact .inr ⟨_, rfl⟩
    | some node => cases node <;> exact .inl rfl
  obtain texts | ⟨cause, failed⟩ := texts
  · rw [← reads, readFile, readFile, texts]
  · rw [readFile, failed] at reads
    contradiction

/-- A file is a store: it holds what the last save that succeeded put there. -/
theorem stored (writable : disk.Writable path) (run : List Settings) : Stored disk path run := by
  induction run generalizing disk with
  | nil =>
    refine ⟨fun settings last => absurd last (by simp [saveAll, lastSaved]), fun _ => rfl,
      fun _ member => absurd member List.not_mem_nil, fun _ member => absurd member List.not_mem_nil, ?_⟩
    intro earlier settings later same
    simp at same
  | cons settings run ih =>
    have saved := saved_save writable settings
    have rest := ih saved.writable
    constructor
    case last =>
      intro other last
      rw [saveAll, lastSaved_cons] at last
      cases behind : lastSaved (saveAll path run (save disk path settings).1).2 with
      | some later =>
        rw [behind, Option.some_or] at last
        exact rest.last other (behind.trans last)
      | none =>
        rw [behind, Option.none_or] at last
        have same := rest.untouched behind
        change readFile (saveAll path run (save disk path settings).1).1 path = .ok other
        generalize save disk path settings = step at saved last same
        cases saved with
        | kept _ reads _ =>
          obtain rfl := Option.some.inj last
          exact readFile_of_node? reads same
        | refused _ _ _ => contradiction
    case untouched =>
      intro none'
      rw [saveAll, lastSaved_cons, Option.or_eq_none_iff] at none'
      have same := rest.untouched none'.1
      have here := none'.2
      change (saveAll path run (save disk path settings).1).1.node? path = disk.node? path
      generalize save disk path settings = step at saved here same
      cases saved with
      | kept _ _ _ => contradiction
      | refused _ unchanged _ => exact same.trans unchanged
    case outcomes =>
      refine List.forall_mem_cons.mpr ⟨?_, rest.outcomes⟩
      generalize save disk path settings = step at saved
      cases saved with
      | kept _ _ _ => exact .inl rfl
      | refused _ _ _ => exact .inr rfl
    case refused =>
      refine List.forall_mem_cons.mpr ⟨?_, rest.refused⟩
      generalize save disk path settings = step at saved
      cases saved with
      | kept fits _ _ => exact iff_of_false (fun same => by simp at same) fits
      | refused exceeds _ _ => exact iff_of_true rfl exceeds
    case unchanged =>
      intro earlier other later same exceeds
      cases earlier with
      | nil =>
        obtain ⟨rfl, _⟩ := List.cons.inj same
        change (save disk path settings).1.node? path = disk.node? path
        generalize save disk path settings = step at saved
        cases saved with
        | kept fits _ _ => exact absurd exceeds fits
        | refused _ unchanged _ => exact unchanged
      | cons first earlier =>
        obtain ⟨rfl, behind⟩ := List.cons.inj same
        exact rest.unchanged earlier other later behind exceeds

/-- A long file, a shorter one in its place, and a number that is too large for a file. -/
def rewrites : List Settings :=
  [{ publisher := { webhookUrl := some "http://events.test/forecasts" } }, {},
    { lookup := { requestTimeout := 9223372036854775808 } }]

/-- The shorter one is read. -/
theorem stored_rewrites : (⟨fun _ => none⟩ : Disk).Writable ["config.toml"] ∧
    readFile (saveAll ["config.toml"] rewrites ⟨fun _ => none⟩).1 ["config.toml"] = .ok {} := by
  have writable : (⟨fun _ => none⟩ : Disk).Writable ["config.toml"] := by
    refine ⟨by simp, ?_, by simp⟩
    rintro ⟨directory, _, file⟩
    exact absurd file Bool.false_ne_true
  have last : lastSaved (saveAll ["config.toml"] rewrites ⟨fun _ => none⟩).2 = some {} := by decide +kernel
  exact ⟨writable, (stored writable rewrites).last {} last⟩

end Settings

end HedgedForecast
