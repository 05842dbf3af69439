import HedgedForecast.Proofs.Disk
import HedgedForecast.Settings.Store

/-! # Saving settings

A settings file holds whole numbers of 64 bits with sign, so that settings have a text exactly if none of their
durations and counts needs the last bit. Everything else can be written. Saving makes a file with that text, unless a
file is in the way of its directories.
-/

namespace HedgedForecast

namespace Toml

theorem isSome_mapM {α β : Type} {f : α → Option β} {items : List α} :
    (items.mapM f).isSome ↔ ∀ item ∈ items, (f item).isSome := by
  induction items with
  | nil => simp
  | cons first rest ih =>
    rw [List.mapM_cons, List.forall_mem_cons, ← ih]
    cases f first with
    | none => simp
    | some result => cases List.mapM f rest <;> simp

theorem isSome_writeLines? {fields : List (String × Data)} :
    (writeLines? fields).isSome ↔ ∀ field ∈ fields, (writeLine? field.1 field.2).isSome := by
  rw [writeLines?, Option.isSome_map]
  exact isSome_mapM

theorem isSome_writeTables? {path : List String} {fields : List (String × Data)} :
    (writeTables? path fields).isSome ↔ ∀ field ∈ fields, (writeTable? (path ++ [field.1]) field.2).isSome := by
  induction fields with
  | nil => simp [writeTables?]
  | cons field rest ih =>
    rw [writeTables?, List.forall_mem_cons, ← ih]
    cases writeTable? (path ++ [field.1]) field.2 with
    | none => simp
    | some table => cases writeTables? path rest <;> simp

theorem isSome_writeTable?_record {path : List String} {fields : List (String × Data)} :
    (writeTable? path (.record fields)).isSome ↔
      ∀ field ∈ fields, (writeLine? field.1 field.2).isSome ∧ (writeTable? (path ++ [field.1]) field.2).isSome := by
  have both : (writeTable? path (.record fields)).isSome ↔
      (writeLines? fields).isSome ∧ (writeTables? path fields).isSome := by
    rw [writeTable?]
    cases writeLines? fields with
    | none => simp
    | some lines => cases writeTables? path fields <;> simp
  rw [both, isSome_writeLines?, isSome_writeTables?, ← forall₂_and]

variable {name : String} {path : List String}

theorem isSome_writeLine?_value {data : Data} (value : data ≠ .null) (leaf : ∀ fields, data ≠ .record fields) :
    (writeLine? name data).isSome = (writeValue? data).isSome := by
  rw [writeLine?.eq_3 name data value leaf, Option.isSome_map]

@[simp] theorem isSome_writeLine?_nat {number : Nat} :
    (writeLine? name (.int number)).isSome ↔ number < Nat.pow 2 63 := by
  rw [isSome_writeLine?_value Data.noConfusion (fun _ => Data.noConfusion), writeValue?]
  split
  · next inside =>
    simp only [Bool.and_eq_true, decide_eq_true_eq] at inside
    have bound : (number : Int) < 2 ^ 63 := inside.2
    simp only [Option.isSome_some, true_iff]
    change number < 2 ^ 63
    omega
  · next outside =>
    simp only [Bool.and_eq_true, decide_eq_true_eq, not_and] at outside
    have bound : ¬(number : Int) < 2 ^ 63 := outside (Int.le_trans (by decide) (Int.natCast_nonneg number))
    simp only [Option.isSome_none, Bool.false_eq_true, false_iff]
    change ¬number < 2 ^ 63
    omega

@[simp] theorem isSome_writeLine?_bool {value : Bool} : (writeLine? name (.bool value)).isSome := by
  cases value <;> rfl

@[simp] theorem isSome_writeLine?_float {value : Float} : (writeLine? name (.float value)).isSome :=
  rfl

@[simp] theorem isSome_writeLine?_text {value : String} : (writeLine? name (.text value)).isSome :=
  rfl

@[simp] theorem isSome_writeLine?_record {fields : List (String × Data)} : (writeLine? name (.record fields)).isSome :=
  rfl

@[simp] theorem isSome_writeLine?_ofOptionalText {value : Option String} :
    (writeLine? name (.ofOptionalText value)).isSome := by
  cases value <;> rfl

@[simp] theorem isSome_writeLine?_texts {values : List String} :
    (writeLine? name (.list (values.map .text))).isSome := by
  have items : (writeItems? (values.map .text)).isSome := by
    induction values with
    | nil => rfl
    | cons first rest ih =>
      obtain ⟨written, same⟩ := Option.isSome_iff_exists.mp ih
      rw [List.map_cons, writeItems?, same]
      rfl
  rw [isSome_writeLine?_value Data.noConfusion (fun _ => Data.noConfusion), writeValue?, Option.isSome_map]
  exact items

/-- Only records have sections of their own. -/
theorem isSome_writeTable?_leaf {data : Data} (leaf : ∀ fields, data ≠ .record fields) :
    (writeTable? path data).isSome := by
  cases data with
  | record fields => exact absurd rfl (leaf fields)
  | _ => simp [writeTable?]

@[simp] theorem ofOptionalText_ne_record {value : Option String} {fields : List (String × Data)} :
    Data.ofOptionalText value ≠ .record fields := by
  cases value <;> exact Data.noConfusion

end Toml

namespace Settings

variable {path : List String}

theorem isSome_lookup {settings : LookupSettings} : (Toml.writeTable? path settings.toData).isSome ↔
    settings.primaryMaxDuration.toNat < Nat.pow 2 63 ∧ settings.requestTimeout.toNat < Nat.pow 2 63 := by
  simp [LookupSettings.toData, Toml.isSome_writeTable?_record, Toml.isSome_writeTable?_leaf]

theorem isSome_cache {settings : CacheSettings} : (Toml.writeTable? path settings.toData).isSome ↔
    settings.factorySoftTimeout.toNat < Nat.pow 2 63 ∧ settings.factoryHardTimeout.toNat < Nat.pow 2 63 ∧
      settings.maxEntries.toNat < Nat.pow 2 63 := by
  have short (number : UInt32) : number.toNat < Nat.pow 2 63 :=
    Nat.lt_trans number.toNat_lt (by decide)
  simp only [CacheSettings.toData, Toml.isSome_writeTable?_record, List.forall_mem_cons, Toml.isSome_writeLine?_nat,
    short, Toml.isSome_writeLine?_bool, Toml.isSome_writeLine?_float]
  simp [Toml.isSome_writeTable?_leaf]

theorem isSome_providers (settings : ProviderSettings) : (Toml.writeTable? path settings.toData).isSome := by
  simp [ProviderSettings.toData, OpenMeteoSettings.toData, WeatherApiSettings.toData, Toml.isSome_writeTable?_record,
    Toml.isSome_writeTable?_leaf]

theorem isSome_publisher {settings : PublisherSettings} : (Toml.writeTable? path settings.toData).isSome ↔
    settings.queueCapacity.toNat < Nat.pow 2 63 ∧ settings.publishTimeout.toNat < Nat.pow 2 63 := by
  simp [PublisherSettings.toData, Toml.isSome_writeTable?_record, Toml.isSome_writeTable?_leaf]

/-- No duration or count in the settings needs the last of its 64 bits. -/
structure Representable (settings : Settings) : Prop where
  primaryMaxDuration : settings.lookup.primaryMaxDuration.toNat < Nat.pow 2 63
  requestTimeout : settings.lookup.requestTimeout.toNat < Nat.pow 2 63
  factorySoftTimeout : settings.cache.factorySoftTimeout.toNat < Nat.pow 2 63
  factoryHardTimeout : settings.cache.factoryHardTimeout.toNat < Nat.pow 2 63
  maxEntries : settings.cache.maxEntries.toNat < Nat.pow 2 63
  queueCapacity : settings.publisher.queueCapacity.toNat < Nat.pow 2 63
  publishTimeout : settings.publisher.publishTimeout.toNat < Nat.pow 2 63

/-- Which settings have a text. -/
theorem isSome_toText?_iff {settings : Settings} : settings.toText?.isSome ↔ settings.Representable := by
  have parts : settings.toText?.isSome ↔
      (Toml.writeTable? ["forecast"] settings.lookup.toData).isSome ∧
        (Toml.writeTable? ["cache"] settings.cache.toData).isSome ∧
        (Toml.writeTable? ["providers"] settings.providers.toData).isSome ∧
        (Toml.writeTable? ["publisher"] settings.publisher.toData).isSome := by
    unfold toText? toData Toml.write?
    rw [Toml.isSome_writeTable?_record]
    simp only [List.forall_mem_cons, List.nil_append, List.not_mem_nil, false_implies, implies_true, and_true]
    constructor
    · rintro ⟨⟨_, lookup⟩, ⟨_, cache⟩, ⟨_, providers⟩, _, publisher⟩
      exact ⟨lookup, cache, providers, publisher⟩
    · rintro ⟨lookup, cache, providers, publisher⟩
      exact ⟨⟨rfl, lookup⟩, ⟨rfl, cache⟩, ⟨rfl, providers⟩, rfl, publisher⟩
  rw [parts, isSome_lookup, isSome_cache, isSome_publisher]
  constructor
  · rintro ⟨⟨primary, timeout⟩, ⟨soft, hard, entries⟩, _, capacity, publish⟩
    exact ⟨primary, timeout, soft, hard, entries, capacity, publish⟩
  · intro fits
    exact ⟨⟨fits.primaryMaxDuration, fits.requestTimeout⟩,
      ⟨fits.factorySoftTimeout, fits.factoryHardTimeout, fits.maxEntries⟩, isSome_providers _,
      fits.queueCapacity, fits.publishTimeout⟩

/-- The defaults have a text. -/
theorem toText?_default : ∃ text, toText? {} = some text := by
  apply Option.isSome_iff_exists.mp
  apply isSome_toText?_iff.mpr
  constructor <;> decide

variable {disk : Disk} {path : Path} {settings : Settings} {text : String}

theorem save_of_blocked (blocked : disk.Blocked path) :
    ∃ cause, save disk path settings = (disk, .error (.noDirectory cause)) := by
  obtain ⟨cause, refused⟩ := Disk.makeDirectories_of_blocked blocked
  exact ⟨cause, by rw [save, refused]⟩

theorem save_of_free (free : ¬disk.Blocked path) (place : disk.node? path ≠ some .directory)
    (written : settings.toText? = some text) :
    ∃ after, save disk path settings = (after, .ok ()) ∧ disk.Gains after path text := by
  obtain ⟨made, directories, stands⟩ := Disk.makeDirectories_of_not_blocked free
  have unoccupied : ¬made.isDirectory path := by
    rw [Disk.isDirectory_iff, stands, if_neg Disk.not_mem_above_self]
    exact place
  refine ⟨made.set path (.file text.toUTF8), ?_, ?_⟩
  · unfold save
    rw [written, directories]
    simp only [Disk.writeText, if_neg unoccupied]
  · constructor
    · rw [Disk.node?_set, if_pos rfl]
    · intro parent member
      have different : parent ≠ path := (Disk.mem_above.mp member).2.2
      rw [Disk.node?_set, if_neg different, stands, if_pos member]
    · intro other different outside
      rw [Disk.node?_set, if_neg different, stands, if_neg outside]

end Settings

end HedgedForecast
