import HedgedForecast.Proofs.Disk
import HedgedForecast.Proofs.Settings.Saving
import Mathlib.Data.Nat.Digits.Defs

/-! # Overrides stay off the disk

Loading settings leaves the same disk behind whatever the environment holds: what stood there stays as it is, and a
file that was missing is made with the text of the defaults. The environment changes two settings of what is loaded,
and nothing else.
-/

namespace HedgedForecast

/-- A text is a number in decimal digits, with a plus sign in front or without. -/
def IsNumeral (text : String) (value : UInt64) : Prop :=
  ∃ digits : List Char, digits ≠ [] ∧ (∀ digit ∈ digits, digit.isDigit) ∧
    (text.toList = digits ∨ text.toList = '+' :: digits) ∧
    Nat.ofDigits 10 (digits.reverse.map fun digit => digit.toNat - 48) = value.toNat

theorem foldl_digits (digits : List Char) :
    digits.foldl (fun value digit => value * 10 + (digit.toNat - 48)) 0 =
      Nat.ofDigits 10 (digits.reverse.map fun digit => digit.toNat - 48) := by
  rw [Nat.ofDigits_eq_foldr, List.foldr_map, List.foldr_reverse]
  congr 1
  funext value digit
  simp only [Nat.cast_id]
  omega

/-- Characters without a plus sign in front. -/
def unsigned : List Char → List Char
  | '+' :: rest => rest
  | cs => cs

theorem eq_or_eq_unsigned (cs : List Char) : cs = unsigned cs ∨ cs = '+' :: unsigned cs := by
  unfold unsigned
  split
  · exact .inr rfl
  · exact .inl rfl

theorem unsigned_of_digits {cs digits : List Char} (all : ∀ digit ∈ digits, digit.isDigit)
    (form : cs = digits ∨ cs = '+' :: digits) : unsigned cs = digits := by
  rcases form with rfl | rfl
  · unfold unsigned
    split
    · next rest => exact absurd (all '+' (List.mem_cons_self ..)) (by decide)
    · rfl
  · rfl

/-- Reads digits as a number of 64 bits. -/
def readDigits? (digits : List Char) : Option UInt64 :=
  let value := digits.foldl (fun n c => n * 10 + (c.toNat - 48)) 0
  if !digits.isEmpty && digits.all Char.isDigit && value < Nat.pow 2 64 then some (UInt64.ofNat value) else none

theorem readDuration?_eq (text : String) : readDuration? text = readDigits? (unsigned text.toList) :=
  rfl

theorem readDigits?_eq_some_iff {digits : List Char} {value : UInt64} : readDigits? digits = some value ↔
    digits ≠ [] ∧ (∀ digit ∈ digits, digit.isDigit) ∧
      Nat.ofDigits 10 (digits.reverse.map fun digit => digit.toNat - 48) = value.toNat := by
  rw [← foldl_digits, readDigits?]
  generalize digits.foldl (fun value digit => value * 10 + (digit.toNat - 48)) 0 = number
  simp only [Option.ite_none_right_eq_some, Bool.and_eq_true, Bool.not_eq_true', List.isEmpty_eq_false_iff,
    List.all_eq_true, decide_eq_true_eq, Option.some.injEq, and_assoc, and_congr_right_iff]
  intro _ _
  constructor
  · rintro ⟨short, rfl⟩
    exact (UInt64.toNat_ofNat_of_lt' short).symm
  · rintro rfl
    exact ⟨value.toNat_lt, UInt64.ofNat_toNat⟩

/-- Which texts are read as durations. -/
theorem readDuration?_eq_some_iff {text : String} {value : UInt64} :
    readDuration? text = some value ↔ IsNumeral text value := by
  rw [readDuration?_eq, readDigits?_eq_some_iff]
  constructor
  · rintro ⟨inhabited, all, number⟩
    exact ⟨unsigned text.toList, inhabited, all, eq_or_eq_unsigned _, number⟩
  · rintro ⟨digits, inhabited, all, form, number⟩
    rw [unsigned_of_digits all form]
    exact ⟨inhabited, all, number⟩

/-- The settings without what the environment may change. -/
def Settings.masked (settings : Settings) : Settings :=
  { settings with
    lookup := { settings.lookup with primaryMaxDuration := 0 }
    providers := { settings.providers with
      weatherApi := { settings.providers.weatherApi with apiKey := none } } }

/-- Settings are those of a file but for what the environment says: a key that is not empty replaces the key, and a
number replaces how long the first provider may run alone. -/
structure Environment.Overrides (environment : Environment) (base settings : Settings) : Prop where
  key : ∀ key, environment.weatherApiKey = some key → key ≠ "" → settings.providers.weatherApi.apiKey = some key
  keptKey : (∀ key, environment.weatherApiKey = some key → key = "") →
    settings.providers.weatherApi.apiKey = base.providers.weatherApi.apiKey
  duration : ∀ text value, environment.primaryMaxDuration = some text → IsNumeral text value →
    settings.lookup.primaryMaxDuration = value
  keptDuration : (∀ text value, environment.primaryMaxDuration = some text → ¬IsNumeral text value) →
    settings.lookup.primaryMaxDuration = base.lookup.primaryMaxDuration
  others : settings.masked = base.masked

namespace Environment

variable {environment : Environment} {base settings : Settings}

theorem overrides_withEnvironment : environment.Overrides base (base.withEnvironment environment) where
  key := by
    intro key given inhabited
    simp only [Settings.withEnvironment, keyOr, given]
  keptKey := by
    intro empty
    simp only [Settings.withEnvironment, keyOr]
    split
    · rfl
    · next key different given => exact absurd (empty key given) different
    · rfl
  duration := by
    intro text value given numeral
    simp only [Settings.withEnvironment, durationOr, given, Option.bind_some,
      readDuration?_eq_some_iff.mpr numeral, Option.getD_some]
  keptDuration := by
    intro unread
    have none : environment.primaryMaxDuration.bind readDuration? = none := by
      apply Option.eq_none_iff_forall_ne_some.mpr
      intro value read
      obtain ⟨text, given, numeral⟩ := Option.bind_eq_some_iff.mp read
      exact unread text value given (readDuration?_eq_some_iff.mp numeral)
    simp only [Settings.withEnvironment, durationOr, none, Option.getD_none]
  others := rfl

theorem eq_of_masked (same : settings.masked = base.masked)
    (key : settings.providers.weatherApi.apiKey = base.providers.weatherApi.apiKey)
    (duration : settings.lookup.primaryMaxDuration = base.lookup.primaryMaxDuration) : settings = base := by
  have restored (settings : Settings) : settings = { settings.masked with
      lookup := { settings.masked.lookup with primaryMaxDuration := settings.lookup.primaryMaxDuration }
      providers := { settings.masked.providers with
        weatherApi := { settings.masked.providers.weatherApi with
          apiKey := settings.providers.weatherApi.apiKey } } } := rfl
  rw [restored settings, restored base, same, key, duration]

/-- What the environment makes of settings is determined by what is said of it. -/
theorem overrides_iff : environment.Overrides base settings ↔ settings = base.withEnvironment environment := by
  constructor
  · intro overrides
    have applied : environment.Overrides base (base.withEnvironment environment) := overrides_withEnvironment
    apply eq_of_masked (overrides.others.trans applied.others.symm)
    · by_cases given : ∃ key, environment.weatherApiKey = some key ∧ key ≠ ""
      · obtain ⟨key, given, inhabited⟩ := given
        rw [overrides.key key given inhabited, applied.key key given inhabited]
      · push Not at given
        rw [overrides.keptKey given, applied.keptKey given]
    · by_cases given : ∃ text value, environment.primaryMaxDuration = some text ∧ IsNumeral text value
      · obtain ⟨text, value, given, numeral⟩ := given
        rw [overrides.duration text value given numeral, applied.duration text value given numeral]
      · push Not at given
        rw [overrides.keptDuration given, applied.keptDuration given]
  · rintro rfl
    exact overrides_withEnvironment

end Environment

namespace Settings

/-- The ways of loading settings. -/
inductive Loading where
  /-- From a file that must be there. -/
  | given (path : Path)
  /-- From a file that is made if it is missing. -/
  | orMade (path : Path)
  /-- From the file in the directory for settings, which is made if it is missing. -/
  | standard
  /-- The same for a file or the standard one, with a check of what was loaded. -/
  | checked (path? : Option Path)

namespace Loading

/-- Loads settings in one of the ways. -/
def run (environment : Environment) (directory : Path) (disk : Disk) : Loading → Disk × Except SettingsFailure Settings
  | given path => (disk, loadFrom environment disk path)
  | orMade path => loadOrCreate environment disk path
  | standard => loadOrCreate environment disk (defaultPath directory)
  | checked path? =>
    let (disk, loaded) := loadValidated environment disk directory path?
    (disk, loaded.map Prod.fst)

/-- The file that is loaded. -/
def path (directory : Path) : Loading → Path
  | given path => path
  | orMade path => path
  | standard => defaultPath directory
  | checked path? => path?.getD (defaultPath directory)

/-- Whether the file is made if it is missing. -/
def makes : Loading → Bool
  | given _ => false
  | orMade _ => true
  | standard => true
  | checked path? => path?.isNone

/-- Whether what was loaded is checked. -/
def checks : Loading → Bool
  | checked _ => true
  | _ => false

end Loading

/-- Makes a file with the defaults if it is missing. -/
def ensure (disk : Disk) (path : Path) : Disk × Except SettingsFailure Unit :=
  if (disk.node? path).isSome then (disk, .ok ()) else save disk path {}

variable {environment : Environment} {disk : Disk} {path : Path}

theorem ensure_of_present (present : (disk.node? path).isSome) : ensure disk path = (disk, .ok ()) :=
  if_pos present

theorem ensure_of_blocked (missing : disk.node? path = none) (blocked : disk.Blocked path) :
    ∃ cause, ensure disk path = (disk, .error (.noDirectory cause)) := by
  rw [ensure, missing, if_neg (by decide)]
  exact save_of_blocked blocked

theorem ensure_of_free (missing : disk.node? path = none) (free : ¬disk.Blocked path) :
    ∃ after text, ensure disk path = (after, .ok ()) ∧ toText? {} = some text ∧ disk.Gains after path text := by
  obtain ⟨text, written⟩ := toText?_default
  have vacant : disk.node? path ≠ some .directory := by simp [missing]
  obtain ⟨after, saved, gains⟩ := save_of_free free vacant written
  refine ⟨after, text, ?_, written, gains⟩
  rw [ensure, missing, if_neg (by decide), saved]

theorem loadOrCreate_eq : loadOrCreate environment disk path =
    ((ensure disk path).1, (ensure disk path).2.bind fun _ => loadFrom environment (ensure disk path).1 path) := by
  unfold loadOrCreate ensure
  split
  · rfl
  · rcases save disk path {} with ⟨after, failure | _⟩
    · rfl
    · rfl

theorem loadFrom_eq_ok_iff {settings : Settings} : loadFrom environment disk path = .ok settings ↔
    ∃ text base, disk.readText path = .ok text ∧ ofText? text = some base ∧ environment.Overrides base settings := by
  unfold loadFrom readFile
  cases disk.readText path with
  | error cause => simp [Except.map]
  | ok text =>
    cases parsed : ofText? text with
    | none => simp [Except.map, parsed]
    | some base => simp [Except.map, parsed, Environment.overrides_iff, eq_comm]

namespace Loading

variable {loading : Loading} {directory : Path}

/-- What is done on the disk before the file is read. -/
def prepare (directory : Path) (disk : Disk) (loading : Loading) : Disk × Except SettingsFailure Unit :=
  if loading.makes then ensure disk (loading.path directory) else (disk, .ok ())

/-- What is done with the loaded settings. -/
def deliver (loading : Loading) (settings : Settings) : Except SettingsFailure Settings :=
  if loading.checks then (accept settings).map Prod.fst else .ok settings

theorem deliver_eq_ok_iff {settings other : Settings} : loading.deliver settings = .ok other ↔
    settings = other ∧ (loading.checks = true → settings.check.isValid) := by
  unfold deliver accept
  by_cases checks : loading.checks = true <;> by_cases valid : settings.check.isValid = true <;>
    simp [checks, valid, Except.map]

theorem loadFrom_deliver_eq_ok_iff {settings : Settings} :
    (loadFrom environment disk path).bind loading.deliver = .ok settings ↔
      ∃ text base, disk.readText path = .ok text ∧ ofText? text = some base ∧
        environment.Overrides base settings ∧ (loading.checks = true → settings.check.isValid) := by
  constructor
  · intro returned
    cases loaded : loadFrom environment disk path with
    | error failure =>
      rw [loaded] at returned
      contradiction
    | ok own =>
      rw [loaded] at returned
      obtain ⟨rfl, valid⟩ := deliver_eq_ok_iff.mp returned
      obtain ⟨text, base, present, parsed, overrides⟩ := loadFrom_eq_ok_iff.mp loaded
      exact ⟨text, base, present, parsed, overrides, valid⟩
  · rintro ⟨text, base, present, parsed, overrides, valid⟩
    rw [loadFrom_eq_ok_iff.mpr ⟨text, base, present, parsed, overrides⟩]
    exact deliver_eq_ok_iff.mpr ⟨rfl, valid⟩

/-- All ways of loading do the same one after another: they make the file, if they do, read it, apply the overrides
and check the result, if they do. Only the third of these looks at the environment. -/
theorem run_eq (environment : Environment) (directory : Path) (disk : Disk) (loading : Loading) :
    loading.run environment directory disk =
    ((loading.prepare directory disk).1, (loading.prepare directory disk).2.bind fun _ =>
      (loadFrom environment (loading.prepare directory disk).1 (loading.path directory)).bind loading.deliver) := by
  have unchecked (loaded : Except SettingsFailure Settings) : loaded.bind .ok = loaded := by
    cases loaded <;> rfl
  have delivered (loaded : Except SettingsFailure Settings) :
      (loaded.bind accept).map Prod.fst = loaded.bind fun settings => (accept settings).map Prod.fst := by
    cases loaded <;> rfl
  have made (path : Path) : loadOrCreate environment disk path = ((ensure disk path).1,
      (ensure disk path).2.bind fun _ => (loadFrom environment (ensure disk path).1 path).bind .ok) := by
    rw [loadOrCreate_eq]
    simp only [unchecked]
  cases loading with
  | given path => exact congrArg (disk, ·) (unchecked _).symm
  | orMade path => exact made path
  | standard => exact made (defaultPath directory)
  | checked path? =>
    cases path? with
    | some path => exact congrArg (disk, ·) (delivered _)
    | none =>
      have own : prepare directory disk (checked none) = ensure disk (defaultPath directory) := rfl
      simp only [run, loadValidated, loadOrCreate_eq, own]
      rcases ensure disk (defaultPath directory) with ⟨after, failure | _⟩
      · rfl
      · exact congrArg (after, ·) (delivered _)

/-- What loading leaves behind and what it returns, whatever the environment holds. -/
structure Secluded (loading : Loading) (directory : Path) (disk : Disk) : Prop where
  /-- Two environments leave the same disk. -/
  alike : ∀ first second, (loading.run first directory disk).1 = (loading.run second directory disk).1
  /-- What stands on the disk stays as it is. -/
  kept : ∀ environment place node, disk.node? place = some node →
    (loading.run environment directory disk).1.node? place = some node
  /-- If something stands in the place of the file, nothing changes. -/
  present : (disk.node? (loading.path directory)).isSome →
    ∀ environment, (loading.run environment directory disk).1 = disk
  /-- Nor does anything change if the file is not to be made. -/
  given : loading.makes = false → ∀ environment, (loading.run environment directory disk).1 = disk
  /-- A missing file is made with the text of the defaults. -/
  made : loading.makes = true → disk.node? (loading.path directory) = none → ¬disk.Blocked (loading.path directory) →
    ∃ text, toText? {} = some text ∧
      ∀ environment, disk.Gains (loading.run environment directory disk).1 (loading.path directory) text
  /-- If its directories cannot be made, nothing changes and loading fails. -/
  blocked : loading.makes = true → disk.node? (loading.path directory) = none →
    disk.Blocked (loading.path directory) → ∀ environment, (loading.run environment directory disk).1 = disk ∧
      ∃ cause, (loading.run environment directory disk).2 = .error (.noDirectory cause)
  /-- What is loaded is what the file then holds, with the overrides of the environment; if it is to be checked, it has
  no errors. -/
  returned : ∀ environment settings, (loading.run environment directory disk).2 = .ok settings ↔
    ∃ text base, (loading.run environment directory disk).1.readText (loading.path directory) = .ok text ∧
      ofText? text = some base ∧ environment.Overrides base settings ∧
      (loading.checks = true → settings.check.isValid)

/-- What may become of the disk before the file is read. -/
inductive Prepared (loading : Loading) (directory : Path) (disk : Disk) : Disk × Except SettingsFailure Unit → Prop
  | untouched (settled : loading.makes = false ∨ (disk.node? (loading.path directory)).isSome) :
    Prepared loading directory disk (disk, .ok ())
  | refused {cause : DiskError} (makes : loading.makes = true) (missing : disk.node? (loading.path directory) = none)
    (blocked : disk.Blocked (loading.path directory)) :
    Prepared loading directory disk (disk, .error (.noDirectory cause))
  | made {after : Disk} {text : String} (makes : loading.makes = true)
    (missing : disk.node? (loading.path directory) = none) (free : ¬disk.Blocked (loading.path directory))
    (written : toText? {} = some text) (gains : disk.Gains after (loading.path directory) text) :
    Prepared loading directory disk (after, .ok ())

theorem prepared (loading : Loading) (directory : Path) (disk : Disk) :
    Prepared loading directory disk (loading.prepare directory disk) := by
  unfold prepare
  split
  · next makes =>
    cases standing : disk.node? (loading.path directory) with
    | some node =>
      have present : (disk.node? (loading.path directory)).isSome := by rw [standing]; rfl
      rw [ensure_of_present present]
      exact .untouched (.inr present)
    | none =>
      by_cases blocked : disk.Blocked (loading.path directory)
      · obtain ⟨cause, refused⟩ := ensure_of_blocked standing blocked
        rw [refused]
        exact .refused makes standing blocked
      · obtain ⟨after, text, made, written, gains⟩ := ensure_of_free standing blocked
        rw [made]
        exact .made makes standing blocked written gains
  · next makes => exact .untouched (.inl (Bool.eq_false_of_not_eq_true makes))

/-- Loading settings never shows the environment to the disk. -/
theorem secluded (loading : Loading) (directory : Path) (disk : Disk) : loading.Secluded directory disk := by
  have prepared := prepared loading directory disk
  have left (environment : Environment) :
      (loading.run environment directory disk).1 = (loading.prepare directory disk).1 := by
    rw [run_eq]
  have result (environment : Environment) : (loading.run environment directory disk).2 =
      (loading.prepare directory disk).2.bind fun _ =>
        (loadFrom environment (loading.prepare directory disk).1 (loading.path directory)).bind loading.deliver := by
    rw [run_eq]
  constructor
  case alike =>
    intro first second
    rw [left, left]
  all_goals
    simp only [left, result]
    generalize loading.prepare directory disk = outcome at prepared
  case kept =>
    intro _ place node there
    cases prepared with
    | untouched | refused => exact there
    | made _ missing free _ gains => exact gains.kept missing free there
  case present =>
    intro present _
    cases prepared with
    | untouched | refused => rfl
    | made _ missing => simp [missing] at present
  case given =>
    intro given _
    cases prepared with
    | untouched | refused => rfl
    | made makes => simp [given] at makes
  case made =>
    intro makes missing free
    cases prepared with
    | untouched settled => simp [makes, missing] at settled
    | refused _ _ blocked => exact absurd blocked free
    | made _ _ _ written gains => exact ⟨_, written, fun _ => gains⟩
  case blocked =>
    intro makes missing blocked _
    cases prepared with
    | untouched settled => simp [makes, missing] at settled
    | refused => exact ⟨rfl, _, rfl⟩
    | made _ _ free => exact absurd blocked free
  case returned =>
    intro environment settings
    cases prepared with
    | untouched | made => exact loadFrom_deliver_eq_ok_iff
    | refused _ missing =>
      constructor
      · exact nofun
      · rintro ⟨text, _, present, _⟩
        exact absurd present (Disk.readText_of_missing missing)

end Loading

end Settings

end HedgedForecast
