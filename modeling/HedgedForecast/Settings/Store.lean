import HedgedForecast.Disk
import HedgedForecast.Settings.Codec
import HedgedForecast.Settings.Environment
import HedgedForecast.Settings.Validation
import HedgedForecast.Toml.Reader
import HedgedForecast.Toml.Writer

/-! # Keeping settings in a file

Settings are saved as a whole and loaded with defaults for what is missing. Overrides from the
environment only touch the loaded value, never the file. Validated loading refuses settings with
errors and reports warnings.
-/

namespace HedgedForecast

/-- Why settings could not be loaded or saved. -/
inductive SettingsFailure where
  | unreadable (path : String) (cause : DiskError)
  | malformed (path reason : String)
  | rejected (summary : String)
  | noDirectory (cause : DiskError)
  | unwritable (cause : DiskError)
  /-- A number is too large for a settings file. -/
  | unrepresentable
  deriving DecidableEq, Repr

namespace SettingsFailure

/-- The wording of a failure. -/
def message : SettingsFailure → String
  | unreadable path _ => s!"Failed to read config file {path}"
  | malformed path reason => s!"Config file {path} is malformed: {reason}"
  | rejected summary => s!"Config rejected: {summary}"
  | noDirectory _ => "Failed to create config directory"
  | unwritable _ => "Failed to write config file"
  | unrepresentable => "Failed to serialize config"

/-- The wording of what is behind a failure. -/
def cause? : SettingsFailure → Option String
  | unreadable _ cause => some cause.message
  | noDirectory cause => some cause.message
  | unwritable cause => some cause.message
  | unrepresentable => some "out-of-range value for u64 type"
  | malformed _ _ => none
  | rejected _ => none

end SettingsFailure

namespace Settings

/-- The text of a settings file. -/
def toText? (settings : Settings) : Option String :=
  Toml.write? settings.toData

/-- Reads the text of a settings file. -/
def ofText? (text : String) : Option Settings :=
  (Toml.read? text).bind (ofData? .ignored)

/-- The settings in a file, without overrides. -/
def readFile (disk : Disk) (path : Path) : Except SettingsFailure Settings :=
  match disk.readText path with
  | .error cause => .error (.unreadable path.text cause)
  | .ok text =>
    match ofText? text with
    | some settings => .ok settings
    | none => .error (.malformed path.text "not a settings file")

/-- The settings in a file, with overrides. -/
def loadFrom (environment : Environment) (disk : Disk) (path : Path) :
    Except SettingsFailure Settings :=
  (readFile disk path).map (withEnvironment environment)

/-- Saves settings; directories above the file are made first, even if the rest fails. -/
def save (disk : Disk) (path : Path) (settings : Settings) : Disk × Except SettingsFailure Unit :=
  match disk.makeDirectories path.dropLast with
  | .error cause => (disk, .error (.noDirectory cause))
  | .ok disk =>
    match settings.toText? with
    | none => (disk, .error .unrepresentable)
    | some text =>
      match disk.writeText path text with
      | .error cause => (disk, .error (.unwritable cause))
      | .ok disk => (disk, .ok ())

/-- The settings in a file, which is made with the defaults if there is none. -/
def loadOrCreate (environment : Environment) (disk : Disk) (path : Path) :
    Disk × Except SettingsFailure Settings :=
  if (disk.node? path).isSome then (disk, loadFrom environment disk path)
  else
    match save disk path {} with
    | (disk, .error failure) => (disk, .error failure)
    | (disk, .ok ()) => (disk, loadFrom environment disk path)

/-- The settings file in the directory for settings. -/
def defaultPath (directory : Path) : Path :=
  directory ++ ["skycast", "config.toml"]

/-- Refuses settings with errors. -/
def accept (settings : Settings) : Except SettingsFailure (Settings × Findings) :=
  let findings := settings.check
  if findings.isValid then .ok (settings, findings) else .error (.rejected findings.summary)

/-- Loads and checks settings: from the given file, or else from the default one, which is made if
there is none. -/
def loadValidated (environment : Environment) (disk : Disk) (directory : Path) :
    Option Path → Disk × Except SettingsFailure (Settings × Findings)
  | some path => (disk, (loadFrom environment disk path).bind accept)
  | none =>
    let (disk, loaded) := loadOrCreate environment disk (defaultPath directory)
    (disk, loaded.bind accept)

end Settings

end HedgedForecast
