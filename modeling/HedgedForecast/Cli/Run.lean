import HedgedForecast.Cli.Arguments
import HedgedForecast.Json.Writer
import HedgedForecast.Service.Assembly
import HedgedForecast.Settings.Store

/-! # The command

What the command does, as a function of its arguments and of the world around it: it loads checked
settings, builds a service from them, looks up one forecast and prints it. Every failure has one
exit code; a command line that cannot be read has another one.
-/

namespace HedgedForecast.Cli

/-- What surrounds the command. -/
structure World where
  environment : Environment := {}
  disk : Disk
  /-- The directory for settings, if there is one. -/
  directory : Option Path
  transport : Web.Transport
  moment : Moment

/-- What the command leaves behind. -/
structure Exit where
  code : Nat
  output : String := ""
  complaint : String := ""
  disk : Disk

/-- Why no forecast is printed. -/
inductive Trouble where
  | noDirectory
  | settings (failure : SettingsFailure)
  /-- The question is no request. -/
  | request (failure : Failure)
  | service (failure : Service.AssemblyFailure)
  | lookup (failure : Failure)
  deriving DecidableEq, Repr

/-- The wording of a trouble. A lookup that failed is told in the words for the person who asked. -/
def Trouble.message : Trouble → String
  | noDirectory => "Failed to get config directory"
  | settings failure => failure.message
  | request failure => failure.message
  | service failure => failure.message
  | lookup failure => failure.advice

/-- The wording of what is behind a trouble. -/
def Trouble.cause? : Trouble → Option String
  | settings failure => failure.cause?
  | service failure => failure.cause?
  | _ => none

/-- How a trouble is told. -/
def Trouble.text (trouble : Trouble) : String :=
  s!"Error: {trouble.message}\n" ++
    match trouble.cause? with
    | some cause => s!"\nCaused by:\n    {cause}\n"
    | none => ""

/-- Checked settings, from the named file or the default one. -/
def loadSettings (world : World) (config : Option String) : Disk × Except Trouble Settings :=
  let load := fun (directory : Path) (path : Option Path) =>
    let (disk, loaded) := Settings.loadValidated world.environment world.disk directory path
    (disk, match loaded with
      | .ok (settings, _) => .ok settings
      | .error failure => .error (.settings failure))
  match config, world.directory with
  | some path, directory => load (directory.getD []) (some (Path.ofText path))
  | none, some directory => load directory none
  | none, none => (world.disk, .error .noDirectory)

/-- The forecast that is asked for under these settings. -/
def forecast (world : World) (arguments : Arguments) (settings : Settings) :
    Except Trouble (List ForecastDay) :=
  match Request.make arguments.city arguments.country arguments.days with
  | .error failure => .error (.request failure)
  | .ok request =>
    match Service.ofSettings world.transport world.moment settings with
    | .error failure => .error (.service failure)
    | .ok service =>
      match (service.lookup request).1 with
      | .error failure => .error (.lookup failure)
      | .ok days => .ok days

/-- Looks up a forecast. -/
def lookup (world : World) (arguments : Arguments) : Exit :=
  let (disk, settings) := loadSettings world arguments.config
  match settings.bind (forecast world arguments) with
  | .ok days =>
    { code := 0, disk
      output := Json.writeIndented 0 (.list (days.map ForecastDay.toData)) ++ "\n" }
  | .error trouble => { code := 1, complaint := trouble.text, disk }

/-- What the command says about its version. -/
def versionText : String :=
  "skycast 0.1.0\n"

/-- What the command says about its use. -/
def helpText : String :=
  s!"Resilient multi-provider weather forecasts\n\n{usage}\n\n" ++
    "Arguments:\n" ++
    "  <CITY>     City name, e.g. \"Prague\"\n" ++
    "  <COUNTRY>  ISO 3166-1 alpha-2 country code, e.g. \"CZ\"\n" ++
    "  [DAYS]     Number of days to forecast (1-14) [default: 3]\n\n" ++
    "Options:\n" ++
    "      --config <CONFIG>  Read configuration from this file instead of the default " ++
    "location\n" ++
    "  -h, --help             Print help\n" ++
    "  -V, --version          Print version\n"

/-- What the command says about a misuse. -/
def misuseText (misuse : Misuse) : String :=
  s!"error: {misuse.message}\n\n{usage}\n\nFor more information, try '--help'.\n"

/-- Runs the command. -/
def run (world : World) (arguments : List String) : Exit :=
  match readArguments arguments with
  | .ok (.lookup arguments) => lookup world arguments
  | .ok .help => { code := 0, output := helpText, disk := world.disk }
  | .ok .version => { code := 0, output := versionText, disk := world.disk }
  | .error misuse => { code := 2, complaint := misuseText misuse, disk := world.disk }

end HedgedForecast.Cli
