import HedgedForecast.Country

/-! # Command lines

A command line names a city, a country and possibly a number of days, in this order, and may name a
settings file anywhere. Arguments are looked at from left to right; a value counts as soon as the
argument after it has been recognised, so a bad value is reported before help or version is given.
-/

namespace HedgedForecast.Cli

/-- A lookup that is asked for. -/
structure Arguments where
  city : String
  country : Country
  days : Nat
  /-- The settings file to use instead of the default one. -/
  config : Option String
  deriving DecidableEq, Repr

/-- What a command line asks for. -/
inductive Command where
  | lookup (arguments : Arguments)
  | help
  | version
  deriving DecidableEq, Repr

/-- What a value is given for. -/
inductive Slot where
  | city
  | country
  | days
  | config
  deriving DecidableEq, Repr

/-- How a slot is called. -/
def Slot.label : Slot → String
  | city => "<CITY>"
  | country => "<COUNTRY>"
  | days => "[DAYS]"
  | config => "--config <CONFIG>"

/-- What is wrong with a command line. -/
inductive Misuse where
  | unexpected (argument : String)
  | badValue (slot : Slot) (value : String)
  | noValue (slot : Slot)
  | repeated (slot : Slot)
  | missing (slots : List Slot)
  deriving DecidableEq, Repr

/-- How a command line is written. -/
def usage : String :=
  "Usage: skycast [OPTIONS] <CITY> <COUNTRY> [DAYS]"

/-- The wording of a misuse. -/
def Misuse.message : Misuse → String
  | unexpected argument => s!"unexpected argument '{argument}' found"
  | badValue slot value => s!"invalid value '{value}' for '{slot.label}'"
  | noValue slot => s!"a value is required for '{slot.label}' but none was supplied"
  | repeated slot => s!"the argument '{slot.label}' cannot be used multiple times"
  | missing slots =>
    "the following required arguments were not provided:" ++
      String.join (slots.map fun slot => "\n  " ++ slot.label)

/-- The number of days if none is given. -/
def defaultDays : Nat := 3

/-- What is known of a command line so far. -/
structure Progress where
  city : Option String := none
  country : Option Country := none
  days : Option Nat := none
  config : Option String := none
  /-- The slots of the coming values without a flag. -/
  slots : List Slot := [.city, .country, .days]
  /-- Whether the next argument is the value of a flag. -/
  expecting : Bool := false
  /-- A value that was read and does not count yet. -/
  pending : Option (Slot × String) := none
  /-- Whether flags are no longer recognised. -/
  valuesOnly : Bool := false

/-- A number of days that fits a byte; a sign may stand in front. -/
def readDays? (s : String) : Option Nat :=
  let (negative, digits) := match s.toList with
    | '-' :: rest => (true, rest)
    | '+' :: rest => (false, rest)
    | cs => (false, cs)
  let value := digits.foldl (fun n c => n * 10 + (c.toNat - 48)) 0
  if digits.isEmpty || !digits.all Char.isDigit then none
  else if value < 256 && (!negative || value == 0) then some value
  else none

namespace Progress

/-- Lets a value count. -/
def fill (progress : Progress) (slot : Slot) (value : String) : Except Misuse Progress :=
  match slot with
  | .city => .ok { progress with city := some value }
  | .country =>
    match Country.parse? value with
    | some country => .ok { progress with country := some country }
    | none => .error (.badValue slot value)
  | .days =>
    match readDays? value with
    | some days => .ok { progress with days := some days }
    | none => .error (.badValue slot value)
  | .config =>
    if progress.config.isSome then .error (.repeated slot)
    else if value == "" then .error (.noValue slot)
    else .ok { progress with config := some value }

/-- Lets the pending value count. -/
def settle (progress : Progress) : Except Misuse Progress :=
  match progress.pending with
  | some (slot, value) => { progress with pending := none }.fill slot value
  | none => .ok progress

/-- Reads a value without a flag. -/
def take (progress : Progress) (value : String) : Except Misuse Progress :=
  match progress.slots with
  | slot :: rest =>
    progress.settle.map fun progress =>
      { progress with slots := rest, pending := some (slot, value) }
  | [] => .error (.unexpected value)

/-- What is asked for at the end of a command line. -/
def finish (progress : Progress) : Except Misuse Command :=
  if progress.expecting then .error (.noValue .config)
  else progress.settle.bind fun progress =>
    match progress.city, progress.country with
    | some city, some country =>
      .ok (.lookup ⟨city, country, progress.days.getD defaultDays, progress.config⟩)
    | none, _ => .error (.missing [.city, .country])
    | some _, none => .error (.missing [.country])

end Progress

/-- Whether an argument is written like a flag; a lone dash is not. -/
def isFlag (argument : String) : Bool :=
  match argument.toList with
  | '-' :: _ :: _ => true
  | _ => false

/-- The name of a long flag and the value attached to it. -/
def splitFlag (argument : String) : String × Option String :=
  let (name, rest) := argument.toList.span (· != '=')
  (String.ofList name, match rest with
    | _ :: value => some (String.ofList value)
    | [] => none)

/-- What a flag does by itself, without a value. -/
def ask? (argument : String) : Option Command :=
  if argument == "--help" || "-h".toList.isPrefixOf argument.toList then some .help
  else if argument == "--version" || "-V".toList.isPrefixOf argument.toList then some .version
  else none

/-- What is known after an argument: enough for an answer, or a part. -/
inductive Reading where
  | answer (command : Command)
  | part (progress : Progress)

namespace Progress

/-- Reads the value of a flag. -/
def expected (progress : Progress) (value : String) : Except Misuse Progress :=
  if isFlag value then .error (.noValue .config)
  else .ok { progress with expecting := false, pending := some (.config, value) }

/-- Reads a flag. -/
def flag (progress : Progress) (argument : String) : Except Misuse Reading :=
  match ask? argument, splitFlag argument with
  | some command, _ => progress.settle.map fun _ => .answer command
  | none, ("--config", some value) => (progress.settle.bind (·.fill .config value)).map .part
  | none, ("--config", none) =>
    progress.settle.map fun progress => .part { progress with expecting := true }
  | none, _ => .error (.unexpected argument)

/-- Reads an argument. -/
def read (progress : Progress) (argument : String) : Except Misuse Reading :=
  if progress.expecting then (progress.expected argument).map .part
  else if progress.valuesOnly || !isFlag argument then (progress.take argument).map .part
  else if argument == "--" then .ok (.part { progress with valuesOnly := true })
  else progress.flag argument

/-- Reads the arguments that are left. -/
def readAll (progress : Progress) : List String → Except Misuse Command
  | [] => progress.finish
  | argument :: rest =>
    match progress.read argument with
    | .ok (.answer command) => .ok command
    | .ok (.part progress) => progress.readAll rest
    | .error misuse => .error misuse

end Progress

/-- Reads a command line. -/
def readArguments (arguments : List String) : Except Misuse Command :=
  ({} : Progress).readAll arguments

end HedgedForecast.Cli
