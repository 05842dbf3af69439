import HedgedForecast.Settings.Basic

/-! # Settings from the environment

Two settings may be overridden from outside the settings file: the key of the provider that needs
one, and how long the first provider may run alone. An override that does not make sense is ignored.
-/

namespace HedgedForecast

/-- The overrides, as texts. -/
structure Environment where
  weatherApiKey : Option String := none
  primaryMaxDuration : Option String := none
  deriving DecidableEq, Repr

/-- A number of 64 bits in decimal digits; a plus sign may stand in front. -/
def readDuration? (s : String) : Option UInt64 :=
  let digits := match s.toList with
    | '+' :: rest => rest
    | cs => cs
  let value := digits.foldl (fun n c => n * 10 + (c.toNat - 48)) 0
  if !digits.isEmpty && digits.all Char.isDigit && value < Nat.pow 2 64 then some (UInt64.ofNat value)
  else none

/-- The key to use: a key from outside replaces the one in the settings unless it is empty. -/
def Environment.keyOr (environment : Environment) (key : Option String) : Option String :=
  match environment.weatherApiKey with
  | some "" => key
  | some outside => some outside
  | none => key

/-- The duration to use: one from outside replaces the one in the settings if it is a number. -/
def Environment.durationOr (environment : Environment) (duration : UInt64) : UInt64 :=
  (environment.primaryMaxDuration.bind readDuration?).getD duration

/-- The settings with overrides applied. -/
def Settings.withEnvironment (environment : Environment) (settings : Settings) : Settings :=
  { settings with
    lookup := { settings.lookup with
      primaryMaxDuration := environment.durationOr settings.lookup.primaryMaxDuration }
    providers := { settings.providers with
      weatherApi := { settings.providers.weatherApi with
        apiKey := environment.keyOr settings.providers.weatherApi.apiKey } } }

end HedgedForecast
