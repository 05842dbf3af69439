import HedgedForecast.Data.Basic

/-! # Weather conditions

Ten conditions, each with a name for data and a wording for people, and the table of the
meteorological code numbers that stand for them. A number outside the table counts as clear.
-/

namespace HedgedForecast

/-- What the weather is like. -/
inductive Condition where
  | clear
  | partlyCloudy
  | cloudy
  | fog
  | drizzle
  | rain
  | heavyRain
  | snow
  | sleet
  | thunderstorm
  deriving DecidableEq, Repr, Inhabited

namespace Condition

/-- Every condition. -/
def all : List Condition :=
  [clear, partlyCloudy, cloudy, fog, drizzle, rain, heavyRain, snow, sleet, thunderstorm]

/-- The condition of a code number. -/
def ofCode (code : Int) : Condition :=
  if code == 1 || code == 2 then partlyCloudy
  else if code == 3 then cloudy
  else if code == 45 || code == 48 then fog
  else if code == 51 || code == 53 || code == 55 then drizzle
  else if code == 56 || code == 57 || code == 66 || code == 67 then sleet
  else if code == 61 || code == 63 || code == 80 then rain
  else if code == 65 || code == 81 || code == 82 then heavyRain
  else if [71, 73, 75, 77, 85, 86].contains code then snow
  else if code == 95 || code == 96 || code == 99 then thunderstorm
  else clear

/-- The wording of a condition. -/
def description : Condition → String
  | clear => "Clear"
  | partlyCloudy => "Partly cloudy"
  | cloudy => "Cloudy"
  | fog => "Fog"
  | drizzle => "Drizzle"
  | rain => "Rain"
  | heavyRain => "Heavy rain"
  | snow => "Snow"
  | sleet => "Sleet"
  | thunderstorm => "Thunderstorm"

/-- The name of a condition in data. -/
def name : Condition → String
  | clear => "clear"
  | partlyCloudy => "partly_cloudy"
  | cloudy => "cloudy"
  | fog => "fog"
  | drizzle => "drizzle"
  | rain => "rain"
  | heavyRain => "heavy_rain"
  | snow => "snow"
  | sleet => "sleet"
  | thunderstorm => "thunderstorm"

/-- The condition with a name. -/
def ofName? (name : String) : Option Condition :=
  all.find? (·.name == name)

/-- A condition in data: its name, or a record with its name as the only field and null in it. -/
def ofData? : Data → Option Condition
  | .text name => ofName? name
  | .record [(name, .null)] => ofName? name
  | _ => none

theorem ofName?_name (condition : Condition) : ofName? condition.name = some condition := by
  cases condition <;> rfl

end Condition

end HedgedForecast
