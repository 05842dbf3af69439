import HedgedForecast.Condition
import HedgedForecast.Coordinates
import HedgedForecast.Day
import HedgedForecast.Request
import HedgedForecast.Web.Exchange

/-! # The provider without key

Its answers have one column for each quantity. Columns may have gaps and different lengths: each
date needs a maximum and a minimum at its own place, and what else is missing there is made up.
-/

namespace HedgedForecast.OpenMeteo

/-- The name of the provider. -/
def name : String := "open_meteo"

/-- The columns of an answer. -/
structure Columns where
  dates : List Date
  codes : List (Option Int)
  maxima : List (Option Float)
  minima : List (Option Float)
  means : List (Option Float)
  deriving Repr

/-- A code number in data. -/
def codeOfData? (data : Data) : Option Int :=
  data.asInt? (-Int.pow 2 31) (Int.pow 2 31 - 1)

/-- A column in data. -/
def columnOfData? {α : Type} (item : Data → Option α) : Data → Option (List (Option α)) :=
  Data.asList? (Data.asOption? item)

/-- The names of the columns, in order. -/
def columnNames : List String :=
  ["time", "weather_code", "temperature_2m_max", "temperature_2m_min", "temperature_2m_mean"]

/-- The columns in data. -/
def Columns.ofData? (data : Data) : Option Columns := do
  let fields ← data.fields? columnNames .refused
  return {
    dates := ← fields.required? "time" (Data.asList? ForecastDay.dateOfData?)
    codes := ← fields.withDefault? "weather_code" [] (columnOfData? codeOfData?)
    maxima := ← fields.required? "temperature_2m_max" (columnOfData? Data.asFloat?)
    minima := ← fields.required? "temperature_2m_min" (columnOfData? Data.asFloat?)
    means := ← fields.withDefault? "temperature_2m_mean" [] (columnOfData? Data.asFloat?) }

/-- The columns in the data of an answer. -/
def columns? (data : Data) : Option Columns := do
  let fields ← data.fields? ["daily"] .refused
  fields.required? "daily" Columns.ofData?

/-- The value at a place of a column, if there is one. -/
def at? {α : Type} (column : List (Option α)) (place : Nat) : Option α :=
  column[place]?.join

/-- The day at a place of the columns. -/
def dayAt (columns : Columns) (place : Nat) (date : Date) : Except Failure ForecastDay :=
  match at? columns.maxima place, at? columns.minima place with
  | some maximum, some minimum =>
    let condition := ((at? columns.codes place).map Condition.ofCode).getD .clear
    .ok { date, minimum, maximum
          average := (at? columns.means place).getD ((maximum + minimum) / 2.0)
          condition := condition.description }
  | _, _ => .error (.providerFailed name s!"missing temperatures for {date}")

/-- The days of dates that stand at consecutive places. -/
def daysFrom (columns : Columns) : Nat → List Date → Except Failure (List ForecastDay)
  | _, [] => .ok []
  | place, date :: rest =>
    match dayAt columns place date with
    | .error failure => .error failure
    | .ok day => (daysFrom columns (place + 1) rest).map (day :: ·)

/-- The days that the columns describe. -/
def daysOf (columns : Columns) : Except Failure (List ForecastDay) :=
  daysFrom columns 0 columns.dates

/-- What an answer says. -/
def interpret (answer : Web.Answer) : Except Failure (List ForecastDay) :=
  if !Web.isSuccess answer.status then
    .error (.providerFailed name s!"HTTP {Web.statusText answer.status}")
  else
    match answer.decode columns? with
    | .error failure => .error (.ofNetwork name failure)
    | .ok columns => daysOf columns

/-- Asks for the days at a place, as the provider tells them. -/
def ask (transport : Web.Transport) (base : String) (place : Coordinates) (days : Nat) :
    Option (Except Failure (List ForecastDay)) :=
  let fields := [("latitude", Decimal.plain place.latitude),
    ("longitude", Decimal.plain place.longitude),
    ("daily", "weather_code,temperature_2m_max,temperature_2m_min,temperature_2m_mean"),
    ("forecast_days", toString days), ("timezone", "auto")]
  (Web.exchange transport (Web.addressOf base "/v1/forecast") fields none).map fun
    | .error failure => .error (.ofNetwork name failure)
    | .ok answer => interpret answer

/-- Asks for the forecast at the place of a request. -/
def forecastAt (transport : Web.Transport) (base : String) (place : Coordinates)
    (request : Request) : Option (Except Failure (List ForecastDay)) :=
  (ask transport base place request.days).map fun result =>
    result.bind (Forecast.normalise name request.days)

/-- The forecast for a request whose city was or was not located, under a deadline. -/
def forecast (transport : Web.Transport) (base : String) (clock : Clock) (deadline : Deadline)
    (located : Except GeoFailure Coordinates) (request : Request) :
    Except Failure (List ForecastDay) :=
  match located with
  | .error failure => .error (.ofGeo failure)
  | .ok place =>
    match Web.guarded clock deadline (forecastAt transport base place request) with
    | .cancelled => .error .cancelled
    | .expired => .error (.timeout .provider)
    | .done result => result

end HedgedForecast.OpenMeteo
