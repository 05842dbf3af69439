import HedgedForecast.Coordinates
import HedgedForecast.Day
import HedgedForecast.Request
import HedgedForecast.Web.Exchange

/-! # The provider with key

Its answers have one record for each day. A refused request tells a code, one of which means that
there is no such place.
-/

namespace HedgedForecast.WeatherApi

/-- The name of the provider. -/
def name : String := "weather_api"

/-- The code that means that there is no such place. -/
def noSuchPlace : Int := 1006

/-- A weather description in data, without blanks around it. -/
def conditionOfData? (data : Data) : Option String := do
  let fields ← data.fields? ["text"] .refused
  (fields.required? "text" Data.asText?).map Text.trim

/-- The weather of a date in data. -/
def summaryOfData? (date : Date) (data : Data) : Option ForecastDay := do
  let fields ← data.fields? ["maxtemp_c", "mintemp_c", "avgtemp_c", "condition"] .refused
  let maximum ← fields.required? "maxtemp_c" Data.asFloat?
  let minimum ← fields.required? "mintemp_c" Data.asFloat?
  let average ← fields.required? "avgtemp_c" Data.asFloat?
  let condition ← fields.required? "condition" conditionOfData?
  return { date, minimum, maximum, average, condition }

/-- A day in data. -/
def dayOfData? (data : Data) : Option ForecastDay := do
  let fields ← data.fields? ["date", "day"] .refused
  let date ← fields.required? "date" ForecastDay.dateOfData?
  fields.required? "day" (summaryOfData? date)

/-- The days in the data of an answer. -/
def days? (data : Data) : Option (List ForecastDay) := do
  let fields ← data.fields? ["forecast"] .refused
  fields.required? "forecast" fun forecast => do
    let fields ← forecast.fields? ["forecastday"] .refused
    fields.required? "forecastday" (Data.asList? dayOfData?)

/-- The code and the text in the data of a refusal. -/
def refusal? (data : Data) : Option (Int × String) := do
  let fields ← data.fields? ["error"] .refused
  fields.required? "error" fun detail => do
    let fields ← detail.fields? ["code", "message"] .refused
    let code ← fields.required? "code" (Data.asInt? (-Int.pow 2 63) (Int.pow 2 63 - 1))
    let text ← fields.required? "message" Data.asText?
    return (code, text)

/-- What a refused request means. -/
def refusal (request : Request) (answer : Web.Answer) : Failure :=
  match answer.decode refusal? with
  | .ok (code, text) =>
    if code == noSuchPlace then .cityNotFound request.city request.country.code
    else .providerFailed name s!"API error {code}: {text}"
  | .error _ => .providerFailed name "HTTP 400"

/-- What an answer says. -/
def interpret (request : Request) (answer : Web.Answer) : Except Failure (List ForecastDay) :=
  if answer.status == 400 then .error (refusal request answer)
  else if !Web.isSuccess answer.status then
    .error (.providerFailed name s!"HTTP {Web.statusText answer.status}")
  else
    match answer.decode days? with
    | .error failure => .error (.ofNetwork name failure)
    | .ok days => .ok days

/-- Asks for the days at a place, as the provider tells them. -/
def ask (transport : Web.Transport) (base key : String) (place : Coordinates) (request : Request) :
    Option (Except Failure (List ForecastDay)) :=
  let fields := [("key", key),
    ("q", Decimal.plain place.latitude ++ "," ++ Decimal.plain place.longitude),
    ("days", toString request.days), ("aqi", "no"), ("alerts", "no")]
  (Web.exchange transport (Web.addressOf base "/v1/forecast.json") fields none).map fun
    | .error failure => .error (.ofNetwork name failure)
    | .ok answer => interpret request answer

/-- Asks for the forecast at the place of a request. -/
def forecastAt (transport : Web.Transport) (base key : String) (place : Coordinates)
    (request : Request) : Option (Except Failure (List ForecastDay)) :=
  (ask transport base key place request).map fun result =>
    result.bind (Forecast.normalise name request.days)

/-- The forecast for a request whose city was or was not located, under a deadline. -/
def forecast (transport : Web.Transport) (base key : String) (clock : Clock) (deadline : Deadline)
    (located : Except GeoFailure Coordinates) (request : Request) :
    Except Failure (List ForecastDay) :=
  match located with
  | .error failure => .error (.ofGeo failure)
  | .ok place =>
    match Web.guarded clock deadline (forecastAt transport base key place request) with
    | .cancelled => .error .cancelled
    | .expired => .error (.timeout .provider)
    | .done result => result

end HedgedForecast.WeatherApi
