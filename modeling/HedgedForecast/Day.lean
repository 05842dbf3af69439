import HedgedForecast.Calendar.Date
import HedgedForecast.Data.Fields
import HedgedForecast.Failure

/-! # Days of a forecast

A forecast is a list of days. Providers may return days out of order, repeated, or more than asked
for: `normalise` sorts them by date, keeps the first of each date and cuts to the requested number.
A provider with too few dates has failed.
-/

namespace HedgedForecast

/-- The weather of one day; temperatures are in degrees Celsius. -/
structure ForecastDay where
  date : Date
  minimum : Float
  maximum : Float
  average : Float
  condition : String
  deriving DecidableEq, Repr

namespace ForecastDay

/-- The fields of a day as data. -/
def toData (day : ForecastDay) : Data :=
  .record [("date", .text (toString day.date)), ("min_temp_c", .float day.minimum),
    ("max_temp_c", .float day.maximum), ("avg_temp_c", .float day.average),
    ("condition_text", .text day.condition)]

/-- The names of the fields, in order. -/
def fieldNames : List String :=
  ["date", "min_temp_c", "max_temp_c", "avg_temp_c", "condition_text"]

/-- A date in data. -/
def dateOfData? (data : Data) : Option Date :=
  data.asText?.bind Date.parse?

/-- A day in data. -/
def ofData? (data : Data) : Option ForecastDay := do
  let fields ← data.fields? fieldNames .refused
  return {
    date := ← fields.required? "date" dateOfData?
    minimum := ← fields.required? "min_temp_c" Data.asFloat?
    maximum := ← fields.required? "max_temp_c" Data.asFloat?
    average := ← fields.required? "avg_temp_c" Data.asFloat?
    condition := ← fields.required? "condition_text" Data.asText? }

end ForecastDay

namespace Forecast

/-- Leaves out days on the given date and days whose predecessor has their date. -/
def dropRepeats (last : Date) : List ForecastDay → List ForecastDay
  | [] => []
  | day :: rest =>
    if day.date = last then dropRepeats last rest else day :: dropRepeats day.date rest

/-- The first of each run of days with one date. -/
def firstOfEachDate : List ForecastDay → List ForecastDay
  | [] => []
  | day :: rest => day :: dropRepeats day.date rest

/-- Days in the order of their dates; days with one date keep their order. -/
def sortByDate (days : List ForecastDay) : List ForecastDay :=
  days.mergeSort fun a b => decide (a.date ≤ b.date)

/-- The requested number of days, in ascending order and without repeated dates. -/
def normalise (provider : String) (wanted : Nat) (days : List ForecastDay) :
    Except Failure (List ForecastDay) :=
  let distinct := firstOfEachDate (sortByDate days)
  if distinct.length < wanted then
    .error (.providerFailed provider s!"returned {distinct.length} of {wanted} requested days")
  else .ok (distinct.take wanted)

end Forecast

end HedgedForecast
