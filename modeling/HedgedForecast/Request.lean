import HedgedForecast.Country
import HedgedForecast.Data.Basic
import HedgedForecast.Failure
import HedgedForecast.Text.Upper

/-! # Requests

A request asks for the weather of a city in a country on a number of days. Its city has no blanks
around it and is not empty, its number of days is within bounds. Requests that differ only in the
case of the city have the same cache key.
-/

namespace HedgedForecast

/-- The most days that a request may ask for. -/
def maxForecastDays : Nat := 14

/-- A question for a forecast. -/
structure Request where
  city : String
  country : Country
  days : Nat
  city_ne_empty : city ≠ ""
  days_bounds : 1 ≤ days ∧ days ≤ maxForecastDays
  deriving DecidableEq, Repr

namespace Request

/-- Builds a request; a blank city is reported before a wrong number of days. -/
def make (city : String) (country : Country) (days : Nat) : Except Failure Request :=
  let city := Text.trim city
  if hc : city = "" then .error (.invalidRequest "city must not be empty")
  else if hd : 1 ≤ days ∧ days ≤ maxForecastDays then .ok ⟨city, country, days, hc, hd⟩
  else .error (.invalidRequest s!"days must be between 1 and {maxForecastDays}, got {days}")

/-- Builds a request from texts; a bad country is reported first. -/
def parse (city country : String) (days : Nat) : Except Failure Request :=
  match Country.parse? country with
  | some country => make city country days
  | none => .error (.badCountry country)

/-- What requests for the same forecast have in common. -/
def cacheKey (request : Request) : String :=
  "forecast:" ++ Text.upper request.city ++ ":" ++ request.country.code ++ ":" ++
    toString request.days

instance : ToString Request :=
  ⟨fun request => s!"{request.city}, {request.country} ({request.days}d)"⟩

/-- The fields of a request as data. -/
def toData (request : Request) : Data :=
  .record [("city", .text request.city), ("country_code", .text request.country.code),
    ("days", .int request.days)]

end Request

end HedgedForecast
