import HedgedForecast.Coordinates
import HedgedForecast.Country
import HedgedForecast.Web.Exchange

/-! # Locating cities

A search service gives places for the name of a city. The first place that is confirmed to be in the
country counts; a place without a country code is not confirmed.
-/

namespace HedgedForecast.Geocoder

/-- A place that the search found. -/
structure Candidate where
  place : Coordinates
  country : Option String
  deriving Repr

/-- A found place in data. -/
def Candidate.ofData? (data : Data) : Option Candidate := do
  let fields ← data.fields? ["latitude", "longitude", "country_code", "name"] .refused
  let latitude ← fields.required? "latitude" Data.asFloat?
  let longitude ← fields.required? "longitude" Data.asFloat?
  let country ← fields.optional? "country_code" Data.asText?
  let _ ← fields.optional? "name" Data.asText?
  return ⟨⟨latitude, longitude⟩, country⟩

/-- The found places in the answer of a search. -/
def candidates? (data : Data) : Option (List Candidate) := do
  let fields ← data.fields? ["results"] .refused
  fields.withDefault? "results" [] (Data.asList? Candidate.ofData?)

/-- Whether a code is that of a country, in letters of either case. -/
def Candidate.isIn (candidate : Candidate) (country : Country) : Bool :=
  match candidate.country with
  | some code => code.toList.map Char.toUpper == country.toChars
  | none => false

/-- The place of a city, of those found. -/
def choose (city : String) (country : Country) (found : List Candidate) :
    Except GeoFailure Coordinates :=
  match found.find? (·.isIn country) with
  | some candidate => .ok candidate.place
  | none => .error (.notFound city country.code)

/-- What the answer of a search says. -/
def interpret (city : String) (country : Country) (answer : Web.Answer) :
    Except GeoFailure Coordinates :=
  if !Web.isSuccess answer.status then
    .error (.searchFailed s!"HTTP {Web.statusText answer.status}")
  else
    match answer.decode candidates? with
    | .error failure => .error (.ofNetwork failure)
    | .ok found => choose city country found

/-- Searches a city. -/
def search (transport : Web.Transport) (base city : String) (country : Country) :
    Option (Except GeoFailure Coordinates) :=
  let fields := [("name", city), ("count", "10"), ("language", "en"), ("format", "json"),
    ("countryCode", country.code)]
  (Web.exchange transport (Web.addressOf base "/v1/search") fields none).map fun
    | .error failure => .error (.ofNetwork failure)
    | .ok answer => interpret city country answer

/-- Locates a city under a deadline. -/
def resolve (transport : Web.Transport) (base : String) (clock : Clock) (deadline : Deadline)
    (city : String) (country : Country) : Except GeoFailure Coordinates :=
  match Web.guarded clock deadline (search transport base city country) with
  | .cancelled => .error .cancelled
  | .expired => .error .timeout
  | .done result => result

end HedgedForecast.Geocoder
