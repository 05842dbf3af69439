import HedgedForecast.Text.Quoted

/-! # Failures

Why a lookup gives no forecast, in three layers: what may go wrong on the network, in finding a
city, and in the lookup as a whole. Each layer has one wording and one map into the next.
-/

namespace HedgedForecast

/-- Where time ran out. -/
inductive Stage where
  | geocoding
  | provider
  | factory
  | request
  deriving DecidableEq, Repr

/-- The wording of a stage. -/
def Stage.message : Stage → String
  | geocoding => "geocoding"
  | provider => "provider call"
  | factory => "factory hard timeout"
  | request => "request deadline"

/-- How an exchange with a server failed. -/
inductive NetworkFailure where
  | unreachable (detail : String)
  | timeout
  | status (code : Nat) (detail : String)
  | body (detail : String)
  deriving DecidableEq, Repr

/-- The wording of a network failure. -/
def NetworkFailure.message : NetworkFailure → String
  | unreachable detail => s!"Upstream unreachable: {detail}"
  | timeout => "Upstream did not answer in time"
  | status code detail => s!"Upstream answered HTTP {code}: {detail}"
  | body detail => s!"Unreadable upstream body: {detail}"

/-- Why a city was not located. -/
inductive GeoFailure where
  | notFound (city country : String)
  | timeout
  | cancelled
  | searchFailed (detail : String)
  deriving DecidableEq, Repr

namespace GeoFailure

/-- The wording of a failure to locate. -/
def message : GeoFailure → String
  | notFound city country => s!"No location matches {city}, {country}"
  | timeout => "Geocoding timed out"
  | cancelled => "Geocoding cancelled"
  | searchFailed detail => s!"Geocoding failed: {detail}"

/-- A network failure while locating. -/
def ofNetwork : NetworkFailure → GeoFailure
  | .timeout => timeout
  | failure => searchFailed failure.message

end GeoFailure

/-- Why a lookup gives no forecast. -/
inductive Failure where
  | cityNotFound (city country : String)
  | timeout (stage : Stage)
  | unavailable (cause : Failure)
  | cancelled
  | providerFailed (provider detail : String)
  | invalidRequest (detail : String)
  deriving DecidableEq, Repr

namespace Failure

/-- The wording of a failure. -/
def message : Failure → String
  | cityNotFound city country => s!"City not found: {city}, {country}"
  | timeout stage => s!"Timed out during {stage.message}"
  | unavailable cause => s!"All forecast providers unavailable: {cause.message}"
  | cancelled => "Request cancelled"
  | providerFailed provider detail => s!"Provider {provider} failed: {detail}"
  | invalidRequest detail => s!"Invalid request: {detail}"

/-- The wording for the person who asked. -/
def advice : Failure → String
  | cityNotFound city country => s!"We couldn't find {city} in {country}."
  | timeout _ => "The forecast took too long. Please try again."
  | unavailable _ => "Forecast service unavailable. Please try again later."
  | cancelled => "The request was cancelled."
  | providerFailed _ _ => "Forecast provider error. Please try again."
  | invalidRequest detail => s!"Invalid request: {detail}"

/-- Whether neither another attempt nor another provider can help. -/
def isTerminal : Failure → Bool
  | cityNotFound _ _ => true
  | invalidRequest _ => true
  | _ => false

/-- A failure to locate the city of a lookup. -/
def ofGeo : GeoFailure → Failure
  | .notFound city country => cityNotFound city country
  | .timeout => timeout .geocoding
  | .cancelled => cancelled
  | .searchFailed detail => providerFailed "geocoder" detail

/-- A network failure of a provider. -/
def ofNetwork (provider : String) : NetworkFailure → Failure
  | .timeout => timeout .provider
  | failure => providerFailed provider failure.message

/-- The text is no country code. -/
def badCountry (s : String) : Failure :=
  invalidRequest ("country code must be two letters, got " ++ Text.quote s)

end Failure

end HedgedForecast
