import HedgedForecast.Data.Fields

/-! # Coordinates

Where a city lies.
-/

namespace HedgedForecast

/-- A place on the globe, in degrees. -/
structure Coordinates where
  latitude : Float
  longitude : Float
  deriving DecidableEq, Repr

namespace Coordinates

/-- The fields of a place as data. -/
def toData (place : Coordinates) : Data :=
  .record [("latitude", .float place.latitude), ("longitude", .float place.longitude)]

/-- A place in data. -/
def ofData? (data : Data) : Option Coordinates := do
  let fields ← data.fields? ["latitude", "longitude"] .refused
  return ⟨← fields.required? "latitude" Data.asFloat?, ← fields.required? "longitude" Data.asFloat?⟩

end Coordinates

end HedgedForecast
