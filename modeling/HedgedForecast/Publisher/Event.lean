import HedgedForecast.Calendar.Moment
import HedgedForecast.Request

/-! # Events

What a sink outside is told about a lookup: the request and when it was made.
-/

namespace HedgedForecast

/-- A lookup was asked for. -/
structure Event where
  request : Request
  requestedAt : Moment
  deriving DecidableEq, Repr

/-- The fields of an event as data. -/
def Event.toData (event : Event) : Data :=
  .record [("city", .text event.request.city), ("country_code", .text event.request.country.code),
    ("days", .int event.request.days), ("requested_at", .text (toString event.requestedAt))]

end HedgedForecast
