import HedgedForecast.Publisher.Basic
import HedgedForecast.Publisher.Event
import HedgedForecast.Web.Exchange

/-! # Sending events

Events are sent as data to a fixed address, which accepts them with any status of success.
-/

namespace HedgedForecast.Webhook

/-- The failure of a notice that could not be sent. -/
def unsent (message : Web.Message) : PublishFailure :=
  .network s!"error sending request for url ({message.url.text})"

/-- What a reply to a notice means, if there is one. -/
def interpret (message : Web.Message) : Web.Reply → Option (Except PublishFailure Unit)
  | .refused => some (.error (unsent message))
  | .timedOut => some (.error (unsent message))
  | .silent => none
  | .answer status _ _ =>
    if Web.isSuccess status then some (.ok ())
    else some (.error (.rejected s!"HTTP {Web.statusText status}"))

/-- What came of sending an event, if anything. -/
def send (transport : Web.Transport) (address : String) (event : Event) :
    Option (Except PublishFailure Unit) :=
  match Web.prepare address [] with
  | .error (.unreachable detail) => some (.error (.network detail))
  | .error failure => some (.error (.network failure.message))
  | .ok message =>
    let message := { message with body := some event.toData }
    interpret message (transport message)

/-- The delivery of an event, as the network is then. -/
def delivery (conditions : Web.Conditions) (address : String) (event : Event) : Delivery :=
  match send conditions.transport address event with
  | some (.ok ()) => { delay := some conditions.delay, ending := .accepted }
  | some (.error failure) => { delay := some conditions.delay, ending := .refused failure }
  | none => { delay := none }

/-- How deliveries go: to the address, if there is one, and else straight into the log. -/
def sink (network : Web.Network) (address : Option String) : List (Event → Delivery) :=
  match address with
  | some address => network.conditions.map fun conditions => delivery conditions address
  | none => []

end HedgedForecast.Webhook
