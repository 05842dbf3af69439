import HedgedForecast.Clock.Guard
import HedgedForecast.Failure
import HedgedForecast.Json.Reader
import HedgedForecast.Url.Parser
import HedgedForecast.Web.Status

/-! # Exchanges with servers

A message is sent to an address and answered, or not. What a transport does is not fixed here; this
module builds messages and says how each way of failing is told.
-/

namespace HedgedForecast.Web

/-- How the program names itself to servers. -/
def userAgent : String := "SkyCast/0.1.0"

/-- A message to a server. -/
structure Message where
  url : Url
  /-- What is sent along as data, if anything is. -/
  body : Option Data := none

/-- What comes back. -/
inductive Reply where
  /-- No connection, or one that broke before an answer. -/
  | refused
  /-- The sender lost patience. -/
  | timedOut
  /-- Nothing ever. -/
  | silent
  /-- An answer; its body may have been cut short. -/
  | answer (status : Nat) (body : ByteArray) (complete : Bool)

/-- What answers messages. -/
abbrev Transport := Message → Reply

/-- A network as long as one piece of work lasts. -/
structure Conditions where
  /-- How long all exchanges of the work take together. -/
  delay : Nat := 0
  transport : Transport

/-- A network that may change from one piece of work to the next. -/
structure Network where
  first : Conditions
  /-- The last ones stay. -/
  later : List Conditions := []

/-- The conditions of each piece of work in turn. -/
def Network.conditions (network : Network) : List Conditions :=
  network.first :: network.later

/-- A network without changes, over which exchanges take no time, or have no end. -/
def Network.steady (transport : Transport) : Network where
  first := { transport }

/-- An answer that arrived. -/
structure Answer where
  status : Nat
  body : ByteArray
  complete : Bool

/-- A base address without the slashes at its end, followed by a path. -/
def addressOf (base path : String) : String :=
  String.ofList (base.toList.reverse.dropWhile (· == '/')).reverse ++ path

/-- A message to an address with form fields in its query. The address must have a web scheme and a
host; a user name in it is sent apart. -/
def prepare (address : String) (fields : List (String × String)) :
    Except NetworkFailure Message :=
  match Url.parse address with
  | .error _ => .error (.unreachable "builder error")
  | .ok url =>
    if url.host?.isNone then .error (.unreachable s!"builder error for url ({url.text})")
    else
      let url := url.withoutUser
      let url := if fields.isEmpty then url else url.addFields fields
      if url.scheme == "http" || url.scheme == "https" then .ok { url }
      else .error (.unreachable s!"builder error for url ({url.text})")

/-- Sends a message; nothing comes back from a server that stays silent. -/
def send (transport : Transport) (message : Message) : Option (Except NetworkFailure Answer) :=
  match transport message with
  | .refused => some (.error (.unreachable s!"error sending request for url ({message.url.text})"))
  | .timedOut => some (.error .timeout)
  | .silent => none
  | .answer status body complete => some (.ok ⟨status, body, complete⟩)

/-- Sends a message to an address. -/
def exchange (transport : Transport) (address : String) (fields : List (String × String))
    (body : Option Data) : Option (Except NetworkFailure Answer) :=
  match prepare address fields with
  | .error failure => some (.error failure)
  | .ok message => send transport { message with body }

/-- The failure of a body that cannot be decoded. -/
def unreadableBody : NetworkFailure :=
  .body "error decoding response body"

/-- The data in the body of an answer. -/
def Answer.data (answer : Answer) : Except NetworkFailure Data :=
  if answer.complete then
    match (String.fromUTF8? answer.body).bind Json.read? with
    | some data => .ok data
    | none => .error unreadableBody
  else .error unreadableBody

/-- What the body of an answer decodes to. -/
def Answer.decode {α : Type} (answer : Answer) (decode : Data → Option α) :
    Except NetworkFailure α :=
  match answer.data with
  | .error failure => .error failure
  | .ok data =>
    match decode data with
    | some value => .ok value
    | none => .error unreadableBody

/-- The failure that a status stands for, if it stands for one. -/
def Answer.statusFailure? (answer : Answer) (url : Url) : Option NetworkFailure :=
  let told := fun (kind : String) =>
    NetworkFailure.status answer.status
      s!"HTTP status {kind} error ({statusText answer.status}) for url ({url.text})"
  if isClientError answer.status then some (told "client")
  else if isServerError answer.status then some (told "server")
  else none

/-- Gets the data at an address; a bad status may count as a failure. -/
def getData (transport : Transport) (address : String) (checkStatus : Bool) :
    Except NetworkFailure Data :=
  match prepare address [] with
  | .error failure => .error failure
  | .ok message =>
    match send transport message with
    | none => .error .timeout
    | some (.error failure) => .error failure
    | some (.ok answer) =>
      match answer.statusFailure? message.url with
      | some failure => if checkStatus then .error failure else answer.data
      | none => answer.data

/-- How an exchange under a deadline ends. One that nobody answers lasts until the deadline. -/
def guarded {α : Type} (clock : Clock) (deadline : Deadline) (result : Option α) : GuardEnd α :=
  (deadline.verdict clock result).getD .expired

end HedgedForecast.Web
