import FaultInjection.Client
import FaultInjection.Config
import FaultInjection.Delay
import FaultInjection.Destination
import FaultInjection.Framing
import FaultInjection.History
import FaultInjection.Log

/-!
# Exchanges - A request on its way and its answer

An exchange reads the body of a request, lets a rule decide about the request,
forwards it, reads the response, lets a rule decide about that, and answers the
client.  A rule can hold either message back for a while.  What is settled when the
request arrives, the rules among it, stays the same until the exchange ends.

An exchange is told what happens by events, and asks for things by effects: entries
in the log and in the history, a timer, a message to be forwarded.

Main definitions:

- `Arrival`, a request as it arrives, and `Intake`, what is settled about it.
- `Exchange` and its `Exchange.Stage`.
- `Exchange.Event` and `Exchange.Effect`.
-/

namespace FaultInjection

/-! ## Requests that arrive -/

/-- The head of a request as it arrives. -/
structure Arrival where
  method : Option String := none
  target : Option String := none
  /-- Names and values of headers in turn. -/
  headers : List String := []
  deriving DecidableEq, Repr

namespace Arrival

/-- The method of a request, which is a retrieval unless it says otherwise. -/
def methodText (a : Arrival) : String := a.method.getD "GET"

/-- The text of the target, which is the root unless the request says otherwise. -/
def targetText (a : Arrival) : String := a.target.getD "/"

/-- The headers of a request. -/
def headerList (a : Arrival) : Headers := .ofFlat a.headers

/-- The host that a header names. -/
def host? (a : Arrival) : Option String := a.headerList.get? "host"

end Arrival

/-- What is settled about a request when it arrives. -/
structure Intake where
  method : String
  target : Target
  headers : Headers
  destination : Destination
  /-- The rules that decide about the request and its response. -/
  rules : List Rule
  deriving DecidableEq, Repr

namespace Intake

/-- The port that the request arrived for. -/
def port (intake : Intake) : Number := .ofNat intake.destination.port

/-- The request with its body. -/
def request (intake : Intake) (body : Bytes) : Request :=
  ⟨intake.method, intake.target, intake.headers, body⟩

/-- The view of the request that rules for responses have. -/
def inbound (intake : Intake) : Inbound :=
  ⟨intake.port, intake.target, intake.method, intake.headers⟩

/-- The method and target of the request in words. -/
def title (intake : Intake) : String := intake.method ++ " " ++ intake.target.text

end Intake

/-! ## Requests that are forwarded -/

/-- A request as it is forwarded. -/
structure Forwarded where
  host : String
  port : Nat
  method : String
  path : String
  fields : Record HeaderRecord.Value
  body : Bytes
  deriving DecidableEq, Repr

/-- The path and query that a target is asked for with, which are the root where it has none. -/
def Target.forwardedPath (t : Target) : String := (t.pathAndQuery.getD ⟨"/", none⟩).text

/-- A request as it is forwarded to a destination. -/
def Destination.forwarded (d : Destination) (request : Request) : Forwarded := {
  host := d.host
  port := d.port
  method := request.method
  path := request.target.forwardedPath
  fields := (request.headers.framed request.body.length).toRecord
  body := request.body }

/-! ## Exchanges -/

/-- A message that a rule has changed or let pass, until it is released. -/
structure Held (α : Type) where
  message : α
  /-- The rule that decided about the message. -/
  rule : Option Rule
  /-- What is logged when the message is released. -/
  release : List Log.Entry
  deriving Repr

namespace Exchange

/-- How far an exchange has got. -/
inductive Stage where
  /-- The body of the request is being read. -/
  | readingRequest (body : Bytes)
  | holdingRequest (held : Held Request) (delay : Delay)
  /-- The request was forwarded. -/
  | awaitingResponse (request : Request)
  /-- The body of the response is being read. -/
  | readingResponse (request : Request) (status : Option Number) (headers : Headers) (body : Bytes)
  | holdingResponse (request : Request) (held : Held Response) (delay : Delay)
  deriving Repr

/-- Whether an exchange goes on. -/
inductive State where
  | active (intake : Intake) (stage : Stage)
  | ended
  deriving Repr

/-- Whether an exchange has ended. -/
def State.isEnded : State → Bool
  | active .. => false
  | ended => true

/-- An exchange has ended in one state alone. -/
theorem State.isEnded_iff {state : State} : state.isEnded = true ↔ state = ended := by
  cases state <;> simp [isEnded]

/-- What an exchange is told. -/
inductive Event where
  | requestChunk (bytes : Bytes)
  | requestEnd
  | requestFailed (cause : Cause)
  /-- The connection was closed before the request was complete. -/
  | requestClosed
  | timerFired
  /-- The request that was forwarded, or the response to it, has failed. -/
  | forwardingFailed (cause : Cause)
  | responseHead (status : Option Number) (headers : Headers)
  | responseChunk (bytes : Bytes)
  | responseEnd
  /-- The connection was closed before the response was complete. -/
  | responseClosed
  /-- The client has left before its answer was complete. -/
  | clientLeft
  deriving Repr

/-- What an exchange asks for. -/
inductive Effect where
  | log (entry : Log.Entry)
  /-- New values in the entry of the exchange. -/
  | amend (update : History.Update)
  /-- The end of the exchange, with new values in its entry. -/
  | close (outcome : History.Outcome) (update : History.Update)
  /-- A rule was applied. -/
  | countRule (side : Rule.Side)
  | forward (message : Forwarded)
  /-- A timer of some milliseconds. -/
  | setTimer (milliseconds : Number)
  /-- The timer that is running is no longer wanted. -/
  | dropTimer
  deriving Repr

end Exchange

/-- A request on its way and its answer. -/
structure Exchange where
  id : Nat
  /-- The time of its start in whole milliseconds. -/
  started : Number
  client : Client
  /-- Whether the client has left before its answer was complete. -/
  abandoned : Bool := false
  state : Exchange.State := .ended
  deriving Repr

namespace Exchange

/-- The milliseconds from the start of an exchange to a time. -/
def duration (x : Exchange) (now : Number) : Number := now.floor - x.started

/-- The scope of log entries about exchanges. -/
def logScope : String := "proxy"

end Exchange

end FaultInjection
