import FaultInjection.Document
import FaultInjection.Headers
import FaultInjection.Target
import FaultInjection.Text.Encoding

/-!
# Messages - Requests, responses and failures

A message is a value with a buffered body.  Rules for responses also look at the
inbound request, as it was before any rule changed it; that view is kept apart
from the request that is forwarded.

Work on a message ends early because a rule drops the message, because a rewrite
makes an ill-formed target, or because another party gives a cause.  A cause is
an error with a message, or any value.

Main definitions:

- `Request`, `Response`, and `Inbound`, the view of the inbound request.
- `Cause`, what another party gives as the reason for an end.
- `Failure`, and `Failure.message`, its text.
-/

namespace FaultInjection

/-- A request with its whole body. -/
structure Request where
  method : String
  target : Target
  headers : Headers
  body : Bytes
  deriving DecidableEq, Repr

/-- A response with its whole body. -/
structure Response where
  status : Number
  headers : Headers
  body : Bytes
  deriving DecidableEq, Repr

/-- The inbound request as it was before any rule changed it. -/
structure Inbound where
  port : Number
  target : Target
  method : String
  headers : Headers
  deriving DecidableEq, Repr

/-- The view of an inbound request that arrived for a port. -/
def Request.inbound (request : Request) (port : Number) : Inbound :=
  ⟨port, request.target, request.method, request.headers⟩

/-! ## Failures -/

/-- What another party gives as the reason for an end. -/
inductive Cause where
  | error (message : String)
  | value (value : Option Document)
  deriving Repr, Inhabited, BEq

/-- The text of a cause. -/
def Cause.text : Cause → String
  | .error message => message
  | .value (some document) => document.plainText
  | .value none => "undefined"

/-- Why work on a message ends early. -/
inductive Failure where
  /-- A rule asks for the message to be dropped. -/
  | dropped
  /-- A rewrite makes an ill-formed target. -/
  | target (fault : TargetFault)
  | cause (cause : Cause)
  deriving Repr, Inhabited, BEq

namespace Failure

/-- The message of a failure. -/
def message : Failure → String
  | .dropped => "Abort applied"
  | .target fault => fault.message
  | .cause c => c.text

end Failure

end FaultInjection
