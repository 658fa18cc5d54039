import FaultInjection.Log
import FaultInjection.Message
import FaultInjection.Rule
import FaultInjection.Target.Parameters

/-!
# Rules - Applying actions

Actions either drop a message or change a copy of it: first pairs are appended,
then parts replaced.  The path is replaced before the query parameters, which are
written behind whatever path there is by then.  A message that is to be held back
is released with the changes already made.

Main definitions:

- `Actions.changeRequest` and `Actions.changeResponse`, the changed message or the
  failure that stops it.
- `Request.releaseEntry` and `Response.releaseEntry`, what is logged when the message
  is released.
-/

namespace FaultInjection

/-- The pairs of a header list as a document. -/
def Headers.document (h : Headers) : Document :=
  .list (h.toList.map fun (name, value) => .list [.text name, .text value])

namespace Headers

/-- The list with optional pairs at its end. -/
def appendPresent (h : Headers) (pairs : Option (List (String × String))) : Headers :=
  h.appendAll (pairs.getD [])

/-- The list in which optional entries take the place of the headers they name. -/
def replacePresent (h : Headers) (entries : Option (List (String × String))) : Headers :=
  match entries with
  | some entries => h.replaceAll entries
  | none => h

end Headers

/-! ## Changes to a request -/

/-- A request with additions: query first, then headers. -/
def Additions.toRequest (a : Additions) (request : Request) : Except TargetFault Request := do
  let target ← request.target.appendQuery a.query
  return { request with target, headers := request.headers.appendPresent a.headers }

/-- A request with replacements: path, method, body, parameters, headers. -/
def Replacements.inRequest (r : Replacements) (request : Request) :
    Except TargetFault Request := do
  let target ← request.target.replacePath r.path
  let target ← target.replaceParameters r.parameters
  return {
    method := r.method.getD request.method
    target
    headers := request.headers.replacePresent r.headers
    body := r.body.getD request.body }

/-! ## Changes to a response -/

/-- A response with additions; only headers are added. -/
def Additions.toResponse (a : Additions) (response : Response) : Response :=
  { response with headers := response.headers.appendPresent a.headers }

/-- A response with replacements: status, body, headers. -/
def Replacements.inResponse (r : Replacements) (response : Response) : Response :=
  { status := r.code.getD response.status
    headers := response.headers.replacePresent r.headers
    body := r.body.getD response.body }

namespace Actions

/-- The request with all changes that are not drops. -/
def rewriteRequest (actions : Actions) (request : Request) : Except TargetFault Request := do
  let request ← match actions.append with
    | some additions => additions.toRequest request
    | none => .ok request
  match actions.replace with
  | some replacements => replacements.inRequest request
  | none => .ok request

/-- The changed request, or the failure that stops it. -/
def changeRequest (actions : Actions) (request : Request) : Except Failure Request :=
  if actions.abort then .error .dropped
  else (actions.rewriteRequest request).mapError .target

/-- The changed response, or the failure that stops it. -/
def changeResponse (actions : Actions) (response : Response) : Except Failure Response :=
  if actions.abort then .error .dropped
  else
    let response := match actions.append with
      | some additions => additions.toResponse response
      | none => response
    .ok (match actions.replace with
      | some replacements => replacements.inResponse response
      | none => response)

/-- Whether the actions put another body in place of the message's own. -/
def replacesBody (actions : Actions) : Bool := (actions.replace.bind Replacements.body).isSome

end Actions

/-! ## Log entries -/

/-- The scope of log entries about rules. -/
def Rule.logScope : String := "rule-executor"

/-- A body's length in words. -/
def sizeText (body : Bytes) : String := Nat.repr body.length ++ " bytes"

/-- What is logged when a request is released. -/
def Request.releaseEntry (request : Request) : Log.Entry := {
  level := .debug
  scope := Rule.logScope
  message := "request action applied: " ++ request.method ++ " " ++ request.target.text
  details := [request.headers.document, .text (sizeText request.body)] }

/-- What is logged when a response is released. -/
def Response.releaseEntry (response : Response) : Log.Entry := {
  level := .debug
  scope := Rule.logScope
  message := "response action applied: " ++ response.status.text
  details := [response.headers.document, .text (sizeText response.body)] }

end FaultInjection
