import FaultInjection.Rule

/-!
# Rules - Matching

A request rule looks at the port, path, method and headers of the request.  A
response rule looks at the same parts of the inbound request, and at the status
and headers of the response.  The first rule that matches is the one that
applies.

Main definitions:

- `Selector.matchesRequest` and `Selector.matchesResponse`.
- `Rule.forRequest` and `Rule.forResponse`, the rules that match, in order.
- `Rule.firstForRequest?` and `Rule.firstForResponse?`, the rule that applies.

Main results:

- `Rule.firstForRequest?_eq_head?` and `Rule.firstForResponse?_eq_head?`: the
  rule that applies is the first of those that match.
-/

namespace FaultInjection

/-- Whether every expected pair occurs in a header list, its name in any letter case. -/
def Headers.containsAll (actual : Headers) (expected : Option (List (String × String))) : Bool :=
  match expected with
  | none => true
  | some pairs => pairs.all fun pair => (actual.getAll pair.1).contains pair.2

/-- Whether a path starts with what is expected, character by character. -/
def pathStartsWith (expected path : String) : Bool := expected.toList.isPrefixOf path.toList

namespace Selector

/-- Whether the selector's port, path, method and headers hold for an inbound request. -/
def matchesInbound (s : Selector) (inbound : Inbound) : Bool :=
  s.port.all (·.same inbound.port) &&
  s.path.all (pathStartsWith · inbound.target.matchPath) &&
  s.method.all (· == inbound.method) &&
  inbound.headers.containsAll s.headers

/-- Whether the selector holds for a request that arrived for a port. -/
def matchesRequest (s : Selector) (port : Number) (request : Request) : Bool :=
  s.matchesInbound (request.inbound port)

/-- Whether the selector holds for a response to an inbound request. -/
def matchesResponse (s : Selector) (inbound : Inbound) (response : Response) : Bool :=
  s.matchesInbound inbound &&
  s.code.all (·.same response.status) &&
  response.headers.containsAll s.responseHeaders

end Selector

namespace Rule

/-- The request rules that match a request, in order. -/
def forRequest (rules : List Rule) (port : Number) (request : Request) : List Rule :=
  rules.filter fun rule => rule.side == .request && rule.selector.matchesRequest port request

/-- The response rules that match a response, in order. -/
def forResponse (rules : List Rule) (inbound : Inbound) (response : Response) : List Rule :=
  rules.filter fun rule => rule.side == .response && rule.selector.matchesResponse inbound response

/-- The request rule that applies to a request. -/
def firstForRequest? (rules : List Rule) (port : Number) (request : Request) : Option Rule :=
  rules.find? fun rule => rule.side == .request && rule.selector.matchesRequest port request

/-- The response rule that applies to a response. -/
def firstForResponse? (rules : List Rule) (inbound : Inbound) (response : Response) : Option Rule :=
  rules.find? fun rule => rule.side == .response && rule.selector.matchesResponse inbound response

/-- The request rule that applies is the first that matches. -/
theorem firstForRequest?_eq_head? (rules : List Rule) (port : Number) (request : Request) :
    firstForRequest? rules port request = (forRequest rules port request).head? := by
  simp [firstForRequest?, forRequest]

/-- The response rule that applies is the first that matches. -/
theorem firstForResponse?_eq_head? (rules : List Rule) (inbound : Inbound) (response : Response) :
    firstForResponse? rules inbound response = (forResponse rules inbound response).head? := by
  simp [firstForResponse?, forResponse]

end Rule

end FaultInjection
