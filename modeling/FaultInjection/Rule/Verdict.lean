import FaultInjection.Rule.Application
import FaultInjection.Rule.Matching

/-!
# Rules - Verdicts

The first rule that matches a message decides about it; the other rules play no
part.  A verdict holds the changed message or the failure that stops it, how long
a changed message is held back, and what is logged before and after.  Without a
matching rule the message passes as it is, at once and silently.

Main definitions:

- `Verdict`, a decision about a message.
- `Actions.onRequest` and `Actions.onResponse`, the verdict of given actions.
- `Rule.onRequest` and `Rule.onResponse`, the verdict of a list of rules.

Main results:

- `Rule.rule_onRequest` and `Rule.rule_onResponse`: the first rule that matches decides.
- `Rule.result_onRequest` and `Rule.result_onResponse`: the result is that of its actions.
-/

namespace FaultInjection

/-- A decision about a message. -/
structure Verdict (α : Type) where
  /-- The rule that decides. -/
  rule : Option Rule := none
  /-- What is logged at once. -/
  notices : List Log.Entry := []
  /-- The changed message, or the failure that stops it. -/
  result : Except Failure α
  /-- How long a changed message is held back, in milliseconds. -/
  delay : Option Number := none
  /-- What is logged when the message is released. -/
  release : List Log.Entry := []

namespace Verdict

/-- The verdict that lets a message pass. -/
def pass {α : Type} (message : α) : Verdict α := { result := .ok message }

/-- The verdict of a rule, with what is logged about the match. -/
def ofRule {α : Type} (rule : Rule) (notice : String) (verdict : Verdict α) : Verdict α :=
  { verdict with
    rule := some rule
    notices := [{
      level := .debug
      scope := Rule.logScope
      message := "[rule:" ++ rule.name ++ "] matched " ++ notice }] }

/-- The name of the rule that decides. -/
def ruleName? {α : Type} (verdict : Verdict α) : Option String := verdict.rule.map Rule.name

end Verdict

/-- The verdict of actions on a request. -/
def Actions.onRequest (actions : Actions) (request : Request) : Verdict Request :=
  let result := actions.changeRequest request
  { result
    delay := actions.delay
    release := (result.toOption.map Request.releaseEntry).toList }

/-- The verdict of actions on a response. -/
def Actions.onResponse (actions : Actions) (response : Response) : Verdict Response :=
  let result := actions.changeResponse response
  { result
    delay := actions.delay
    release := (result.toOption.map Response.releaseEntry).toList }

namespace Rule

/-- The verdict of rules on a request that arrived for a port. -/
def onRequest (rules : List Rule) (port : Number) (request : Request) : Verdict Request :=
  match firstForRequest? rules port request with
  | none => .pass request
  | some rule =>
    .ofRule rule (request.method ++ " " ++ request.target.text) (rule.actions.onRequest request)

/-- The verdict of rules on a response to an inbound request. -/
def onResponse (rules : List Rule) (inbound : Inbound) (response : Response) :
    Verdict Response :=
  match firstForResponse? rules inbound response with
  | none => .pass response
  | some rule =>
    .ofRule rule
      (response.status.text ++ " for " ++ inbound.method ++ " " ++ inbound.target.text)
      (rule.actions.onResponse response)

/-! ## Who decides, and what -/

/-- The first rule that matches a request decides about it. -/
theorem rule_onRequest (rules : List Rule) (port : Number) (request : Request) :
    (onRequest rules port request).rule = (forRequest rules port request).head? := by
  rw [← firstForRequest?_eq_head?]
  unfold onRequest
  cases firstForRequest? rules port request <;> rfl

/-- A request passes as it is, or as the actions of the rule that decides change it. -/
theorem result_onRequest (rules : List Rule) (port : Number) (request : Request) :
    (onRequest rules port request).result =
      match (forRequest rules port request).head? with
      | none => .ok request
      | some rule => rule.actions.changeRequest request := by
  rw [← firstForRequest?_eq_head?]
  unfold onRequest
  cases firstForRequest? rules port request <;> rfl

/-- The first rule that matches a response decides about it. -/
theorem rule_onResponse (rules : List Rule) (inbound : Inbound) (response : Response) :
    (onResponse rules inbound response).rule = (forResponse rules inbound response).head? := by
  rw [← firstForResponse?_eq_head?]
  unfold onResponse
  cases firstForResponse? rules inbound response <;> rfl

/-- A response passes as it is, or as the actions of the rule that decides change it. -/
theorem result_onResponse (rules : List Rule) (inbound : Inbound) (response : Response) :
    (onResponse rules inbound response).result =
      match (forResponse rules inbound response).head? with
      | none => .ok response
      | some rule => rule.actions.changeResponse response := by
  rw [← firstForResponse?_eq_head?]
  unfold onResponse
  cases firstForResponse? rules inbound response <;> rfl

end Rule

end FaultInjection
