import FaultInjection.Document
import FaultInjection.Rule

/-!
# Rules - Descriptions

A rule is described as a document for the reader of a listing.  Absent parts of
the rule are absent in the description, so that an absent part is told apart
from an empty one; a body is shown as the text of its bytes.

Main definitions:

- `Rule.description`, the document that describes a rule.
-/

namespace FaultInjection

/-- The name of a side. -/
def Rule.Side.name : Rule.Side → String
  | request => "request"
  | response => "response"

/-- The description of header pairs. -/
def describePairs (pairs : List (String × String)) : Document :=
  .list (pairs.map fun (name, value) => .list [.text name, .text value])

/-- The description of parameters. -/
def Parameters.description (p : Parameters) : Document :=
  .record (Record.ofFields (p.map fun (key, value) => (key, .text value)))

/-- The description of a selector. -/
def Selector.description (s : Selector) : Document :=
  .ofPresent [
    ("port", s.port.map .number),
    ("path", s.path.map .text),
    ("method", s.method.map .text),
    ("headers", s.headers.map describePairs),
    ("code", s.code.map .number),
    ("responseHeaders", s.responseHeaders.map describePairs)]

/-- The description of additions. -/
def Additions.description (a : Additions) : Document :=
  .ofPresent [("queries", a.query.map .text), ("headers", a.headers.map describePairs)]

/-- The description of replacements. -/
def Replacements.description (r : Replacements) : Document :=
  .ofPresent [
    ("path", r.path.map .text),
    ("method", r.method.map .text),
    ("body", r.body.map fun body => .text (utf8Text body)),
    ("code", r.code.map .number),
    ("queries", r.parameters.map Parameters.description),
    ("headers", r.headers.map describePairs)]

/-- The description of actions. -/
def Actions.description (a : Actions) : Document :=
  .ofPresent [
    ("abort", some (.boolean a.abort)),
    ("delay", a.delay.map .number),
    ("append", a.append.map Additions.description),
    ("replace", a.replace.map Replacements.description)]

/-- The description of a rule. -/
def Rule.description (rule : Rule) : Document :=
  .record [
    ("name", .text rule.name),
    ("target", .text rule.side.name),
    ("selector", rule.selector.description),
    ("actions", rule.actions.description)]

end FaultInjection
