import FaultInjection.Message
import FaultInjection.Target.Parameters

/-!
# Rules - Selectors and actions

A rule is for requests or for responses.  Its selector says which messages it is
for: every part that is present must hold, and an absent part holds for any
message.  Its actions say what is done to the message: it is dropped, or pairs
are appended, parts replaced, and the message held back for a while.

Main definitions:

- `Rule.Side`, `Selector`, `Actions` with `Additions` and `Replacements`, `Rule`.
-/

namespace FaultInjection

/-- The messages that a rule is for. -/
inductive Rule.Side where
  | request
  | response
  deriving DecidableEq, Repr

/-- Which messages a rule is for. -/
structure Selector where
  port : Option Number := none
  /-- What the path starts with. -/
  path : Option String := none
  method : Option String := none
  /-- Pairs that occur in the inbound request. -/
  headers : Option (List (String × String)) := none
  /-- The status of the response. -/
  code : Option Number := none
  /-- Pairs that occur in the response. -/
  responseHeaders : Option (List (String × String)) := none
  deriving DecidableEq, Repr

/-- What is added to a message. -/
structure Additions where
  /-- An encoded fragment of a query. -/
  query : Option String := none
  headers : Option (List (String × String)) := none
  deriving DecidableEq, Repr

/-- What takes the place of parts of a message. -/
structure Replacements where
  path : Option String := none
  method : Option String := none
  body : Option Bytes := none
  code : Option Number := none
  parameters : Option Parameters := none
  headers : Option (List (String × String)) := none
  deriving DecidableEq, Repr

/-- What is done to a message. -/
structure Actions where
  abort : Bool := false
  /-- How long the message is held back, in milliseconds. -/
  delay : Option Number := none
  append : Option Additions := none
  replace : Option Replacements := none
  deriving DecidableEq, Repr

/-- A rule. -/
structure Rule where
  name : String
  side : Rule.Side
  selector : Selector
  actions : Actions
  deriving DecidableEq, Repr

end FaultInjection
