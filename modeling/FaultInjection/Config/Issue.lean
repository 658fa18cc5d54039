import FaultInjection.Document
import FaultInjection.Target

/-!
# Configuration - Issues

A document that is no rule document has issues.  Each issue names the place in
the document and what is wrong there, and all of them are reported together.

Main definitions:

- `Issue.Kind`, the kinds of values that messages speak of.
- `Issue.Cause`, what is wrong with a value, and `Issue.Cause.text`.
- `Issue`, a cause at a place; `Issue.text` and `Issue.texts`.
-/

namespace FaultInjection

namespace Issue

/-- A kind of value. -/
inductive Kind where
  | text
  | number
  | notANumber
  | boolean
  | null
  | list
  | record
  deriving DecidableEq, Repr

/-- The kind of a value. -/
def Kind.ofDocument : Document → Kind
  | .null => null
  | .boolean _ => boolean
  | .number .notANumber => notANumber
  | .number _ => number
  | .text _ => text
  | .list _ => list
  | .record _ => record

/-- The name of a kind. -/
def Kind.name : Kind → String
  | text => "string"
  | number => "number"
  | notANumber => "nan"
  | boolean => "boolean"
  | null => "null"
  | list => "array"
  | record => "object"

/-- What is wrong with a value. -/
inductive Cause where
  | missing
  | wrongKind (expected received : Kind)
  | notWhole
  | below (least : Nat)
  | above (greatest : Nat)
  | notFinite
  | empty
  | badMethod
  | badHeaderName
  | badHeaderValue
  | badDuration (text : String)
  | badPath (fault : TargetFault)
  | sideOfWrongKind (received : Kind)
  | unknownSide (text : String)
  /-- No alternative fits the kind of the value. -/
  | noAlternative
  deriving DecidableEq, Repr

/-- The names of the sides of a rule in messages. -/
def sideNames : String := "'Request' | 'Response' | 'request' | 'response'"

/-- What is wrong, in words. -/
def Cause.text : Cause → String
  | missing => "Required"
  | wrongKind expected received =>
    "Expected " ++ expected.name ++ ", received " ++ received.name
  | notWhole => "Expected integer, received float"
  | below least => "Number must be greater than or equal to " ++ Nat.repr least
  | above greatest => "Number must be less than or equal to " ++ Nat.repr greatest
  | notFinite => "Number must be finite"
  | empty => "String must contain at least 1 character(s)"
  | badMethod => "invalid HTTP method"
  | badHeaderName => "invalid header name"
  | badHeaderValue => "header values must not contain CR, LF or NUL"
  | badDuration s => "invalid duration \"" ++ s ++ "\""
  | badPath fault => fault.message
  | sideOfWrongKind received => "Expected " ++ sideNames ++ ", received " ++ received.name
  | unknownSide s =>
    "Invalid enum value. Expected " ++ sideNames ++ ", received '" ++ s ++ "'"
  | noAlternative => "Invalid input"

/-- A step from a value to a part of it. -/
inductive Step where
  | key (name : String)
  | item (index : Nat)
  deriving DecidableEq, Repr

/-- The text of a step. -/
def Step.text : Step → String
  | key name => name
  | item index => Nat.repr index

end Issue

/-- Something wrong at a place of a document. -/
structure Issue where
  path : List Issue.Step := []
  cause : Issue.Cause
  deriving DecidableEq, Repr

namespace Issue

/-- The issue as seen from a value of which its place is a part. -/
def under (step : Step) (issue : Issue) : Issue := { issue with path := step :: issue.path }

/-- The place and what is wrong there; the whole document has no place. -/
def text (issue : Issue) : String :=
  if issue.path.isEmpty then issue.cause.text
  else String.intercalate "." (issue.path.map Step.text) ++ ": " ++ issue.cause.text

/-- Issues one after the other. -/
def texts (issues : List Issue) : String := String.intercalate "; " (issues.map text)

end Issue

end FaultInjection
