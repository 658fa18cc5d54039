import FaultInjection.Config
import FaultInjection.Config.Checked
import FaultInjection.Duration

/-!
# Configuration - The form of a rule document

A rule document is a record of a port, a list of ports and a list of rules.  All
fields but the side of a rule may be missing or null, and fields that are not
part of the form are ignored.  The fields are checked in the order of this form
and not in that of the document.

Main definitions:

- `Schema.config`, the check of a whole document.
- `Config.ofDocument`, the configuration that a document stands for.

Main results:

- `Schema.isToken_ne_nil`: a token is not empty.
-/

namespace FaultInjection

namespace Schema

open Checked

/-! ## Numbers and texts -/

/-- Which tests of a whole number between two bounds fail. -/
def wholeBetween (least greatest : Nat) (n : Number) : List Issue.Cause :=
  (if n.isInteger then [] else [.notWhole]) ++
  (if n.lt (.ofNat least) then [.below least] else []) ++
  (if (Number.ofNat greatest).lt n then [.above greatest] else [])

/-- The check of a port. -/
def port : Check Number := number (wholeBetween 0 65535)

/-- The check of a status. -/
def status : Check Number := number (wholeBetween 100 999)

/-- The punctuation that may stand in a token. -/
def tokenMarks : List Char :=
  ['!', '#', '$', '%', '&', '\'', '*', '+', '-', '.', '^', '_', Char.ofNat 0x60, '|', '~']

/-- Whether a character may stand in a token. -/
def isTokenChar (c : Char) : Bool := c.isAlphanum || tokenMarks.contains c

/-- Whether a text is a token: characters that may stand in one, at least one. -/
def isToken (s : String) : Bool := !s.toList.isEmpty && s.toList.all isTokenChar

/-- A token is not empty. -/
theorem isToken_ne_nil {s : String} (h : isToken s = true) : s.toList ≠ [] := by
  simp only [isToken, Bool.and_eq_true, Bool.not_eq_true', List.isEmpty_eq_false_iff] at h
  exact h.1

/-- The check of a text that must pass a test. -/
def textPassing (passes : String → Bool) (cause : Issue.Cause) : Check String := fun document =>
  match text document with
  | accepted s => tested s (if passes s then [] else [cause])
  | rejected issues kindFits => rejected issues kindFits

/-- The check of a method. -/
def method : Check String := textPassing isToken .badMethod

/-- The check of a name. -/
def name : Check String := textPassing (· ≠ "") .empty

/-- The check of a path to be matched: the path of a path and query. -/
def selectorPath : Check String := fun document =>
  match text document with
  | accepted s =>
    match PathAndQuery.parse s with
    | .ok p => accepted p.path
    | .error fault => unfit [.badPath fault]
  | rejected issues kindFits => rejected issues kindFits

/-- The side of its name, with a capital or without. -/
def sideOfName? : String → Option Rule.Side
  | "Request" | "request" => some .request
  | "Response" | "response" => some .response
  | _ => none

/-- The check of the side of a rule. -/
def side : Check Rule.Side
  | none => wrongKind .missing
  | some (.text s) =>
    match sideOfName? s with
    | some side => accepted side
    | none => wrongKind (.unknownSide s)
  | some d => wrongKind (.sideOfWrongKind (.ofDocument d))

/-! ## Headers -/

/-- Whether a character may stand in the value of a header. -/
def isHeaderValueChar (c : Char) : Bool := c != '\r' && c != '\n' && c != Char.ofNat 0

/-- The check of the value of a header. -/
def headerValue : Check String :=
  textPassing (·.toList.all isHeaderValueChar) .badHeaderValue

/-- The check of the values of a header: one, or a list. -/
def headerValues : Check (List String) := fun document =>
  firstOf [(headerValue document).map fun value => [value], list headerValue document]

/-- The check of the name of a header. -/
def headerName (s : String) : Checked String :=
  tested s (if isToken s then [] else [.badHeaderName])

/-- A key that is checked and then left out of records. -/
def omittedKey : String := "__proto__"

/-- The check of each field of a record: its key first, then its value. -/
def entries {α : Type} (key : String → Checked String) (value : Check α)
    (fields : List (String × Document)) : Checked (List (String × α)) :=
  (all (fields.map fun (k, v) => (both (key k) (value (some v))).under (.key k))).map
    (·.filter fun entry => entry.1 ≠ omittedKey)

/-- The pairs of headers that have values each. -/
def headerPairs (headers : List (String × List String)) : List (String × String) :=
  headers.flatMap fun (name, values) => values.map fun value => (name, value)

/-- The check of headers, each with one value or with a list of values. -/
def headers : Check (List (String × String)) :=
  record fun fields => (entries headerName headerValues fields).reading headerPairs

/-- The check of parameters. -/
def parameters : Check Parameters := record (entries accepted text)

/-! ## Durations -/

/-- Which tests of an amount of milliseconds fail. -/
def amountTests (n : Number) : List Issue.Cause :=
  (if n.lt 0 then [.below 0] else []) ++ (if n.isFinite then [] else [.notFinite])

/-- The check of an amount of milliseconds with units. -/
def durationText : Check Number := fun document =>
  match text document with
  | accepted s =>
    match (parseDuration s).filter Number.isFinite with
    | some ms => accepted ms
    | none => unfit [.badDuration s]
  | rejected issues kindFits => rejected issues kindFits

/-- Which tests of a count fail. -/
def countTests (n : Number) : List Issue.Cause :=
  (if n.isInteger then [] else [.notWhole]) ++ (if n.lt 0 then [.below 0] else [])

/-- A count that is zero where it is missing. -/
def countOrZero : Check Number
  | none => accepted 0
  | some d => number countTests (some d)

/-- The milliseconds of seconds and nanoseconds. -/
def milliseconds (seconds nanos : Number) : Number := seconds * 1000 + nanos / 1000000

/-- The check of a record of seconds and nanoseconds. -/
def durationRecord : Check Number :=
  record fun fields =>
    (both (field fields "secs" (number countTests)) (field fields "nanos" countOrZero)).reading
      fun (seconds, nanos) => milliseconds seconds nanos

/-- The check of a duration in one of its notations. -/
def duration : Check Number := fun document =>
  firstOf [number amountTests document, durationText document, durationRecord document]

/-! ## Rules -/

/-- The check of a selector. -/
def selector : Check Selector :=
  record fun fields =>
    (both (field fields "port" (optional port))
      (both (field fields "path" (optional selectorPath))
        (both (field fields "method" (optional method))
          (both (field fields "headers" (optional headers))
            (both (field fields "code" (optional status))
              (field fields "response_headers" (optional headers))))))).map
      fun (port, path, method, headers, code, responseHeaders) =>
        { port, path, method, headers, code, responseHeaders }

/-- The check of additions. -/
def additions : Check Additions :=
  record fun fields =>
    (both (field fields "queries" (optional text))
      (field fields "headers" (optional headers))).map
      fun (query, headers) => { query, headers }

/-- The check of replacements. -/
def replacements : Check Replacements :=
  record fun fields =>
    (both (field fields "path" (optional text))
      (both (field fields "method" (optional method))
        (both (field fields "body" (optional text))
          (both (field fields "code" (optional status))
            (both (field fields "queries" (optional parameters))
              (field fields "headers" (optional headers))))))).map
      fun (path, method, body, code, parameters, headers) =>
        { path, method, body := body.map utf8Bytes, code, parameters, headers }

/-- The check of actions. -/
def actions : Check Actions :=
  record fun fields =>
    (both (field fields "abort" (optional boolean))
      (both (field fields "delay" (optional duration))
        (both (field fields "append" (optional additions))
          (field fields "replace" (optional replacements))))).map
      fun (abort, delay, append, replace) =>
        { abort := abort.getD false, delay, append, replace }

/-- A rule of a document, which may be without name. -/
structure Draft where
  name : Option String
  side : Rule.Side
  selector : Selector
  actions : Actions
  deriving DecidableEq, Repr

/-- The check of a rule. -/
def rule : Check Draft :=
  record fun fields =>
    (both (field fields "name" (optional name))
      (both (field fields "target" side)
        (both (field fields "selector" (optional selector))
          (field fields "actions" (optional actions))))).map
      fun (name, side, selector, actions) =>
        { name, side, selector := selector.getD {}, actions := actions.getD {} }

/-- The name of a rule that is given none. -/
def positionName (index : Nat) : String := "rule-" ++ Nat.repr index

/-- The rule at a position. -/
def Draft.toRule (index : Nat) (draft : Draft) : Rule :=
  ⟨draft.name.getD (positionName index), draft.side, draft.selector, draft.actions⟩

/-- The rules from a position on. -/
def rulesFrom : Nat → List Draft → List Rule
  | _, [] => []
  | index, draft :: rest => draft.toRule index :: rulesFrom (index + 1) rest

/-- The check of a whole document. -/
def config : Check Config :=
  record fun fields =>
    (both (field fields "listen_port" (optional port))
      (both (field fields "proxy_ports" (optional (list port)))
        (field fields "rules" (optional (list rule))))).map
      fun (listenPort, proxyPorts, rules) =>
        { listenPort := listenPort.getD Config.defaultListenPort
          proxyPorts := proxyPorts.getD []
          rules := rulesFrom 0 (rules.getD []) }

end Schema

/-- The configuration that a document stands for, read from a file or not. -/
def Config.ofDocument (document : Option Document) (file : Option String) :
    Except ConfigFault Config :=
  match Schema.config document with
  | .accepted config => .ok config
  | .rejected issues _ => .error ⟨file, .invalid issues⟩

end FaultInjection
