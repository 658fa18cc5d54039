import FaultInjection.Admin.Locator
import FaultInjection.Proxy
import FaultInjection.Rule.Description
import FaultInjection.Text.LeadingInteger

/-!
# Administration - Requests and replies

The administrator asks for the state of a proxy, for its rules and for pages of its
history, has the rules loaded anew, and clears the history.  A request for anything
else is answered as not found.  Asking for the head of a reply gives the reply
without its body.

A page of the history is given by an offset and a limit, which can be any numbers.  A
place in a list that is negative counts from the end; a place beyond the list is its
end, and one that is no number is its start.

Main definitions:

- `page`, the items of a list between an offset and the sum of offset and limit.
- `Admin.Action`, and `Admin.action?`, what a method and a path ask for.
- `Admin.Reply`, and `Admin.handle`, the reply to a request with what it changes.
-/

namespace FaultInjection

/-! ## Pages -/

namespace Page

/-- The place in a list of some length that a whole number stands for. -/
def placeOfInt (length : Nat) (i : Int) : Nat :=
  if i < 0 then (length + i).toNat else min i.toNat length

/-- The place in a list of some length that a number stands for. -/
def place (length : Nat) : Number → Nat
  | .notANumber => 0
  | .infinite negative => if negative then 0 else length
  | x => placeOfInt length (x.toInt?.getD 0)

end Page

/-- The items of a list between an offset and the sum of offset and limit. -/
def page {α : Type} (items : List α) (offset limit : Number) : List α :=
  (items.take (Page.place items.length (offset + limit))).drop (Page.place items.length offset)

namespace Admin

/-! ## Actions -/

/-- What the administrator asks for. -/
inductive Action where
  | showState
  | showRules
  | reload
  | showHistory
  | clearHistory
  deriving DecidableEq, Repr

/-- The methods that are known in any letter case. -/
def knownMethods : List String := ["DELETE", "GET", "HEAD", "OPTIONS", "POST", "PUT"]

/-- A method in its usual form. -/
def normalMethod (method : String) : String :=
  if knownMethods.contains method.toUpper then method.toUpper else method

/-- What a method and a path ask for. -/
def action? (method path : String) : Option Action :=
  match method, path with
  | "GET", "/api/status" => some .showState
  | "GET", "/api/rules" => some .showRules
  | "POST", "/api/reload" => some .reload
  | "GET", "/api/exchanges" => some .showHistory
  | "DELETE", "/api/exchanges" => some .clearHistory
  | _, _ => none

/-! ## Replies -/

/-- The body of a reply. -/
inductive Body where
  | document (value : Document)
  | text (message : String)
  deriving Repr

/-- A reply to the administrator. -/
structure Reply where
  status : Nat
  body : Body
  /-- Whether the head alone is sent. -/
  headOnly : Bool := false
  deriving Repr

/-- The media type of a body. -/
def Body.mediaType : Body → String
  | document _ => "application/json"
  | text _ => "text/plain; charset=UTF-8"

/-- The reply that holds a document. -/
def Reply.ofDocument (status : Nat) (value : Document) : Reply := ⟨status, .document value, false⟩

/-- The reply that nothing was found. -/
def Reply.notFound : Reply := ⟨404, .text "404 Not Found", false⟩

/-- The reply to a request that failed within. -/
def Reply.failed : Reply := ⟨500, .text "Internal Server Error", false⟩

/-- A reply with what the request has changed. -/
structure Answer where
  reply : Reply
  proxy : Proxy
  notices : List RuleSource.Notice := []
  lines : List Log.Line := []

/-! ## Documents -/

/-- A count in a document. -/
def count (n : Nat) : Document := .number (.ofNat n)

/-- How many rules are for a side. -/
def countSide (rules : List Rule) (side : Rule.Side) : Nat :=
  (rules.filter fun rule => rule.side == side).length

/-- The state of a proxy. -/
def stateDocument (p : Proxy) (rules : List Rule) : Document :=
  .record [
    ("proxyRunning", .boolean p.history.running),
    ("proxyPort", .number p.history.port),
    ("configPath", .text p.source.path),
    ("ruleCount", .record [
      ("request", count (countSide rules .request)),
      ("response", count (countSide rules .response))]),
    ("stats", p.history.tallies.document)]

/-- A number of a query, or the usual one where the query has none. -/
def bound (l : Locator) (name : String) (usual : Number) : Number :=
  match l.value? name with
  | none => usual
  | some value => if value = "" then usual else leadingInteger value

/-- The page of a history that a locator asks for. -/
def historyDocument (h : History) (l : Locator) : Document :=
  let limit := bound l "limit" 100
  let offset := bound l "offset" 0
  .record [
    ("total", count h.size),
    ("offset", .number offset),
    ("limit", .number limit),
    ("exchanges", .list ((page h.toList offset limit).map History.Entry.document))]

/-! ## Requests -/

/-- The reply to a request that needs rules. -/
def withRules (p : Proxy) (answer : List Rule → Document) : Answer :=
  match p.source.current with
  | .ok config => { reply := .ofDocument 200 (answer config.rules), proxy := p }
  | .error reason =>
    { reply := .failed, proxy := p, lines := [.ofText .errors ("Error: " ++ reason)] }

/-- The reply to a request for a load of the rules. -/
def reloadRules (files : Files) (p : Proxy) : Answer :=
  let load := p.source.reload files
  let reply := match load.result with
    | .ok config =>
      Reply.ofDocument 200
        (.record [("reloaded", .boolean true), ("ruleCount", count config.rules.length)])
    | .error fault => Reply.ofDocument 400 (.record [("error", .text fault.message)])
  { reply, proxy := { p with source := load.source }, notices := load.notices }

/-- The reply to a request for an action. -/
def perform (files : Files) (p : Proxy) (l : Locator) : Action → Answer
  | .showState => withRules p (stateDocument p)
  | .showRules => withRules p fun rules => .record [("rules", .list (rules.map Rule.description))]
  | .reload => reloadRules files p
  | .showHistory => { reply := .ofDocument 200 (historyDocument p.history l), proxy := p }
  | .clearHistory =>
    { reply := .ofDocument 200 (.record [("cleared", .boolean true)])
      proxy := { p with history := p.history.clear.1 } }

/-- The reply to a method at a locator. -/
def handleMethod (files : Files) (p : Proxy) (method : String) (l : Locator) : Answer :=
  match action? method l.path with
  | some action => perform files p l action
  | none => { reply := .notFound, proxy := p }

/-- The reply to a request, with what it changes. -/
def handle (files : Files) (p : Proxy) (method path : String) : Answer :=
  let l := Locator.parse path
  if normalMethod method = "HEAD" then
    let answer := handleMethod files p "GET" l
    { answer with reply := { answer.reply with headOnly := true } }
  else handleMethod files p (normalMethod method) l

end Admin

end FaultInjection
