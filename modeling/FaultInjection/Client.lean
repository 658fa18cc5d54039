import FaultInjection.Headers.HeaderRecord
import FaultInjection.Message
import FaultInjection.Text.Encoding

/-!
# Clients - What a client is sent

A client is sent a head and then a body, or its connection is cut.  Each attempt to
send something can fail for a cause, and what failed was not sent.  How the attempts
turn out is given with the client: a cause for an attempt that fails, and nothing for
one that succeeds; attempts beyond those that are given succeed.

Main definitions:

- `Client.Sent`, something that a client was sent.
- `Client`, with `Client.sendHead`, `Client.finish` and `Client.cut`.
- `Client.answer` and `Client.answerText`, a whole answer.

Main results:

- `Client.answer_isNone_iff`: a whole answer fails exactly when one of its attempts
  does.
-/

namespace FaultInjection

namespace Client

/-- Something that a client was sent. -/
inductive Sent where
  | head (status : Number) (fields : Record HeaderRecord.Value)
  | text (message : String)
  | body (bytes : Bytes)
  /-- The connection was cut. -/
  | cut
  deriving DecidableEq, Repr

end Client

/-- A client that waits for its answer. -/
structure Client where
  sent : List Client.Sent := []
  headSent : Bool := false
  /-- Whether the answer is complete. -/
  finished : Bool := false
  /-- How the next attempts to send a head turn out. -/
  headFaults : List (Option Cause) := []
  /-- How the next attempts to send the rest turn out. -/
  restFaults : List (Option Cause) := []
  deriving Repr, BEq

namespace Client

/-- How the next of some attempts turns out. -/
def nextFault (faults : List (Option Cause)) : Option Cause := faults.head?.join

/-- The client after an attempt to send a head, and why the attempt failed. -/
def sendHead (c : Client) (status : Number) (fields : Record HeaderRecord.Value) :
    Client × Option Cause :=
  match nextFault c.headFaults with
  | some cause => ({ c with headFaults := c.headFaults.tail }, some cause)
  | none =>
    ({ c with
        sent := c.sent ++ [.head status fields]
        headSent := true
        headFaults := c.headFaults.tail },
      none)

/-- The client after an attempt to send the rest of an answer, and why the attempt failed. -/
def finish (c : Client) (rest : Sent) : Client × Option Cause :=
  match nextFault c.restFaults with
  | some cause => ({ c with restFaults := c.restFaults.tail }, some cause)
  | none =>
    ({ c with sent := c.sent ++ [rest], finished := true, restFaults := c.restFaults.tail }, none)

/-- The client with its connection cut. -/
def cut (c : Client) : Client := { c with sent := c.sent ++ [.cut] }

/-- The client after an attempt to send a whole answer. -/
def answer (c : Client) (status : Number) (fields : Record HeaderRecord.Value) (rest : Sent) :
    Client × Option Cause :=
  match c.sendHead status fields with
  | (c, some cause) => (c, some cause)
  | (c, none) => c.finish rest

/-- The header fields of a plain text. -/
def textFields : Record HeaderRecord.Value := [("content-type", .single "text/plain")]

/-- The client after an attempt to send a text; a client that has a head already is cut off. -/
def answerText (c : Client) (status : Number) (message : String) : Client × Option Cause :=
  if c.headSent then (c.cut, none) else c.answer status textFields (.text message)

/-! ## Attempts that fail -/

/-- A whole answer fails exactly when one of its attempts does. -/
theorem answer_isNone_iff (c : Client) (status : Number) (fields : Record HeaderRecord.Value)
    (rest : Sent) :
    (c.answer status fields rest).2 = none ↔
      nextFault c.headFaults = none ∧ nextFault c.restFaults = none := by
  cases hhead : nextFault c.headFaults <;> cases hrest : nextFault c.restFaults <;>
    simp [answer, sendHead, finish, hhead, hrest]

/-- What a client was sent when a whole answer has not failed. -/
theorem sent_answer {c : Client} {status : Number} {fields : Record HeaderRecord.Value}
    {rest : Sent} (h : (c.answer status fields rest).2 = none) :
    (c.answer status fields rest).1.sent = c.sent ++ [.head status fields, rest] := by
  obtain ⟨hhead, hrest⟩ := (c.answer_isNone_iff status fields rest).1 h
  simp [answer, sendHead, finish, hhead, hrest]

end Client

end FaultInjection
