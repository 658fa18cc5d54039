import FaultInjection.Document

/-!
# Log - Lines by severity

An entry has a level, a scope, a message and details.  A threshold decides which
entries are written: those of its own level and of the more severe ones, or none
at all.  Warnings and errors go to the error stream, the others to the output
stream.

Main definitions:

- `Log.Level` and its order `Log.Level.rank`.
- `Log.Entry`, and `Log.Entry.line?`, the line that an entry becomes.

Main results:

- `Log.Entry.line?_isSome_iff`: an entry is written exactly when its level is
  at or above the threshold.
-/

namespace FaultInjection

namespace Log

/-- The severity of an entry, or a threshold above all of them. -/
inductive Level where
  | debug
  | info
  | warn
  | error
  | silent
  deriving DecidableEq, Repr, Inhabited

namespace Level

/-- The place of a level in the order of severity. -/
def rank : Level → Nat
  | debug => 10
  | info => 20
  | warn => 30
  | error => 40
  | silent => 100

/-- The name of a level. -/
def name : Level → String
  | debug => "debug"
  | info => "info"
  | warn => "warn"
  | error => "error"
  | silent => "silent"

/-- The level of a name. -/
def ofName? (name : String) : Option Level :=
  [debug, info, warn, error, silent].find? (·.name == name)

end Level

/-- Where lines are written to. -/
inductive Stream where
  | output
  | errors
  deriving DecidableEq, Repr

/-- A line that is written, in parts. -/
structure Line where
  stream : Stream
  parts : List Document
  deriving Repr, BEq

/-- A line of one text. -/
def Line.ofText (stream : Stream) (text : String) : Line := ⟨stream, [.text text]⟩

/-- Something to be logged. -/
structure Entry where
  level : Level
  scope : String
  message : String
  details : List Document := []
  deriving Repr, BEq

namespace Entry

/-- Whether an entry reaches a threshold. -/
def reaches (entry : Entry) (threshold : Level) : Bool := threshold.rank ≤ entry.level.rank

/-- The stream that entries of a level go to. -/
def stream (entry : Entry) : Stream :=
  match entry.level with
  | .debug | .info => .output
  | _ => .errors

/-- The line that an entry becomes, if it reaches the threshold. -/
def line? (threshold : Level) (entry : Entry) : Option Line :=
  if entry.reaches threshold then
    some ⟨entry.stream, .text ("[" ++ entry.scope ++ "]") :: .text entry.message :: entry.details⟩
  else none

/-- An entry is written exactly when its level is at or above the threshold. -/
theorem line?_isSome_iff (threshold : Level) (entry : Entry) :
    (entry.line? threshold).isSome ↔ threshold.rank ≤ entry.level.rank := by
  simp only [line?, reaches, decide_eq_true_eq]
  split <;> simp_all

end Entry

end Log

end FaultInjection
