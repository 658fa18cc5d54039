import FaultInjection.Config.Issue

/-!
# Configuration - Checks

A check looks at a value that may be missing and either accepts it, with what it
stands for, or rejects it with all its issues.  Checks of several parts are made
side by side, so that no issue hides another.

A rejection also tells whether the value is of the right kind and only fails a
test.  Where one of two notations may be used, the issues of the first notation
of the right kind are reported, or that no notation fits.

Main definitions:

- `Checked`, the result of a check, and its operations `map`, `both`, `all`.
- `Checked.firstOf`, the choice between notations.
- `Checked.optional`, a part that may be missing or null.

Main results:

- `Checked.issues_both`: the issues of two checks are reported one after the other.
-/

namespace FaultInjection

/-- The result of a check. -/
inductive Checked (α : Type) where
  | accepted (value : α)
  /-- `kindFits` tells that the value is of the right kind and fails a test. -/
  | rejected (issues : List Issue) (kindFits : Bool)
  deriving Repr

/-- A check of a value that may be missing. -/
abbrev Check (α : Type) := Option Document → Checked α

namespace Checked

variable {α β γ : Type}

/-- A rejection of a value of the wrong kind. -/
def wrongKind (cause : Issue.Cause) : Checked α := rejected [{ cause }] false

/-- A rejection of a value of the right kind. -/
def unfit (causes : List Issue.Cause) : Checked α :=
  rejected (causes.map fun cause => { cause }) true

/-- An accepted value that must pass tests; the causes are those of the tests that fail. -/
def tested (value : α) (causes : List Issue.Cause) : Checked α :=
  if causes.isEmpty then accepted value else unfit causes

/-- The issues of a check. -/
def issues : Checked α → List Issue
  | accepted _ => []
  | rejected issues _ => issues

/-- The accepted value. -/
def value? : Checked α → Option α
  | accepted value => some value
  | rejected .. => none

/-- What the accepted value stands for. -/
def map (f : α → β) : Checked α → Checked β
  | accepted value => accepted (f value)
  | rejected issues kindFits => rejected issues kindFits

/-- Two checks side by side. -/
def both : Checked α → Checked β → Checked (α × β)
  | accepted a, accepted b => accepted (a, b)
  | accepted _, rejected issues kindFits => rejected issues kindFits
  | rejected issues kindFits, accepted _ => rejected issues kindFits
  | rejected issues kindFits, rejected issues' kindFits' =>
    rejected (issues ++ issues') (kindFits && kindFits')

/-- A list of checks side by side. -/
def all : List (Checked α) → Checked (List α)
  | [] => accepted []
  | check :: rest => (both check (all rest)).map fun (a, as) => a :: as

/-- The check of a part of a value. -/
def under (step : Issue.Step) : Checked α → Checked α
  | accepted value => accepted value
  | rejected issues kindFits => rejected (issues.map (Issue.under step)) kindFits

/-- A check whose value is read in another form; its rejections are of the wrong kind. -/
def reading (f : α → β) : Checked α → Checked β
  | accepted value => accepted (f value)
  | rejected issues _ => rejected issues false

/-- The issues of the first notation that is of the right kind. -/
def firstUnfit : List (Checked α) → Checked α
  | [] => wrongKind .noAlternative
  | rejected issues true :: _ => rejected issues true
  | _ :: rest => firstUnfit rest

/-- The first notation that is accepted, or else the issues of the first of the right kind. -/
def firstOf (checks : List (Checked α)) : Checked α :=
  match checks.findSome? value? with
  | some value => accepted value
  | none => firstUnfit checks

/-! ## Checks of documents -/

/-- The check of a part that may be missing or null. -/
def optional (check : Check α) : Check (Option α)
  | none => accepted none
  | some .null => accepted none
  | some document => (check (some document)).map some

/-- The check of a field of a record. -/
def field (fields : List (String × Document)) (key : String) (check : Check α) : Checked α :=
  (check (Record.get? key fields)).under (.key key)

/-- The check of each item of a list, from a position on. -/
def items (check : Check α) : Nat → List Document → List (Checked α)
  | _, [] => []
  | index, item :: rest => (check (some item)).under (.item index) :: items check (index + 1) rest

/-- The check of a text. -/
def text : Check String
  | none => wrongKind .missing
  | some (.text s) => accepted s
  | some d => wrongKind (.wrongKind .text (.ofDocument d))

/-- The check of a truth value. -/
def boolean : Check Bool
  | none => wrongKind .missing
  | some (.boolean b) => accepted b
  | some d => wrongKind (.wrongKind .boolean (.ofDocument d))

/-- The check of a number, under tests. -/
def number (failing : Number → List Issue.Cause) : Check Number
  | none => wrongKind .missing
  | some (.number .notANumber) => wrongKind (.wrongKind .number .notANumber)
  | some (.number n) => tested n (failing n)
  | some d => wrongKind (.wrongKind .number (.ofDocument d))

/-- The check of a list by a check of its items. -/
def list (check : Check α) : Check (List α)
  | none => wrongKind .missing
  | some (.list documents) => all (items check 0 documents)
  | some d => wrongKind (.wrongKind .list (.ofDocument d))

/-- The check of a record by a check of its fields. -/
def record (check : List (String × Document) → Checked α) : Check α
  | none => wrongKind .missing
  | some (.record fields) => check fields
  | some d => wrongKind (.wrongKind .record (.ofDocument d))

/-- The issues of two checks are reported one after the other. -/
theorem issues_both (a : Checked α) (b : Checked β) :
    (both a b).issues = a.issues ++ b.issues := by
  cases a <;> cases b <;> simp [both, issues]

end Checked

end FaultInjection
