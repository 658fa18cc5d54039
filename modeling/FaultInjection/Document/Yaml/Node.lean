import FaultInjection.Document.Yaml.Scalar

/-!
# YAML - Nodes

A document is a tree of nodes, in which a node may be named by an anchor, and a
reference stands for the last node of its name that starts before it.  No two keys
of a mapping are the same scalar.

Main definitions:

- `Yaml.Node`, whose anchors have names of some type.
- `Yaml.Node.hasKey`, whether a scalar is a key already.
-/

namespace FaultInjection

namespace Yaml

/-- How a scalar is written. -/
inductive Style where
  | plain
  | single
  | double
  | block
  deriving DecidableEq, Repr

/-- A scalar: its value, its text, and how it is written. -/
structure Scalar where
  value : Document
  text : String
  style : Style
  deriving Repr

/-- A node of a document. -/
inductive Node (α : Type) where
  | scalar (scalar : Scalar)
  | list (items : List (Node α))
  /-- A value may be missing altogether. -/
  | mapping (pairs : List (Node α × Option (Node α)))
  | reference (name : α)
  | anchored (name : α) (node : Node α)
  deriving Repr

namespace Node

variable {α : Type}

/-- The value of a scalar, named or not. -/
def scalarValue? : Node α → Option Document
  | scalar s => some s.value
  | anchored _ node => node.scalarValue?
  | _ => none

/-- Whether two scalars have the same value; what is not a number differs from itself. -/
def sameValue : Document → Document → Bool
  | .number a, .number b => a.same b
  | .text a, .text b => a == b
  | .boolean a, .boolean b => a == b
  | .null, .null => true
  | _, _ => false

/-- Whether two keys are the same scalar. -/
def sameKey (a b : Node α) : Bool :=
  match a.scalarValue?, b.scalarValue? with
  | some a, some b => sameValue a b
  | _, _ => false

/-- Whether a scalar is a key of some pairs. -/
def hasKey (key : Node α) (pairs : List (Node α × Option (Node α))) : Bool :=
  pairs.any fun pair => pair.1.sameKey key

end Node

end Yaml

end FaultInjection
