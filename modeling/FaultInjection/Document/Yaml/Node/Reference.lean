import FaultInjection.Document.Yaml.Node.KeyText

/-!
# YAML - References

A reference stands for the last node of its name that starts before it.  Such a
node may hold the reference itself; then its value has no end, and it is given down
to some depth.  A document may not grow much by its references: a node counts for
as much as the scalar in it that stands for most, and no node may count for more
than a limit, each reference to it counted.

Main definitions:

- `Yaml.Node.linked?`, a node whose anchors are numbered and whose references have
  a node.
- `Yaml.Tally`, and `Yaml.Node.tally?`, which fails above the limit.
- `Yaml.Node.document?`, the value of a node.
-/

namespace FaultInjection

namespace Yaml

/-- The name of an anchor, and how many anchors start before it. -/
structure Anchor where
  name : String
  number : Nat
  deriving DecidableEq, Repr

/-- The anchors so far, the last one first. -/
abbrev Anchors := List Anchor

/-- A node that is reached by references only through a number of anchors. -/
abbrev Linked := Node Anchor

namespace Node

/-! ## Numbers for anchors -/

mutual

/-- A node with its anchors numbered, and the anchors behind it. -/
def link? (anchors : Anchors) : Node String → Option (Linked × Anchors)
  | scalar s => some (scalar s, anchors)
  | reference name => (anchors.find? (·.name = name)).map fun anchor => (reference anchor, anchors)
  | anchored name node => do
    let anchor : Anchor := ⟨name, anchors.length⟩
    let (node, anchors) ← link? (anchor :: anchors) node
    return (anchored anchor node, anchors)
  | list items => do
    let (items, anchors) ← linkItems? anchors items
    return (list items, anchors)
  | mapping pairs => do
    let (pairs, anchors) ← linkPairs? anchors pairs
    return (mapping pairs, anchors)

/-- Items with their anchors numbered, one after the other. -/
def linkItems? (anchors : Anchors) : List (Node String) → Option (List Linked × Anchors)
  | [] => some ([], anchors)
  | item :: rest => do
    let (item, anchors) ← link? anchors item
    let (rest, anchors) ← linkItems? anchors rest
    return (item :: rest, anchors)

/-- Pairs with their anchors numbered, one after the other. -/
def linkPairs? (anchors : Anchors) :
    List (Node String × Option (Node String)) → Option (List (Linked × Option Linked) × Anchors)
  | [] => some ([], anchors)
  | (key, none) :: rest => do
    let (key, anchors) ← link? anchors key
    let (rest, anchors) ← linkPairs? anchors rest
    return ((key, none) :: rest, anchors)
  | (key, some value) :: rest => do
    let (key, anchors) ← link? anchors key
    let (value, anchors) ← link? anchors value
    let (rest, anchors) ← linkPairs? anchors rest
    return ((key, some value) :: rest, anchors)

end

/-- A node with its anchors numbered; none where a reference has no node. -/
def linked? (node : Node String) : Option Linked := (node.link? []).map Prod.fst

mutual

/-- The nodes that have anchors, in the order of their numbers. -/
def targets : Linked → List Linked
  | scalar _ => []
  | reference _ => []
  | anchored _ node => node :: targets node
  | list items => itemTargets items
  | mapping pairs => pairTargets pairs

/-- The nodes among items that have anchors. -/
def itemTargets : List Linked → List Linked
  | [] => []
  | item :: rest => targets item ++ itemTargets rest

/-- The nodes among pairs that have anchors. -/
def pairTargets : List (Linked × Option Linked) → List Linked
  | [] => []
  | (key, none) :: rest => targets key ++ pairTargets rest
  | (key, some value) :: rest => targets key ++ targets value ++ pairTargets rest

end

end Node

/-! ## The limit -/

/-- What is counted for a node with an anchor: itself with the references to it, and for how much
each of them stands; that is zero as long as it is not known. -/
structure Count where
  uses : Nat := 0
  weight : Nat := 0
  deriving DecidableEq, Repr

/-- The counts of the nodes with anchors, by their numbers. -/
abbrev Tally := Array Count

/-- For how much a node may stand with all references to it. -/
def largestCount : Nat := 100

namespace Node

/-- For how much all references to a node stand so far. -/
def counted (tally : Tally) (anchor : Anchor) : Nat :=
  let count := tally[anchor.number]?.getD {}
  count.uses * count.weight

mutual

/-- For how much a node stands: the most that a scalar or reference in it does. -/
def weight (tally : Tally) : Linked → Nat
  | scalar _ => 1
  | reference anchor => counted tally anchor
  | anchored _ node => weight tally node
  | list items => itemsWeight tally items
  | mapping pairs => pairsWeight tally pairs

/-- The most that one of some items stands for. -/
def itemsWeight (tally : Tally) : List Linked → Nat
  | [] => 0
  | item :: rest => max (weight tally item) (itemsWeight tally rest)

/-- The most that a key or value of some pairs stands for; a missing value counts as a scalar. -/
def pairsWeight (tally : Tally) : List (Linked × Option Linked) → Nat
  | [] => 0
  | (key, none) :: rest => max (max (weight tally key) 1) (pairsWeight tally rest)
  | (key, some value) :: rest =>
    max (max (weight tally key) (weight tally value)) (pairsWeight tally rest)

end

/-- The tally with one more reference to a node, within the limit. -/
def refer? (targets : Array Linked) (tally : Tally) (anchor : Anchor) : Option Tally :=
  let count := tally[anchor.number]?.getD {}
  let count := { count with uses := count.uses + 1 }
  let tally := tally.setIfInBounds anchor.number count
  let count :=
    if count.weight = 0 then
      { count with weight := (targets[anchor.number]?.map (weight tally)).getD 0 }
    else count
  if largestCount < count.uses * count.weight then none
  else some (tally.setIfInBounds anchor.number count)

mutual

/-- The tally behind a node, within the limit. -/
def tally? (targets : Array Linked) (tally : Tally) : Linked → Option Tally
  | scalar _ => some tally
  | reference anchor => refer? targets tally anchor
  | anchored anchor node => tally? targets (tally.setIfInBounds anchor.number { uses := 1 }) node
  | list items => tallyItems? targets tally items
  | mapping pairs => tallyPairs? targets tally pairs

/-- The tally behind items. -/
def tallyItems? (targets : Array Linked) (tally : Tally) : List Linked → Option Tally
  | [] => some tally
  | item :: rest => do tallyItems? targets (← tally? targets tally item) rest

/-- The tally behind pairs. -/
def tallyPairs? (targets : Array Linked) (tally : Tally) :
    List (Linked × Option Linked) → Option Tally
  | [] => some tally
  | (key, none) :: rest => do tallyPairs? targets (← tally? targets tally key) rest
  | (key, some value) :: rest => do
    let tally ← tally? targets tally key
    tallyPairs? targets (← tally? targets tally value) rest

end

/-! ## Values -/

/-- A value without what is in it. -/
def outline {α : Type} : Node α → Document
  | scalar s => s.value
  | list _ => .list []
  | mapping _ => .record []
  | anchored _ node => node.outline
  | reference _ => .null

mutual

/-- The value of a node, when the values of the nodes with anchors are given. -/
def valueWith (values : Array Document) : Linked → Document
  | scalar s => s.value
  | reference anchor => values[anchor.number]?.getD .null
  | anchored _ node => valueWith values node
  | list items => .list (itemValues values items)
  | mapping pairs => .record (Record.ofFields (fieldValues values pairs))

/-- The values of items. -/
def itemValues (values : Array Document) : List Linked → List Document
  | [] => []
  | item :: rest => valueWith values item :: itemValues values rest

/-- The fields that pairs stand for. -/
def fieldValues (values : Array Document) :
    List (Linked × Option Linked) → List (String × Document)
  | [] => []
  | (key, none) :: rest =>
    (fieldName Anchor.name key (valueWith values key), .null) :: fieldValues values rest
  | (key, some value) :: rest =>
    (fieldName Anchor.name key (valueWith values key), valueWith values value) ::
      fieldValues values rest

end

/-- The values of the nodes with anchors, down to a depth of references. -/
def targetValues (targets : Array Linked) : Nat → Array Document
  | 0 => targets.map outline
  | depth + 1 =>
    let values := targetValues targets depth
    targets.map (valueWith values)

/-- How many references deep a value is given, which is deeper than rules are nested. -/
def referenceDepth : Nat := 16

/-- The value of a node; none where a reference has no node, or above the limit. -/
def document? (node : Node String) : Option Document := do
  let node ← node.linked?
  let targets := node.targets.toArray
  let _ ← node.tally? targets (Array.replicate targets.size {})
  return node.valueWith (targetValues targets referenceDepth)

end Node

end Yaml

end FaultInjection
