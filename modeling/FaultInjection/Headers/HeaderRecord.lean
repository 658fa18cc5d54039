import FaultInjection.Headers

/-!
# Headers - The record that is sent

Headers are handed to a connection as a record: lower-case names in key order,
a value that occurs once as a text and values that occur more often as a list.

The record grows on top of a base that already knows some names.  A header with
such a name does not find an empty place: what the base holds comes first in its
list.  The name `__proto__` never becomes a field; its values gather in an
ancestor of the record, and from then on the positions, the length and the
operations of that list are known names too.

Main definitions:

- `HeaderRecord.Value`, the value of a field.
- `Headers.toRecord`, the fields that are sent.
-/

namespace FaultInjection

namespace HeaderRecord

/-- An item in the list of a field: a value, or something that the base holds. -/
inductive Item where
  | text (value : String)
  | count (value : Nat)
  | inherited
  deriving DecidableEq, Repr

/-- The value of a field: of a header that occurs once, or more often. -/
inductive Value where
  | single (value : String)
  | several (items : List Item)
  deriving DecidableEq, Repr

/-- A record under construction. -/
structure Draft where
  fields : Record Value := []
  /-- The list that stands between the record and its base, if there is one. -/
  ancestor : Option (List Item) := none
  deriving Repr

/-- The name whose values gather in the ancestor. -/
def ancestorName : String := "__proto__"

/-- The lower-case names that every record's base knows. -/
def baseNames : List String := ["constructor"]

/-- The lower-case names of the operations of a list. -/
def listNames : List String :=
  ["at", "concat", "fill", "find", "push", "pop", "reverse", "shift", "unshift", "slice", "sort",
    "splice", "includes", "join", "keys", "entries", "values", "filter", "flat", "map", "every",
    "some", "reduce", "with"]

/-- What the ancestor holds under a name. -/
def inAncestor? (items : List Item) (name : String) : Option Item :=
  match Record.index? name with
  | some i => items[i]?
  | none =>
    if name = "length" then some (.count items.length)
    else if listNames.contains name then some .inherited
    else none

/-- What a draft finds under a name that is no field of it. -/
def Draft.inherited? (d : Draft) (name : String) : Option Item :=
  if baseNames.contains name then some .inherited
  else d.ancestor.bind fun items => inAncestor? items name

/-- The draft with one more value in the ancestor. -/
def Draft.addToAncestor (d : Draft) (value : String) : Draft :=
  { d with ancestor := some (d.ancestor.getD [.inherited] ++ [.text value]) }

/-- The value of a field with one more value. -/
def Value.add (value : String) : Value → Value
  | single first => several [.text first, .text value]
  | several items => several (items ++ [.text value])

/-- The draft with one more header, its name in lower case. -/
def Draft.add (d : Draft) (name value : String) : Draft :=
  if name = ancestorName then d.addToAncestor value
  else
    let next :=
      match d.fields.get? name with
      | some old => old.add value
      | none =>
        match d.inherited? name with
        | some item => .several [item, .text value]
        | none => .single value
    { d with fields := d.fields.put name next }

end HeaderRecord

/-- The fields that are sent for a header list. -/
def Headers.toRecord (h : Headers) : Record HeaderRecord.Value :=
  (h.toList.foldl (fun (d : HeaderRecord.Draft) (name, value) => d.add (lowerCase name) value)
    {}).fields

end FaultInjection
