import FaultInjection.Document.Yaml.Token

/-!
# YAML - Layouts

A layout is the tree of nodes that tokens are laid out as, with every token in it:
what a collection holds are entries, and an entry has tokens before its key,
between its key and its value, and the key and the value themselves.  A layout may
be wrong in many ways; that is found out when its tokens are read.

Main definitions:

- `Yaml.Layout` and `Yaml.Entry`.
- `Yaml.Layout.normal`, a list in brackets whose entries without a colon are values.
-/

namespace FaultInjection

namespace Yaml

/-- An entry of a collection.  Tokens between key and value are there as soon as there is a key,
or a colon; an item of a list has a value only. -/
structure Entry (α : Type) where
  start : List Token := []
  /-- Whether a key is marked as one. -/
  explicit : Bool := false
  key : Option α := none
  sep : Option (List Token) := none
  value : Option α := none

/-- A node with its tokens; the entries of a collection are there with the last one first. -/
inductive Layout where
  /-- A scalar or reference within lines, with the tokens behind it on its line. -/
  | scalar (kind : Kind) (offset indent : Nat) (source : List Char) (tail : List Token)
  /-- A block scalar, indented as what holds it. -/
  | text (offset indent : Nat) (header : List Token) (source : List Char)
  | mapping (offset indent : Nat) (entries : List (Entry Layout))
  | list (offset indent : Nat) (entries : List (Entry Layout))
  /-- A collection in brackets, with the tokens from its closing bracket on. -/
  | flow (offset indent : Nat) (opening : Token) (entries : List (Entry Layout))
      (tail : List Token)

namespace Layout

/-- The indentation of a node. -/
def indent : Layout → Nat
  | scalar _ _ indent _ _ => indent
  | text _ indent _ _ => indent
  | mapping _ indent _ => indent
  | list _ indent _ => indent
  | flow _ indent _ _ _ => indent

/-- The place of a node. -/
def offset : Layout → Nat
  | scalar _ offset _ _ _ => offset
  | text offset _ _ _ => offset
  | mapping offset _ _ => offset
  | list offset _ _ => offset
  | flow offset _ _ _ _ => offset

/-- Whether a node is a collection laid out by indentation. -/
def isBlock : Layout → Bool
  | mapping .. => true
  | list .. => true
  | _ => false

/-- Whether a node is laid out within lines. -/
def isInline : Layout → Bool
  | scalar .. => true
  | flow .. => true
  | _ => false

/-- The tokens behind a node on its line, if the node has such tokens. -/
def tail? : Layout → Option (List Token)
  | scalar _ _ _ _ tail => some tail
  | flow _ _ _ _ tail => some tail
  | _ => none

/-- A node with more tokens behind it. -/
def extend (more : List Token) : Layout → Layout
  | scalar kind offset indent source tail => scalar kind offset indent source (tail ++ more)
  | flow offset indent opening entries tail => flow offset indent opening entries (tail ++ more)
  | layout => layout

/-- An entry of a list in brackets: what looks like a key without a colon is a value, and what
follows it stands behind that value. -/
def normalEntry (entry : Entry Layout) : Entry Layout :=
  match entry.sep with
  | none => entry
  | some sep =>
    if entry.value.isSome || hasKind .question entry.start || hasKind .colon sep then entry
    else
      match entry.key with
      | none => { entry with start := entry.start ++ sep, sep := none }
      | some key =>
        if key.isInline then
          { entry with key := none, sep := none, value := some (key.extend sep) }
        else
          { entry with start := entry.start ++ sep, key := none, sep := none, value := some key }

/-- A list in brackets whose entries without a colon are values. -/
def normal : Layout → Layout
  | flow offset indent opening entries tail =>
    if opening.kind = .openBracket then
      flow offset indent opening (entries.map normalEntry) tail
    else flow offset indent opening entries tail
  | layout => layout

end Layout

/-- A part of a text: a directive, a document, or the mark of a document's end. -/
inductive Part where
  | directive (source : List Char)
  | document (start : List Token) (value : Option Layout) (tail : List Token)
  | finish (tail : List Token)

end Yaml

end FaultInjection
