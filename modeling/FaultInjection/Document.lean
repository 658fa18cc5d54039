import FaultInjection.Number.Decimal
import FaultInjection.Record
import FaultInjection.Text.Encoding

/-!
# Documents - Decoded values

Rule files decode to documents: null, truth values, numbers, texts, lists and
records.  A document has a plain text, in which lists are joined by commas and
records are not shown, and a written form in the usual notation of braces and
brackets.

A text, here and in all of the library, is a sequence of Unicode scalar values.  A
surrogate without its other half is no character of a text: where a notation spells
one, the replacement character U+FFFD stands in its place.

Main definitions:

- `Document`, a decoded value.
- `Document.plainText`, the text of a value inside a message.
- `Document.written`, the written form, in which a number without finite value
  is null.
-/

namespace FaultInjection

/-- A decoded value. -/
inductive Document where
  | null
  | boolean (value : Bool)
  | number (value : Number)
  /-- A sequence of Unicode scalar values. -/
  | text (value : String)
  | list (items : List Document)
  | record (fields : List (String × Document))
  deriving Repr, Inhabited, BEq

namespace Document

/-- The value of a key of a record. -/
def field? (key : String) : Document → Option Document
  | record fields => Record.get? key fields
  | _ => none

/-! ## Plain text -/

mutual

/-- The text of a value inside a message. -/
def plainText : Document → String
  | null => "null"
  | boolean b => if b then "true" else "false"
  | number n => n.text
  | text s => s
  | list items => String.intercalate "," (itemTexts items)
  | record _ => "[object Object]"

/-- The texts of the items of a list, in which null is empty. -/
def itemTexts : List Document → List String
  | [] => []
  | null :: rest => "" :: itemTexts rest
  | item :: rest => plainText item :: itemTexts rest

end

/-! ## Written form -/

mutual

/-- The written form of a value, without blanks. -/
def written : Document → String
  | null => "null"
  | boolean b => if b then "true" else "false"
  | number n => if n.isFinite then n.text else "null"
  | text s => quote s
  | list items => "[" ++ String.intercalate "," (writtenItems items) ++ "]"
  | record fields => "\x7b" ++ String.intercalate "," (writtenFields fields) ++ "\x7d"

/-- The written forms of the items of a list. -/
def writtenItems : List Document → List String
  | [] => []
  | item :: rest => written item :: writtenItems rest

/-- The written forms of the fields of a record. -/
def writtenFields : List (String × Document) → List String
  | [] => []
  | (key, value) :: rest => (quote key ++ ":" ++ written value) :: writtenFields rest

end

mutual

/-- The value that the written form reads back as: numbers without finite value become null. -/
def settled : Document → Document
  | number n => if n.isFinite then number n else null
  | list items => list (settledItems items)
  | record fields => record (settledFields fields)
  | d => d

/-- The items of a list, each settled. -/
def settledItems : List Document → List Document
  | [] => []
  | item :: rest => settled item :: settledItems rest

/-- The fields of a record, each settled. -/
def settledFields : List (String × Document) → List (String × Document)
  | [] => []
  | (key, value) :: rest => (key, settled value) :: settledFields rest

end

/-- A record from the fields that are present. -/
def ofPresent (fields : List (String × Option Document)) : Document :=
  record (fields.filterMap fun (key, value?) => value?.map (key, ·))

end Document

end FaultInjection
