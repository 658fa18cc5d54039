import FaultInjection.Document.Yaml.Node
import FaultInjection.Document.Yaml.Token

/-!
# YAML - Keys that are collections

Fields of a record have texts for names, so a key that is a collection is written
out in brackets, with the scalars as they were written.  Entries stand on one line
if they fit, and otherwise on lines of their own.

Main definitions:

- `Yaml.Node.keyText`, the text of a key.
- `Yaml.Node.fieldName`, the name of the field that a key with its value stands for.
-/

namespace FaultInjection

namespace Yaml

namespace Node

/-! ## Scalars -/

/-- Digits and a decimal point with an exponent. -/
def exponentText (n : Number) : String :=
  match n with
  | .finite units =>
    let (digits, point) := if units = 0 then (['0'], 1) else Number.shortest units.natAbs
    let power := point - 1
    let body := match digits with
      | d :: e :: rest => d :: '.' :: e :: rest
      | digits => digits
    String.ofList ((if units < 0 then ['-'] else []) ++ body ++
      'e' :: (if power < 0 then '-' else '+') :: Nat.toDigits 10 power.natAbs)
  | .infinite negative => if negative then "-.inf" else ".inf"
  | .notANumber => ".nan"

/-- A number with as many digits behind its point as it was written with. -/
def paddedText (n : Number) (written : List Char) : String :=
  let text := if written.head? = some '-' && n.toNat? = some 0 then "-0" else n.text
  let fraction := (written.dropWhile (· ≠ '.')).drop 1
  if fraction.getLast? = some '0' then
    let shown := (text.toList.dropWhile (· ≠ '.')).drop 1
    text ++ (if text.toList.contains '.' then "" else ".") ++
      String.ofList (List.replicate (fraction.length - shown.length) '0')
  else text

/-- The text of a number in the notation that it was written in. -/
def numberText (n : Number) (written : String) : String :=
  let cs := written.toList
  match n with
  | .finite units =>
    let whole := (units / Number.unitsPerOne).natAbs
    match cs with
    | '0' :: 'o' :: _ => "0o" ++ String.ofList (Nat.toDigits 8 whole)
    | '0' :: 'x' :: _ => "0x" ++ String.ofList (Nat.toDigits 16 whole)
    | cs => if cs.contains 'e' || cs.contains 'E' then exponentText n else paddedText n cs
  | n => exponentText n

/-- A text between single quotes. -/
def singleQuoted (s : String) : String :=
  "'" ++ String.ofList (s.toList.flatMap fun c => if c = '\'' then ['\'', '\''] else [c]) ++ "'"

/-- A text between the quotes that it does not hold. -/
def eitherQuoted (s : String) : String :=
  if s.toList.contains '"' && !s.toList.contains '\'' then singleQuoted s else quote s

/-- Whether a character may not start a text without quotes. -/
def isQuotedStart (c : Char) : Bool :=
  isGap c || isFlowMark c || "#&*!|>'\"%@".toList.contains c || c = Char.ofNat 0x60

/-- Whether two characters in a row would end a text or start a comment. -/
def isBreaking (c d : Char) : Bool :=
  (c = ':' && isGap d) || (isGap c && d = '#')

/-- Whether a text needs quotes within brackets. -/
def needsQuotes (cs : List Char) : Bool :=
  cs.any (fun c => isFlowMark c || c = '\n') || cs.head?.any isQuotedStart || cs = ['?'] ||
    (cs.head?.any (fun c => c = '?' || c = '-') && (cs.drop 1).head?.any isGap) ||
    (cs.zip (cs.drop 1)).any (fun (c, d) => isBreaking c d) ||
    cs.getLast?.any fun c => isGap c || c = ':' || c = '-'

/-- A scalar as it is written within brackets. -/
def scalarText (s : Scalar) : String :=
  match s.value with
  | .number n => numberText n s.text
  | .text t =>
    match s.style with
    | .plain => if needsQuotes t.toList then eitherQuoted t else t
    | .single => singleQuoted t
    | .double => quote t
    | .block => eitherQuoted t
  | _ => s.text

/-! ## Collections -/

/-- How wide a line is at most. -/
def lineWidth : Nat := 80

/-- A line break with spaces behind it. -/
def newLine (indent : Nat) : String := String.ofList ('\n' :: List.replicate indent ' ')

/-- Entries with commas behind all but the last. -/
def withCommas : List String → List String
  | [] => []
  | [last] => [last]
  | entry :: rest => (entry ++ ",") :: withCommas rest

/-- Entries between brackets. -/
def bracketed (opening closing : String) (indent : Nat) (entries : List String) : String :=
  let lines := withCommas entries
  let width := lines.foldl (fun n line => n + line.length + 2) 2
  if lines.isEmpty then opening ++ closing
  else if lineWidth < width || lines.any (·.toList.contains '\n') then
    opening ++ String.join (lines.map fun line => newLine (indent + 2) ++ line) ++
      newLine indent ++ closing
  else opening ++ " " ++ String.intercalate " " lines ++ " " ++ closing

/-- Whether a key within brackets gets a mark. -/
def isMarkedKey {α : Type} : Node α → Bool
  | scalar s => s.style = .block
  | anchored _ node => node.isMarkedKey
  | _ => true

/-- Whether a node is a collection. -/
def isCollection {α : Type} : Node α → Bool
  | list _ => true
  | mapping _ => true
  | anchored _ node => node.isCollection
  | _ => false

/-- A pair with a value, from the texts of both. -/
def pairText (indent : Nat) (marked collection : Bool) (key value : String) : String :=
  let start := if marked then "? " ++ key ++ newLine indent ++ ":" else key ++ ":"
  let gap :=
    if value = "" || value.toList.head? = some '\n' then ""
    else if !marked && collection && value.toList.contains '\n' then newLine (indent + 2)
    else " "
  start ++ gap ++ value

/-- A key without a value, from its text. -/
def keyOnlyText (marked : Bool) (key : String) : String :=
  if key = "" then "?" else if marked then "? " ++ key else key

mutual

/-- A node as it is written within brackets. -/
def innerText (name : α → String) (indent : Nat) : Node α → String
  | scalar s => scalarText s
  | reference a => "*" ++ name a
  | anchored a node => "&" ++ name a ++ " " ++ innerText name indent node
  | list items => bracketed "[" "]" indent (itemTexts name (indent + 4) items)
  | mapping pairs => bracketed "\x7b" "\x7d" indent (pairTexts name (indent + 2) pairs)

/-- The items of a list as they are written. -/
def itemTexts (name : α → String) (indent : Nat) : List (Node α) → List String
  | [] => []
  | item :: rest => innerText name indent item :: itemTexts name indent rest

/-- The pairs of a mapping as they are written. -/
def pairTexts (name : α → String) (indent : Nat) :
    List (Node α × Option (Node α)) → List String
  | [] => []
  | (key, some value) :: rest =>
    pairText indent key.isMarkedKey value.isCollection (innerText name (indent + 2) key)
      (innerText name (indent + 2) value) :: pairTexts name indent rest
  | (key, none) :: rest =>
    keyOnlyText key.isMarkedKey (innerText name (indent + 2) key) :: pairTexts name indent rest

end

/-- The text of a key that is not a scalar. -/
def keyText (name : α → String) : Node α → String
  | anchored _ node => keyText name node
  | node => innerText name 0 node

/-- The name of the field that a key with its value stands for; that of null is empty. -/
def fieldName (name : α → String) (key : Node α) : Document → String
  | .null => ""
  | .list _ => keyText name key
  | .record _ => keyText name key
  | d => d.plainText

end Node

end Yaml

end FaultInjection
