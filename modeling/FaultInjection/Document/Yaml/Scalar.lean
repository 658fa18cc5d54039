import FaultInjection.Document
import FaultInjection.Document.Json
import FaultInjection.Target.Parameters

/-!
# YAML - Values of scalars

A scalar without quotes is null, a truth value, a number or a text, by its form
alone.  Whole numbers are decimal, or octal and hexadecimal behind a mark; other
numbers have a point or an exponent, or are named.  A tag asks for one of these
kinds.

Main definitions:

- `Yaml.resolve`, the value of a plain scalar.
- `Yaml.tagName?`, the name of a tag, and `Yaml.tagged`, the value of a scalar with
  a tag.
-/

namespace FaultInjection

namespace Yaml

open Json (isDigit hexDigit? hexValue?)

/-- The spellings of null; a missing scalar is null too. -/
def nullWords : List String := ["", "~", "null", "Null", "NULL"]

/-- The spellings of true. -/
def trueWords : List String := ["true", "True", "TRUE"]

/-- The spellings of false. -/
def falseWords : List String := ["false", "False", "FALSE"]

/-- The spellings of infinity, behind a sign or not. -/
def infinityWords : List String := [".inf", ".Inf", ".INF"]

/-- The spellings of what is not a number. -/
def notANumberWords : List String := [".nan", ".NaN", ".NAN"]

/-- Whether a text starts with a minus sign, and what follows a sign. -/
def takeSign : List Char → Bool × List Char
  | '-' :: rest => (true, rest)
  | '+' :: rest => (false, rest)
  | cs => (false, cs)

/-- A number with the sign asked for. -/
def signed (negative : Bool) (n : Nat) : Number := .ofInt (if negative then -(n : Int) else n)

/-- The whole number that octal or hexadecimal digits behind a mark stand for. -/
def marked? : List Char → Option Number
  | '0' :: 'o' :: digits =>
    if digits.isEmpty || !digits.all (fun c => '0' ≤ c && c ≤ '7') then none
    else some (.ofNat (digits.foldl (fun n c => n * 8 + (c.toNat - '0'.toNat)) 0))
  | '0' :: 'x' :: digits =>
    if digits.isEmpty then none else (hexValue? 0 digits).map .ofNat
  | _ => none

/-- The whole number that decimal digits behind a sign stand for. -/
def decimal? (cs : List Char) : Option Number :=
  let (negative, digits) := takeSign cs
  if digits.isEmpty || !digits.all isDigit then none
  else some (signed negative (Number.decimalValue digits))

/-- The exponent at the end of a number, zero where there is none. -/
def exponent? : List Char → Option Int
  | [] => some 0
  | c :: rest =>
    if c == 'e' || c == 'E' then
      let (negative, digits) := takeSign rest
      if digits.isEmpty || !digits.all isDigit then none
      else
        let n : Int := Number.decimalValue digits
        some (if negative then -n else n)
    else none

/-- The digits behind a point and what follows them. -/
def fraction : List Char → List Char × List Char
  | '.' :: rest => (rest.takeWhile isDigit, rest.dropWhile isDigit)
  | cs => ([], cs)

/-- The number with a point or an exponent that a text stands for. -/
def floating? (cs : List Char) : Option Number := do
  let (negative, rest) := takeSign cs
  let whole := rest.takeWhile isDigit
  let (fraction, rest) := fraction (rest.dropWhile isDigit)
  if whole.isEmpty && fraction.isEmpty then none
  else return Number.ofParts negative whole fraction (← exponent? rest)

/-- The named number that a text stands for. -/
def named? (cs : List Char) : Option Number :=
  let (negative, rest) := takeSign cs
  if infinityWords.contains (String.ofList rest) then some (.infinite negative)
  else if notANumberWords.contains (String.ofList cs) then some .notANumber
  else none

/-- The whole number that a text stands for. -/
def whole? (s : String) : Option Number := marked? s.toList <|> decimal? s.toList

/-- The number with a point or an exponent, or the named number, that a text stands for. -/
def broken? (s : String) : Option Number :=
  if (decimal? s.toList).isSome then none else named? s.toList <|> floating? s.toList

/-- The truth value that a text stands for. -/
def truth? (s : String) : Option Bool :=
  if trueWords.contains s then some true
  else if falseWords.contains s then some false
  else none

/-- The value of a plain scalar. -/
def resolve (s : String) : Document :=
  if nullWords.contains s then .null
  else
    match truth? s with
    | some b => .boolean b
    | none =>
      match whole? s <|> broken? s with
      | some n => .number n
      | none => .text s

/-! ## Tags -/

/-- What the names of tags for the usual values start with. -/
def coreTag : String := "tag:yaml.org,2002:"

/-- The starts of tags' names that handles stand for. -/
abbrev Handles := List (String × String)

/-- The handles without a directive. -/
def Handles.usual : Handles := [("!!", coreTag)]

/-- The name of a tag; none where it has no name. -/
def tagName? (handles : Handles) (source : List Char) : Option String :=
  match source with
  | ['!'] => some "!"
  | '!' :: '<' :: rest =>
    let name := rest.dropLast
    if rest.getLast? ≠ some '>' || name = ['!'] || name = ['!', '!'] then none
    else some (String.ofList name)
  | source => do
    let ending := (source.reverse.takeWhile (· ≠ '!')).reverse
    let handle := String.ofList (source.take (source.length - ending.length))
    if ending.isEmpty then none
    else
      match handles.find? (·.1 = handle) with
      | some (_, start) =>
        let pieces ← (piecesAt '+' ending).mapM Parameters.decodeComponent?
        return start ++ String.intercalate "+" pieces
      | none => if handle = "!" then return String.ofList source else none

/-- The value of a scalar with a tag: a value of the kind that the tag asks for where the text
stands for one, and else the text. -/
def tagged (tag : String) (s : String) : Document :=
  if tag = coreTag ++ "null" && nullWords.contains s then .null
  else
    let value? : Option Document :=
      if tag = coreTag ++ "bool" then (truth? s).map .boolean
      else if tag = coreTag ++ "int" then (whole? s).map .number
      else if tag = coreTag ++ "float" then (broken? s).map .number
      else none
    value?.getD (.text s)

end Yaml

end FaultInjection
