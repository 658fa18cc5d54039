import FaultInjection.Document
import FaultInjection.Text.Encoding

/-!
# Documents - The JSON notation

A text in the JSON notation is read strictly: no comments, no trailing commas,
no leading zeros, no control characters inside strings, and nothing but spaces,
tabs and line breaks around values.  A key that occurs twice keeps its first
place and its last value.  Two escapes that spell the halves of a surrogate pair
are one character; an escape that spells a surrogate on its own, which texts do not
have, is read as the replacement character U+FFFD.

Every reader takes fuel and is given more than the text is long, so that the
fuel never decides the answer.

Main definitions:

- `Document.ofJson?`, the document that a text stands for.
-/

namespace FaultInjection

namespace Json

/-- Characters that may stand between tokens. -/
def isSpace (c : Char) : Bool := c == ' ' || c == '\t' || c == '\n' || c == '\r'

/-- The text without spaces at its start. -/
def skipSpaces (cs : List Char) : List Char := cs.dropWhile isSpace

/-- Whether a character is a decimal digit. -/
def isDigit (c : Char) : Bool := '0' ≤ c && c ≤ '9'

/-- The value of a hexadecimal digit. -/
def hexDigit? (c : Char) : Option Nat :=
  if '0' ≤ c && c ≤ '9' then some (c.toNat - '0'.toNat)
  else if 'a' ≤ c && c ≤ 'f' then some (c.toNat - 'a'.toNat + 10)
  else if 'A' ≤ c && c ≤ 'F' then some (c.toNat - 'A'.toNat + 10)
  else none

/-- The value of hexadecimal digits, none where another character occurs. -/
def hexValue? (value : Nat) : List Char → Option Nat
  | [] => some value
  | c :: rest => do hexValue? (value * 16 + (← hexDigit? c)) rest

/-! ## Numbers -/

/-- The exponent mark with its digits, zero where there is no mark. -/
def exponent? : List Char → Option (Int × List Char)
  | c :: rest =>
    if c == 'e' || c == 'E' then
      let (negative, rest) :=
        match rest with
        | '-' :: r => (true, r)
        | '+' :: r => (false, r)
        | r => (false, r)
      let digits := rest.takeWhile isDigit
      if digits.isEmpty then none
      else
        let n : Int := Number.decimalValue digits
        some (if negative then -n else n, rest.dropWhile isDigit)
    else some (0, c :: rest)
  | [] => some (0, [])

/-- The digits after a point, none where there is no point. -/
def fraction? : List Char → Option (List Char × List Char)
  | '.' :: rest =>
    let digits := rest.takeWhile isDigit
    if digits.isEmpty then none else some (digits, rest.dropWhile isDigit)
  | rest => some ([], rest)

/-- The whole part of a number: zero, or digits that do not start with zero. -/
def whole? : List Char → Option (List Char × List Char)
  | '0' :: rest => some (['0'], rest)
  | cs =>
    let digits := cs.takeWhile isDigit
    if digits.isEmpty then none else some (digits, cs.dropWhile isDigit)

/-- The number at the start of a text. -/
def number? (cs : List Char) : Option (Number × List Char) := do
  let (negative, cs) := match cs with
    | '-' :: r => (true, r)
    | r => (false, r)
  let (whole, cs) ← whole? cs
  let (fraction, cs) ← fraction? cs
  let (exponent, cs) ← exponent? cs
  return (Number.ofParts negative whole fraction exponent, cs)

/-! ## Strings -/

/-- The character of a simple escape. -/
def simpleEscape? (c : Char) : Option Char :=
  if c = '"' || c = '\\' || c = '/' then some c
  else if c = 'b' then some (Char.ofNat 8)
  else if c = 'f' then some (Char.ofNat 12)
  else if c = 'n' then some '\n'
  else if c = 'r' then some '\r'
  else if c = 't' then some '\t'
  else none

/-- The code of a four-digit escape whose digits stand at the start of a text. -/
def code? : List Char → Option (Nat × List Char)
  | a :: b :: c :: d :: rest => do return (← hexValue? 0 [a, b, c, d], rest)
  | _ => none

/-- Whether a code is the first of a surrogate pair. -/
def isHighSurrogate (code : Nat) : Bool := 0xd800 ≤ code && code < 0xdc00

/-- Whether a code is the second of a surrogate pair. -/
def isLowSurrogate (code : Nat) : Bool := 0xdc00 ≤ code && code < 0xe000

/-- The character of a code; a surrogate on its own is no character and is replaced. -/
def codeChar (code : Nat) : Char :=
  if isHighSurrogate code || isLowSurrogate code then Utf8.replacement else Char.ofNat code

/-- The character of a four-digit escape, which a second one may complete to a pair. -/
def codeEscape? (cs : List Char) : Option (Char × List Char) := do
  let (high, rest) ← code? cs
  match rest with
  | '\\' :: 'u' :: after =>
    match code? after with
    | some (low, rest') =>
      if isHighSurrogate high && isLowSurrogate low then
        return (Char.ofNat (0x10000 + (high - 0xd800) * 0x400 + (low - 0xdc00)), rest')
      else return (codeChar high, rest)
    | none => return (codeChar high, rest)
  | _ => return (codeChar high, rest)

/-- The characters up to the closing quote, and what follows it. -/
def stringBody? : Nat → List Char → Option (List Char × List Char)
  | 0, _ => none
  | _ + 1, [] => none
  | _ + 1, '"' :: rest => some ([], rest)
  | fuel + 1, '\\' :: 'u' :: rest => do
    let (c, rest) ← codeEscape? rest
    let (cs, rest) ← stringBody? fuel rest
    return (c :: cs, rest)
  | fuel + 1, '\\' :: e :: rest => do
    let c ← simpleEscape? e
    let (cs, rest) ← stringBody? fuel rest
    return (c :: cs, rest)
  | fuel + 1, c :: rest => do
    if c.toNat < 0x20 || c = '\\' then none
    else
      let (cs, rest) ← stringBody? fuel rest
      return (c :: cs, rest)

/-! ## Values -/

/-- The rest of a text after a word at its start. -/
def word? : List Char → List Char → Option (List Char)
  | [], cs => some cs
  | w :: word, c :: cs => if w = c then word? word cs else none
  | _ :: _, [] => none

mutual

/-- The value at the start of a text, after spaces. -/
def value? : Nat → List Char → Option (Document × List Char)
  | 0, _ => none
  | fuel + 1, cs =>
    match skipSpaces cs with
    | [] => none
    | '"' :: rest => do
      let (s, rest) ← stringBody? fuel rest
      return (.text (String.ofList s), rest)
    | '[' :: rest =>
      match skipSpaces rest with
      | ']' :: rest => some (.list [], rest)
      | rest => do
        let (items, rest) ← items? fuel rest
        return (.list items, rest)
    | '\x7b' :: rest =>
      match skipSpaces rest with
      | '\x7d' :: rest => some (.record [], rest)
      | rest => do
        let (fields, rest) ← fields? fuel rest
        return (.record (Record.ofFields fields), rest)
    | 't' :: rest => do return (.boolean true, ← word? ['r', 'u', 'e'] rest)
    | 'f' :: rest => do return (.boolean false, ← word? ['a', 'l', 's', 'e'] rest)
    | 'n' :: rest => do return (.null, ← word? ['u', 'l', 'l'] rest)
    | cs => do
      let (n, rest) ← number? cs
      return (.number n, rest)

/-- One or more items up to the closing bracket. -/
def items? : Nat → List Char → Option (List Document × List Char)
  | 0, _ => none
  | fuel + 1, cs => do
    let (item, rest) ← value? fuel cs
    match skipSpaces rest with
    | ',' :: rest =>
      let (items, rest) ← items? fuel rest
      return (item :: items, rest)
    | ']' :: rest => return ([item], rest)
    | _ => none

/-- One or more fields up to the closing brace. -/
def fields? : Nat → List Char → Option (List (String × Document) × List Char)
  | 0, _ => none
  | fuel + 1, cs =>
    match skipSpaces cs with
    | '"' :: rest => do
      let (key, rest) ← stringBody? fuel rest
      match skipSpaces rest with
      | ':' :: rest =>
        let (item, rest) ← value? fuel rest
        let field := (String.ofList key, item)
        match skipSpaces rest with
        | ',' :: rest =>
          let (fields, rest) ← fields? fuel rest
          return (field :: fields, rest)
        | '\x7d' :: rest => return ([field], rest)
        | _ => none
      | _ => none
    | _ => none

end

end Json

/-- The document that a text in the JSON notation stands for. -/
def Document.ofJson? (s : String) : Option Document := do
  let cs := s.toList
  let (document, rest) ← Json.value? (2 * cs.length + 2) cs
  if (Json.skipSpaces rest).isEmpty then some document else none

end FaultInjection
