import FaultInjection.Document.Json
import FaultInjection.Document.Yaml.Token
import FaultInjection.Text.Pieces

/-!
# YAML - Texts of scalars within lines

A scalar that goes on over lines is folded: blanks around a line break are left
out, one break becomes a space, and of several the first is left out.  A single
quote is written twice between single quotes; between double quotes a backslash
starts an escape, and one before a line break takes the break away.

Main definitions:

- `Yaml.folded`, a text with its lines folded.
- `Yaml.plainText?`, `Yaml.singleQuotedText?` and `Yaml.doubleQuotedText?`, the text
  that a scalar stands for.
-/

namespace FaultInjection

namespace Yaml

open Json (hexValue? isHighSurrogate isLowSurrogate codeChar)

/-- Whether a character is a space or a tab. -/
def isInlineBlank (c : Char) : Bool := c == ' ' || c == '\t'

/-! ## Folding -/

/-- A line without the blanks at its end, and without the first character of a longer break. -/
def trimEnd (line : List Char) : List Char :=
  let reversed := match line.reverse with
    | '\r' :: rest => rest
    | rest => rest
  (reversed.dropWhile isInlineBlank).reverse

/-- A line without the blanks around it. -/
def trimLine (line : List Char) : List Char := trimEnd (line.dropWhile isInlineBlank)

/-- The text behind the first line; `broken` tells that a line before was empty. -/
def foldLines (broken : Bool) : List (List Char) → List Char
  | [] => []
  | [last] => (if broken then '\n' else ' ') :: last.dropWhile isInlineBlank
  | line :: rest =>
    let text := trimLine line
    if text.isEmpty then if broken then '\n' :: foldLines true rest else foldLines true rest
    else (if broken then '\n' else ' ') :: text ++ foldLines false rest

/-- A text with its lines folded. -/
def folded (source : List Char) : List Char :=
  match piecesAt '\n' source with
  | first :: second :: rest => trimEnd first ++ foldLines false (second :: rest)
  | _ => source

/-! ## Plain and single-quoted scalars -/

/-- Whether a character may not start a plain scalar. -/
def isReservedStart (c : Char) : Bool :=
  c == '\t' || c == ',' || c == '%' || c == '|' || c == '>' || c == '@' ||
    c == Char.ofNat 0x60

/-- The text of a plain scalar. -/
def plainText? (source : List Char) : Option (List Char) :=
  if source.head?.any isReservedStart then none else some (folded source)

/-- A text in which two quotes in a row are one. -/
def joinQuotes : List Char → List Char
  | '\'' :: '\'' :: rest => '\'' :: joinQuotes rest
  | c :: rest => c :: joinQuotes rest
  | [] => []

/-- What stands between the first and the last character of a scalar, if both are a quote. -/
def unquoted? (quote : Char) (source : List Char) : Option (List Char) :=
  if 1 < source.length && source.getLast? = some quote then some (source.drop 1).dropLast else none

/-- The text of a single-quoted scalar. -/
def singleQuotedText? (source : List Char) : Option (List Char) :=
  (unquoted? '\'' source).map fun inner => joinQuotes (folded inner)

/-! ## Double-quoted scalars -/

/-- The code of an escape with a letter. -/
def letterEscape? (c : Char) : Option Nat :=
  match c with
  | '0' => some 0
  | 'a' => some 7
  | 'b' => some 8
  | 't' => some 9
  | '\t' => some 9
  | 'n' => some 10
  | 'v' => some 11
  | 'f' => some 12
  | 'r' => some 13
  | 'e' => some 27
  | ' ' => some 32
  | '"' => some 34
  | '/' => some 47
  | '\\' => some 92
  | 'N' => some 0x85
  | '_' => some 0xa0
  | 'L' => some 0x2028
  | 'P' => some 0x2029
  | _ => none

/-- How many hexadecimal digits follow the letter of an escape. -/
def codeLength? (c : Char) : Option Nat :=
  match c with
  | 'x' => some 2
  | 'u' => some 4
  | 'U' => some 8
  | _ => none

/-- The code that a number of hexadecimal digits at the start of a text stand for. -/
def code? (length : Nat) (cs : List Char) : Option Nat := do
  let digits := cs.take length
  if digits.length < length then none
  else
    let code ← hexValue? 0 digits
    if 0x10ffff < code then none else return code

/-- How many line breaks there are in the blanks at the start of a text, and what follows them. -/
def skipBreaks (count : Nat) : List Char → Nat × List Char
  | '\r' :: '\n' :: rest => skipBreaks (count + 1) rest
  | '\n' :: rest => skipBreaks (count + 1) rest
  | ' ' :: rest => skipBreaks count rest
  | '\t' :: rest => skipBreaks count rest
  | rest => (count, rest)

/-- Whether a line break stands at the start of a text. -/
def startsBreak : List Char → Bool
  | '\n' :: _ => true
  | '\r' :: '\n' :: _ => true
  | _ => false

/-- The codes of the characters that a text before its last character stands for. -/
def unescaped? : Nat → List Char → Option (List Nat)
  | 0, _ => none
  | _ + 1, [] => some []
  | _ + 1, [_] => some []
  | fuel + 1, '\r' :: '\n' :: rest => unescaped? fuel ('\n' :: rest)
  | fuel + 1, '\n' :: rest => do
    let (count, after) := skipBreaks 0 rest
    let codes ← unescaped? fuel after
    return (if count = 0 then [0x20] else List.replicate count 0x0a) ++ codes
  | fuel + 1, '\\' :: c :: rest =>
    match letterEscape? c with
    | some code => do return code :: (← unescaped? fuel rest)
    | none =>
      match codeLength? c with
      | some length => do return (← code? length rest) :: (← unescaped? fuel (rest.drop length))
      | none =>
        if startsBreak (c :: rest) then
          let rest := if c = '\r' then rest.drop 1 else rest
          unescaped? fuel (rest.dropWhile isInlineBlank)
        else none
  | fuel + 1, c :: rest =>
    if isInlineBlank c then
      let blanks := rest.takeWhile isInlineBlank
      let after := rest.dropWhile isInlineBlank
      if startsBreak after then unescaped? fuel after
      else do return (c :: blanks).map Char.toNat ++ (← unescaped? fuel after)
    else do return c.toNat :: (← unescaped? fuel rest)

/-- The characters of codes, in which two surrogates may make one. -/
def charactersOf : List Nat → List Char
  | high :: low :: rest =>
    if isHighSurrogate high && isLowSurrogate low then
      Char.ofNat (0x10000 + (high - 0xd800) * 0x400 + (low - 0xdc00)) :: charactersOf rest
    else codeChar high :: charactersOf (low :: rest)
  | [code] => [codeChar code]
  | [] => []

/-- The text of a double-quoted scalar. -/
def doubleQuotedText? (source : List Char) : Option (List Char) :=
  if 1 < source.length && source.getLast? = some '"' then
    (unescaped? (source.length + 1) (source.drop 1)).map charactersOf
  else none

end Yaml

end FaultInjection
