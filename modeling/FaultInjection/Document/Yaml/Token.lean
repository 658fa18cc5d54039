import FaultInjection.Text.Encoding

/-!
# YAML - Tokens

A text is cut into tokens: indicators, properties, scalars as they are written,
blanks, comments and line breaks.  No character is lost, so a token knows where it
starts, and how far its line is indented before it.

Main definitions:

- `Yaml.Token`, with its kind; `Yaml.Kind.ofSource?`, the kind of a token that
  shows in how it is written.
- `Yaml.isGap` and `Yaml.isFlowMark`, the characters that part tokens.
-/

namespace FaultInjection

namespace Yaml

/-- The kinds of tokens. -/
inductive Kind where
  /-- Nothing is written: a document starts without a mark. -/
  | content
  /-- Nothing is written: a line leaves brackets that are not closed. -/
  | outdent
  | orderMark
  | directive
  /-- The mark of a document's start, three dashes. -/
  | start
  /-- The mark of a document's end, three dots. -/
  | finish
  | newline
  | space
  | comment
  | dash
  | question
  | colon
  | comma
  | openBrace
  | closeBrace
  | openBracket
  | closeBracket
  | anchor
  | tag
  | reference
  | plain
  | singleQuoted
  | doubleQuoted
  | blockHeader
  /-- The lines of a block scalar. -/
  | blockText
  deriving DecidableEq, Repr

/-- A token: what is written, the place of its first character, and the width of the indentation
and of the indicators before it on its line. -/
structure Token where
  kind : Kind
  source : List Char
  offset : Nat
  indent : Nat
  deriving DecidableEq, Repr

/-- Whether a character parts tokens. -/
def isGap (c : Char) : Bool := c == ' ' || c == '\t' || c == '\n' || c == '\r'

/-- Whether a character is a mark of collections in brackets. -/
def isFlowMark (c : Char) : Bool :=
  c == ',' || c == '[' || c == ']' || c == '\x7b' || c == '\x7d'

/-- The character before a text to tell the order of bytes. -/
def byteOrderMark : Char := Char.ofNat 0xfeff

namespace Kind

/-- The kind that the first character of a token tells. -/
def ofHead? : List Char → Option Kind
  | [] => some .newline
  | c :: _ =>
    if c = ' ' || c = '\t' then some .space
    else if c = '#' then some .comment
    else if c = '%' then some .directive
    else if c = '*' then some .reference
    else if c = '&' then some .anchor
    else if c = '!' then some .tag
    else if c = '\'' then some .singleQuoted
    else if c = '"' then some .doubleQuoted
    else if c = '|' || c = '>' then some .blockHeader
    else none

/-- The kind of a token that shows in how it is written, none for what is no token. -/
def ofSource? : List Char → Option Kind
  | ['-', '-', '-'] => some .start
  | ['.', '.', '.'] => some .finish
  | ['\n'] => some .newline
  | ['\r', '\n'] => some .newline
  | ['-'] => some .dash
  | ['?'] => some .question
  | [':'] => some .colon
  | [','] => some .comma
  | ['\x7b'] => some .openBrace
  | ['\x7d'] => some .closeBrace
  | ['['] => some .openBracket
  | [']'] => some .closeBracket
  | cs => if cs = [byteOrderMark] then some .orderMark else ofHead? cs

/-- Whether tokens of a kind carry no content. -/
def isBlank (kind : Kind) : Bool := kind = .space || kind = .comment || kind = .newline

end Kind

namespace Token

/-- The width of what is written. -/
def width (token : Token) : Nat := (utf16Units (String.ofList token.source)).length

/-- The place behind a token. -/
def stop (token : Token) : Nat := token.offset + token.width

end Token

/-- Whether a token of a kind is among tokens. -/
def hasKind (kind : Kind) (tokens : List Token) : Bool := tokens.any fun t => t.kind = kind

end Yaml

end FaultInjection
