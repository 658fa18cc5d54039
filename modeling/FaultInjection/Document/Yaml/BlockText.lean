import FaultInjection.Document.Yaml.Token
import FaultInjection.Text.Pieces

/-!
# YAML - Texts of block scalars

A block scalar holds the lines behind its header without their indentation, which
is that of the first line that is not empty, or is given by the header.  A literal
scalar keeps its line breaks; a folded one joins lines with spaces, but keeps the
breaks around lines that are indented more.  The header says what becomes of the
breaks at the end: one is kept, all are, or none.

Main definitions:

- `Yaml.BlockText.Header`, and `Yaml.BlockText.Header.ofTokens?`.
- `Yaml.BlockText.Line`, and `Yaml.BlockText.text?`, the text of a header with lines.
-/

namespace FaultInjection

namespace Yaml

namespace BlockText

/-- What becomes of the line breaks at the end. -/
inductive Chomping where
  | strip
  | clip
  | keep
  deriving DecidableEq, Repr

/-- The header of a block scalar; an indentation of zero is not given. -/
structure Header where
  folds : Bool
  chomping : Option Chomping := none
  extra : Nat := 0
  deriving DecidableEq, Repr

/-- The header with one more of its characters. -/
def Header.add? (h : Header) (c : Char) : Option Header :=
  if h.chomping.isNone && (c = '+' || c = '-') then
    some { h with chomping := some (if c = '+' then .keep else .strip) }
  else if h.extra = 0 && '1' ≤ c && c ≤ '9' then some { h with extra := c.toNat - '0'.toNat }
  else none

/-- Whether tokens behind a header are blank; a comment follows a space. -/
def isHeaderEnd (spaced : Bool) : List Token → Bool
  | [] => true
  | token :: rest =>
    match token.kind with
    | .space => isHeaderEnd true rest
    | .newline => isHeaderEnd spaced rest
    | .comment => spaced && isHeaderEnd spaced rest
    | _ => false

/-- The header that tokens stand for. -/
def Header.ofTokens? : List Token → Option Header
  | [] => none
  | token :: rest =>
    match token.source with
    | mark :: cs =>
    if isHeaderEnd false rest then cs.foldlM Header.add? { folds := mark == '>' } else none
    | [] => none

/-- A line: the spaces at its start and what follows them. -/
structure Line where
  indent : Nat
  content : List Char
  deriving DecidableEq, Repr

/-- The line that characters without a line break stand for. -/
def Line.ofChars (cs : List Char) : Line :=
  ⟨(cs.takeWhile (· = ' ')).length, cs.dropWhile (· = ' ')⟩

/-- Whether a line has no content but the first character of a longer break. -/
def Line.isEmpty (line : Line) : Bool := line.content.isEmpty || line.content = ['\r']

/-- The content of a line without the first character of a longer break. -/
def Line.body (line : Line) : List Char :=
  if line.content.getLast? = some '\r' then line.content.dropLast else line.content

/-- The lines of a block scalar; behind its last line break there is an empty one. -/
def linesOf (source : List Char) : List Line :=
  if source.isEmpty then [] else (piecesAt '\n' source).map Line.ofChars

/-- Spaces by which a line is indented more than the others. -/
def surplus (indent : Nat) (line : Line) : List Char := List.replicate (line.indent - indent) ' '

/-- The indentation of lines, and how many empty ones precede the first that is not empty; none
where an empty line is indented more than that one.  A scalar within a collection is indented. -/
def indentation? (header : Header) (root : Bool) (indent : Nat) (before : Nat) :
    List Line → Option (Nat × Nat)
  | [] => some (indent, 0)
  | line :: rest =>
    if line.isEmpty then
      indentation? header root (if header.extra = 0 then max indent line.indent else indent)
        (before + 1) rest
    else if line.indent < indent then none
    else
      let indent := if header.extra = 0 then line.indent else indent
      if indent = 0 && !root then none else some (indent, before)

/-- What joins a line to the text before it. -/
inductive Joint where
  | nothing
  | space
  | newline
  deriving DecidableEq, Repr

/-- The text of a joint. -/
def Joint.text : Joint → List Char
  | nothing => []
  | space => [' ']
  | newline => ['\n']

/-- The text of literal lines. -/
def literalText? (indent : Nat) (joint : Joint) : List Line → Option (List Char)
  | [] => some []
  | line :: rest => do
    if !line.body.isEmpty && line.indent < indent then none
    else
      let after ← literalText? indent .newline rest
      return joint.text ++ surplus indent line ++ line.body ++ after

/-- The text of folded lines; `shifted` tells that the last full line was indented more. -/
def foldedText? (indent : Nat) (joint : Joint) (shifted : Bool) : List Line → Option (List Char)
  | [] => some []
  | line :: rest => do
    let body := line.body
    if !body.isEmpty && line.indent < indent then none
    else if indent < line.indent || body.head? = some '\t' then
      let before := match joint with
        | .space => ['\n']
        | .newline => if shifted then ['\n'] else ['\n', '\n']
        | .nothing => []
      let after ← foldedText? indent .newline true rest
      return before ++ surplus indent line ++ body ++ after
    else if body.isEmpty then
      let after ← foldedText? indent .newline shifted rest
      return (if joint = .newline then ['\n'] else []) ++ after
    else
      let after ← foldedText? indent .space false rest
      return joint.text ++ body ++ after

/-- How many of the lines are not among the empty ones at the end. -/
def fullCount (lines : List Line) : Nat := (lines.reverse.dropWhile Line.isEmpty).length

/-- How many of the lines are not among those at the end that are indented no more than the
others. -/
def keptCount (indent full : Nat) (lines : List Line) : Nat :=
  max full (lines.reverse.dropWhile fun line => line.indent ≤ indent).length

/-- The text that a header with lines stands for; none where a line is indented too little. -/
def text? (header : Header) (root : Bool) (parent : Nat) (source : List Char) :
    Option (List Char) := do
  let lines := linesOf source
  let full := fullCount lines
  let chomping := header.chomping.getD .clip
  if full = 0 then
    return if chomping = .keep && !lines.isEmpty then
      List.replicate (max 1 (lines.length - 1)) '\n' else []
  else
    let (indent, before) ← indentation? header root (parent + header.extra) 0 (lines.take full)
    let kept := keptCount indent full lines
    let leading := (lines.take before).flatMap fun line => surplus indent line ++ ['\n']
    let body := (lines.take kept).drop before
    let text ← if header.folds then foldedText? indent .nothing false body
      else literalText? indent .nothing body
    let content := leading ++ text
    match chomping with
    | .strip => return content
    | .clip => return content ++ ['\n']
    | .keep =>
      let ending := (lines.drop kept).flatMap fun line => '\n' :: surplus indent line
      let whole := content ++ ending
      return if whole.getLast? = some '\n' then whole else whole ++ ['\n']

end BlockText

end Yaml

end FaultInjection
