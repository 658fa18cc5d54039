import FaultInjection.Document.Yaml.Layout

/-!
# YAML - Properties of nodes

Before a node may stand an indicator, an anchor and a tag, each once, with blanks
and comments around them.  The tokens before a node are read one after the other,
and any other token is refused, as are tabs that indent and properties that the
next token follows without a gap.

Main definitions:

- `Yaml.Properties`, and `Yaml.Properties.ofTokens?`.
- `Yaml.endsWell`, whether the tokens behind a node are blank.
-/

namespace FaultInjection

namespace Yaml

/-- What follows tokens, as far as it matters to them. -/
structure Follower where
  /-- Whether it is a collection in brackets. -/
  isFlow : Bool := false
  /-- Whether it is a collection laid out by indentation. -/
  isBlock : Bool := false
  /-- Whether it keeps a property apart from what is behind. -/
  isApart : Bool := false

/-- A node that follows tokens. -/
def Follower.ofLayout (layout : Layout) : Follower where
  isFlow := match layout with
    | .flow .. => true
    | _ => false
  isBlock := layout.isBlock
  isApart := match layout with
    | .scalar .plain _ _ [] _ => true
    | _ => false

/-- A token that follows tokens. -/
def Follower.ofToken (token : Token) : Follower where
  isApart := token.kind = .space || token.kind = .newline || token.kind = .comma

/-- Where tokens before a node stand. -/
structure Setting where
  /-- Whether they stand within brackets. -/
  inFlow : Bool := false
  /-- The indicator that may stand among them. -/
  indicator : Kind
  next : Option Follower
  /-- The indentation of what holds the node. -/
  parentIndent : Nat
  /-- Whether they start on a new line. -/
  onNewline : Bool

/-- What tokens before a node say. -/
structure Properties where
  comma : Bool := false
  found : Option Token := none
  anchor : Option Token := none
  tag : Option Token := none
  /-- Whether there is a line break. -/
  broken : Bool := false
  /-- The last line break behind a property. -/
  breakBehind : Option Token := none
  /-- The place of the first property, or else the end of the tokens. -/
  place : Option Nat := none

namespace Properties

/-- Properties while they are read. -/
structure Reading extends Properties where
  atNewline : Bool
  spaced : Bool
  /-- Whether a gap has to follow. -/
  needsGap : Bool := false
  /-- The blank with a tab that was read last. -/
  tab : Option Token := none

/-- Whether a gap that is needed is missing before a token. -/
def Reading.lacksGap (r : Reading) (token : Token) : Bool :=
  r.needsGap && !(token.kind = .space || token.kind = .newline || token.kind = .comma)

/-- Whether a tab indents a token. -/
def Reading.tabIndents (r : Reading) (token : Token) : Bool :=
  r.tab.isSome && r.atNewline && !(token.kind = .comment || token.kind = .newline)

/-- Properties with one more token. -/
def Reading.add? (setting : Setting) (r : Reading) (token : Token) : Option Reading :=
  if r.lacksGap token || r.tabIndents token then none
  else
    let r := { r with needsGap := false, tab := none }
    match token.kind with
    | .space =>
      let counts := !setting.inFlow &&
        !(setting.indicator = .start && setting.next.any Follower.isFlow) &&
        token.source.contains '\t'
      some { r with spaced := true, tab := if counts then some token else none }
    | .comment => if r.spaced then some { r with atNewline := false } else none
    | .newline =>
      let breakBehind := if r.anchor.isSome || r.tag.isSome then some token else r.breakBehind
      some { r with atNewline := true, broken := true, spaced := true, breakBehind }
    | .anchor =>
      if r.anchor.isSome then none
      else
        some { r with
          anchor := some token, place := r.place.or (some token.offset)
          atNewline := false, spaced := false, needsGap := true }
    | .tag =>
      if r.tag.isSome then none
      else
        some { r with
          tag := some token, place := r.place.or (some token.offset)
          atNewline := false, spaced := false, needsGap := true }
    | kind =>
      if kind = setting.indicator then
        if r.anchor.isSome || r.tag.isSome || r.found.isSome then none
        else
          some { r with
            found := some token, atNewline := kind = .dash || kind = .question, spaced := false }
      else if kind = .comma && setting.inFlow then
        if r.comma then none else some { r with comma := true, atNewline := false, spaced := false }
      else none

/-- Whether what follows read tokens may stand there. -/
def Reading.endsWell (setting : Setting) (r : Reading) : Bool :=
  !(r.needsGap && setting.next.any (!·.isApart)) &&
    !r.tab.any fun tab =>
      (r.atNewline && tab.indent ≤ setting.parentIndent) || setting.next.any Follower.isBlock

/-- The properties that tokens before a node stand for. -/
def ofTokens? (setting : Setting) (tokens : List Token) : Option Properties := do
  let start : Reading := { atNewline := setting.onNewline, spaced := setting.onNewline }
  let r ← tokens.foldlM (Reading.add? setting) start
  if r.endsWell setting then
    return { r.toProperties with place := r.place.or (tokens.getLast?.map Token.stop) }
  else none

/-- Whether there is an anchor or a tag. -/
def any (props : Properties) : Bool := props.anchor.isSome || props.tag.isSome

end Properties

/-- Whether tokens behind a node are blank.  A comment follows a blank or a line break, where that
is asked for. -/
def endsWell (strict spaced : Bool) : List Token → Bool
  | [] => true
  | token :: rest =>
    match token.kind with
    | .space => endsWell strict true rest
    | .newline => endsWell strict true rest
    | .comment => (spaced || !strict) && endsWell strict spaced rest
    | _ => false

end Yaml

end FaultInjection
