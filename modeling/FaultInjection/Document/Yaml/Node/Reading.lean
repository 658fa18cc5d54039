import FaultInjection.Document.Yaml.BlockText
import FaultInjection.Document.Yaml.InlineText
import FaultInjection.Document.Yaml.Node
import FaultInjection.Document.Yaml.Properties

/-!
# YAML - Reading nodes from layouts

A layout stands for a node if its tokens are in order: keys of a mapping stand in
one column and on one line, entries within brackets are parted by commas, and
nothing but blanks and comments stands where no node is.  A single fault leaves no
node at all.

Main definitions:

- `Yaml.Node.ofLayout?`, the node that a layout stands for.
-/

namespace FaultInjection

namespace Yaml

namespace Node

/-! ## Scalars -/

/-- A node under the anchor among its properties, whose name is not empty. -/
def named? (props : Properties) (node : Node String) : Option (Node String) :=
  match props.anchor with
  | none => some node
  | some anchor =>
    match anchor.source.drop 1 with
    | [] => none
    | name => some (.anchored (String.ofList name) node)

/-- The scalar of a text with its properties. -/
def ofText? (handles : Handles) (props : Properties) (style : Style) (text : List Char) :
    Option (Node String) := do
  let s := String.ofList text
  let value ← match props.tag with
    | some tag => do pure (tagged (← tagName? handles tag.source) s)
    | none => some (if style = .plain then resolve s else .text s)
  named? props (.scalar ⟨value, s, style⟩)

/-- The node where nothing is written but properties. -/
def ofNothing? (handles : Handles) (props : Properties) : Option (Node String) :=
  ofText? handles props .plain []

/-- The reference that a token is; it has no properties. -/
def ofReference? (props : Properties) (source : List Char) : Option (Node String) :=
  match source.drop 1 with
  | [] => none
  | name => if props.any then none else some (.reference (String.ofList name))

/-- The scalar or reference that a token is. -/
def ofScalar? (handles : Handles) (props : Properties) (kind : Kind) (source : List Char) :
    Option (Node String) :=
  match kind with
  | .reference => ofReference? props source
  | .singleQuoted => do ofText? handles props .single (← singleQuotedText? source)
  | .doubleQuoted => do ofText? handles props .double (← doubleQuotedText? source)
  | _ => do ofText? handles props .plain (← plainText? source)

/-- Whether the tag of a collection has a name, if there is a tag. -/
def hasGoodTag (handles : Handles) (props : Properties) : Bool :=
  props.tag.all fun tag => (tagName? handles tag.source).isSome

/-- Whether a line break stands behind the last property before a list laid out by indentation. -/
def breaksBeforeList (props : Properties) : Bool :=
  let last := max ((props.anchor.map Token.offset).getD 0) ((props.tag.map Token.offset).getD 0)
  !props.any || props.breakBehind.any fun newline => last ≤ newline.offset

/-! ## Line breaks -/

/-- Whether a line break is among tokens. -/
def breaksAmong (tokens : Option (List Token)) : Bool := tokens.any (hasKind .newline)

mutual

/-- Whether a layout goes on over more than one line. -/
def breaks : Layout → Bool
  | .scalar _ _ _ source tail => source.contains '\n' || hasKind .newline tail
  | .flow _ _ _ entries _ => entriesBreak entries
  | _ => true

/-- Whether one of some entries goes on over more than one line. -/
def entriesBreak : List (Entry Layout) → Bool
  | [] => false
  | ⟨start, _, key, sep, value⟩ :: older =>
    hasKind .newline start || breaksAmong sep ||
      (match key with
        | some key => breaks key
        | none => false) ||
      (match value with
        | some value => breaks value
        | none => false) ||
      entriesBreak older

end

/-! ## Keys -/

/-- The longest distance from the start of a key to its colon. -/
def longestKey : Nat := 1024

/-- Whether a colon stands too far behind the start of a key. -/
def isLongKey (props : Properties) (place : Nat) (colon : Token) : Bool :=
  props.place.getD place + longestKey < colon.offset

/-- What follows the tokens before a key. -/
def keyFollower (key : Option Layout) (sep : Option (List Token)) : Option Follower :=
  match key with
  | some key => some (.ofLayout key)
  | none => (sep.bind List.head?).map .ofToken

/-- The place of a key, which is that of its colon where it is empty. -/
def keyPlace (key : Option Layout) (sep : Option (List Token)) : Nat :=
  match key with
  | some key => key.offset
  | none => ((sep.bind List.head?).map Token.offset).getD 0

/-- Whether a key without a mark may stand before a colon in a column. -/
def isLineKey (column : Nat) (props : Properties) (key : Option Layout) : Bool :=
  let inColumn := match key with
    | some (.list ..) => false
    | some key => key.indent = column
    | none => true
  inColumn && props.breakBehind.isNone && !key.any breaks

/-- Whether a key and its value stand in order, where the key has no mark. -/
def isLinePair (keyProps valueProps : Properties) (key value : Option Layout)
    (sep : List Token) : Bool :=
  match valueProps.found with
  | none => false
  | some colon =>
    let compact := match value with
      | some (.mapping ..) => !valueProps.broken
      | _ => false
    !compact && !isLongKey keyProps (keyPlace key (some sep)) colon

/-- Whether a line break stands before a colon. -/
def breaksBefore (colon : Token) (sep : List Token) : Bool :=
  (sep.takeWhile (· ≠ colon)).any (·.kind = .newline)

/-- Whether a layout is a block scalar. -/
def isText : Layout → Bool
  | .text .. => true
  | _ => false

/-! ## Nodes -/

/-- Pairs of a mapping, the last one first. -/
abbrev Pairs := List (Node String × Option (Node String))

mutual

/-- The node that a layout stands for behind its properties; `root` tells that it is all of a
document. -/
def ofLayout? (handles : Handles) (root : Bool) (props : Properties) :
    Layout → Option (Node String)
  | .scalar kind _ _ source tail =>
    if endsWell true false tail then ofScalar? handles props kind source else none
  | .text _ indent header source => do
    let text ← BlockText.text? (← BlockText.Header.ofTokens? header) root indent source
    ofText? handles props .block text
  | .mapping _ indent entries => do
    let (pairs, _) ← pairs? handles indent entries
    if hasGoodTag handles props then named? props (.mapping pairs.reverse) else none
  | .list _ indent entries => do
    let items ← items? handles indent entries
    if hasGoodTag handles props && breaksBeforeList props then
      named? props (.list items.reverse)
    else none
  | .flow _ indent opening entries tail =>
    match tail with
    | [] => none
    | closing :: tail =>
      if opening.kind = .openBrace then do
        let pairs ← flowPairs? handles indent true entries
        if closing.kind = .closeBrace && endsWell true false tail && hasGoodTag handles props then
          named? props (.mapping pairs.reverse)
        else none
      else do
        let items ← flowItems? handles indent true entries
        if closing.kind = .closeBracket && endsWell true false tail && hasGoodTag handles props then
          named? props (.list items.reverse)
        else none

/-- The node of a key or value that may be missing. -/
def ofPart? (handles : Handles) (props : Properties) : Option Layout → Option (Node String)
  | some layout => ofLayout? handles false props layout
  | none => ofNothing? handles props

/-- The node of a key or value that may be missing, within brackets: there it is no collection laid
out by indentation. -/
def ofFlowPart? (handles : Handles) (props : Properties) : Option Layout → Option (Node String)
  | some layout => if layout.isBlock then none else ofLayout? handles false props layout
  | none => ofNothing? handles props

/-- The pairs of a mapping laid out by indentation, the last one first, and whether its last entry
is blank; no entry follows a blank one. -/
def pairs? (handles : Handles) (indent : Nat) : List (Entry Layout) → Option (Pairs × Bool)
  | [] => some ([], false)
  | ⟨start, _, key, sep, value⟩ :: older => do
    let (pairs, blank) ← pairs? handles indent older
    let keyProps ← Properties.ofTokens?
      { indicator := .question, next := keyFollower key sep, parentIndent := indent,
        onNewline := true } start
    let marked := keyProps.found.isSome
    if !marked && !isLineKey indent keyProps key then none
    else if !marked && !keyProps.any && sep.isNone then return (pairs, true)
    else if blank || keyProps.found.any (·.indent ≠ indent) then none
    else
      let keyNode ← ofPart? handles keyProps key
      if keyNode.hasKey pairs then none
      else
        let valueProps ← Properties.ofTokens?
          { indicator := .colon, next := value.map .ofLayout, parentIndent := indent,
            onNewline := !key.any fun key => !isText key } (sep.getD [])
        if !marked && !isLinePair keyProps valueProps key value (sep.getD []) then none
        else if valueProps.found.isNone then return ((keyNode, none) :: pairs, false)
        else
          let valueNode ← ofPart? handles valueProps value
          return ((keyNode, some valueNode) :: pairs, false)

/-- The items of a list laid out by indentation, the last one first. -/
def items? (handles : Handles) (indent : Nat) :
    List (Entry Layout) → Option (List (Node String))
  | [] => some []
  | ⟨start, _, _, _, value⟩ :: older => do
    let items ← items? handles indent older
    let props ← Properties.ofTokens?
      { indicator := .dash, next := value.map .ofLayout, parentIndent := indent,
        onNewline := true } start
    if props.found.isNone then
      if props.any || value.isSome then none else return items
    else
      let node ← ofPart? handles props value
      return node :: items

/-- The pairs of a mapping in braces, the last one first; `last` tells that nothing follows. -/
def flowPairs? (handles : Handles) (indent : Nat) (last : Bool) :
    List (Entry Layout) → Option Pairs
  | [] => some []
  | ⟨start, _, key, sep, value⟩ :: older => do
    let pairs ← flowPairs? handles indent false older
    let keyProps ← Properties.ofTokens?
      { inFlow := true, indicator := .question, next := keyFollower key sep,
        parentIndent := indent, onNewline := false } start
    if keyProps.found.isNone && !keyProps.any && sep.isNone && value.isNone then
      if (older.isEmpty && keyProps.comma) || !last then none else return pairs
    else if older.isEmpty = keyProps.comma then none
    else
      let keyNode ← ofFlowPart? handles keyProps key
      let valueProps ← Properties.ofTokens?
        { inFlow := true, indicator := .colon, next := value.map .ofLayout,
          parentIndent := indent, onNewline := false } (sep.getD [])
      if keyNode.hasKey pairs then none
      else if valueProps.found.isNone then
        if value.isSome then none else return (keyNode, none) :: pairs
      else
        let valueNode ← ofFlowPart? handles valueProps value
        return (keyNode, some valueNode) :: pairs

/-- The items of a list in brackets, the last one first.  An item with a colon or with the mark of a
key is a mapping of one pair; without that mark its key stands on one line. -/
def flowItems? (handles : Handles) (indent : Nat) (last : Bool) :
    List (Entry Layout) → Option (List (Node String))
  | [] => some []
  | ⟨start, _, key, sep, value⟩ :: older => do
    let items ← flowItems? handles indent false older
    let keyProps ← Properties.ofTokens?
      { inFlow := true, indicator := .question, next := keyFollower key sep,
        parentIndent := indent, onNewline := false } start
    let marked := keyProps.found.isSome
    if !marked && !keyProps.any && sep.isNone && value.isNone then
      if (older.isEmpty && keyProps.comma) || !last then none else return items
    else if (!marked && key.any breaks) || older.isEmpty = keyProps.comma then none
    else if !marked && sep.isNone then
      let node ← ofFlowPart? handles keyProps value
      return node :: items
    else
      let keyNode ← ofFlowPart? handles keyProps key
      let valueProps ← Properties.ofTokens?
        { inFlow := true, indicator := .colon, next := value.map .ofLayout,
          parentIndent := indent, onNewline := false } (sep.getD [])
      match valueProps.found with
      | none => if value.isSome then none else return .mapping [(keyNode, none)] :: items
      | some colon =>
        if !marked && (breaksBefore colon (sep.getD []) ||
            isLongKey keyProps (keyPlace key sep) colon) then none
        else
          let valueNode ← ofFlowPart? handles valueProps value
          return .mapping [(keyNode, some valueNode)] :: items

end

end Node

end Yaml

end FaultInjection
