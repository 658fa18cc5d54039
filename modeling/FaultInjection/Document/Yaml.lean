import FaultInjection.Document.Yaml.Layout.Builder
import FaultInjection.Document.Yaml.Node.Reading
import FaultInjection.Document.Yaml.Node.Reference
import FaultInjection.Document.Yaml.Token.Scanner

/-!
# Documents - The YAML notation

A text in the YAML notation is cut into tokens, which are laid out as a tree, from
which nodes are read.  It holds one document, which may stand between marks of its
start and end; directives may precede the mark of the start.  A text without
content stands for null.

Main definitions:

- `Document.ofYaml?`, the document that a text stands for.
-/

namespace FaultInjection

namespace Yaml

/-! ## Directives -/

/-- Whether a text is a version number: digits on both sides of a point. -/
def isVersion (cs : List Char) : Bool :=
  match piecesAt '.' cs with
  | [major, minor] =>
    !major.isEmpty && !minor.isEmpty && (major ++ minor).all fun c => '0' ≤ c && c ≤ '9'
  | _ => false

/-- The handles behind a directive; a directive of an unknown name is left out. -/
def readDirective? (handles : Handles) (source : List Char) : Option Handles :=
  match (piecesAt ' ' (source.map fun c => if c = '\t' then ' ' else c)).filter (!·.isEmpty) with
  | [] => some handles
  | name :: parts =>
    if name = "%TAG".toList then
      match parts with
      | [handle, start] => some ((String.ofList handle, String.ofList start) :: handles)
      | _ => none
    else if name = "%YAML".toList then
      match parts with
      | [version] => if isVersion version then some handles else none
      | _ => none
    else some handles

/-! ## Documents -/

/-- What is read of the parts of a text. -/
structure Stream where
  handles : Handles := .usual
  /-- Whether there are directives without a document behind them. -/
  directed : Bool := false
  root : Option (Node String) := none

/-- The stream with one more part. -/
def Stream.add? (stream : Stream) : Part → Option Stream
  | .directive source => do
    return { stream with handles := ← readDirective? stream.handles source, directed := true }
  | .finish tail => if endsWell true false tail then some stream else none
  | .document start value tail => do
    let next := match value with
      | some value => some (.ofLayout value)
      | none => tail.head?.map .ofToken
    let props ← Properties.ofTokens?
      { indicator := .start, next, parentIndent := 0, onNewline := true } start
    let compact := props.found.isSome && value.any Layout.isBlock && !props.broken
    if stream.root.isSome || compact || (stream.directed && props.found.isNone) ||
        !endsWell false false tail then none
    else
      let root ← match value with
        | some value => Node.ofLayout? stream.handles true props value
        | none => Node.ofNothing? stream.handles props
      return { stream with directed := false, root := some root }

end Yaml

/-- The document that a text in the YAML notation stands for. -/
def Document.ofYaml? (s : String) : Option Document := do
  let parts ← Yaml.Part.ofTokens? (← Yaml.Token.scan? s)
  let stream ← parts.foldlM Yaml.Stream.add? {}
  match stream.root with
  | some root => root.document?
  | none => if stream.directed then none else return .null

end FaultInjection
