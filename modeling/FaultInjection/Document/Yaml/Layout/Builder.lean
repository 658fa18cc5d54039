import FaultInjection.Document.Yaml.Layout

/-!
# YAML - Laying out tokens

The nodes that are not finished form a stack.  A token goes to the topmost node,
which takes it in, opens a node on top, or is finished: a finished node goes to the
one below, and the token is tried there again.  A collection laid out by
indentation is finished by a token to its left.

A token is tried at most once more than there are nodes on the stack.

Main definitions:

- `Yaml.Builder`, and `Yaml.Builder.close`, which finishes the topmost node.
- `Yaml.Builder.accept?`, what a token does.
- `Yaml.Part.ofTokens?`, the parts of a text.
-/

namespace FaultInjection

namespace Yaml

/-- What is not finished yet. -/
inductive Frame where
  | document (start : List Token) (value : Option Layout) (tail : List Token)
  | finish (tail : List Token)
  | node (layout : Layout)

/-- The nodes that are not finished, the innermost first, and the finished parts, the last first. -/
structure Builder where
  stack : List Frame := []
  /-- Whether a key of a mapping stands on the present line. -/
  onKeyLine : Bool := false
  parts : List Part := []

/-- What becomes of a token: it is taken in, or the topmost node is finished and the token is tried
again. -/
inductive Outcome where
  | taken (b : Builder)
  | again (b : Builder)

/-! ## Tokens before a key -/

/-- Whether a token ends what stands before a key. -/
def endsKeyStart (token : Token) : Bool :=
  token.kind = .start || token.kind = .question || token.kind = .colon || token.kind = .dash ||
    token.kind = .newline

/-- Tokens without the properties of a key at their end, and these properties. -/
def cutKeyStart (tokens : List Token) : List Token × List Token :=
  let behind := (tokens.reverse.takeWhile (!endsKeyStart ·)).reverse
  let before := tokens.take (tokens.length - behind.length)
  (before ++ behind.takeWhile (·.kind = .space), behind.dropWhile (·.kind = .space))

/-- The places of line breaks behind the last token with content; a comment to the right of a
column is content. -/
def breakPlaces (column : Nat) : Nat → List Nat → List Token → List Nat
  | _, places, [] => places
  | i, places, token :: rest =>
    let places := match token.kind with
      | .newline => places ++ [i]
      | .space => places
      | .comment => if column < token.indent then [] else places
      | _ => []
    breakPlaces column (i + 1) places rest

/-- Tokens cut at the second line break behind the last one with content. -/
def cutAtSecondBreak (column : Nat) (tokens : List Token) : List Token × List Token :=
  match breakPlaces column 0 [] tokens with
  | _ :: second :: _ => (tokens.take second, tokens.drop second)
  | _ => (tokens, [])

namespace Frame

/-- The frame without the properties of a key that stand last in it, and these. -/
def cutKeyStart : Frame → Frame × List Token
  | document start value tail =>
    let (before, taken) := Yaml.cutKeyStart start
    (document before value tail, taken)
  | node (.mapping offset indent (entry :: older)) =>
    match entry.sep with
    | some sep =>
      let (before, taken) := Yaml.cutKeyStart sep
      (node (.mapping offset indent ({ entry with sep := some before } :: older)), taken)
    | none =>
      let (before, taken) := Yaml.cutKeyStart entry.start
      (node (.mapping offset indent ({ entry with start := before } :: older)), taken)
  | node (.list offset indent (entry :: older)) =>
    let (before, taken) := Yaml.cutKeyStart entry.start
    (node (.list offset indent ({ entry with start := before } :: older)), taken)
  | frame => (frame, [])

/-- Whether a frame is a collection in brackets. -/
def isFlow : Frame → Bool
  | node (.flow ..) => true
  | _ => false

/-- The indentation that a block scalar takes from what holds it. -/
def indent : Frame → Nat
  | node layout => layout.indent
  | _ => 0

end Frame

/-! ## Finishing nodes -/

/-- The blank tokens before an entry that does not come, and the collection without them. -/
def Layout.cutBlankEnd (layout : Layout) : Layout × Option (List Token) :=
  let cut (indent : Nat) (entries : List (Entry Layout)) :
      List (Entry Layout) × Option (List Token) :=
    match entries with
    | entry :: older =>
      if entry.sep.isNone && entry.value.isNone && !entry.start.isEmpty &&
          entry.start.all (·.kind.isBlank) &&
          (indent = 0 || entry.start.all fun t => t.kind ≠ .comment || t.indent < indent) then
        (older, some entry.start)
      else (entry :: older, none)
    | [] => ([], none)
  match layout with
  | .mapping offset indent entries =>
    let (entries, blanks?) := cut indent entries
    (.mapping offset indent entries, blanks?)
  | .list offset indent entries =>
    let (entries, blanks?) := cut indent entries
    (.list offset indent entries, blanks?)
  | layout => (layout, none)

/-- A node as it is finished within a frame. -/
def Layout.finished (layout : Layout) (below : Frame) : Layout :=
  match layout, below with
  | .text offset _ header source, below => .text offset below.indent header source
  | .flow offset _ opening entries tail, .document .. =>
    (Layout.flow offset 0 opening entries tail).normal
  | layout, _ => layout.normal

/-- Entries with a further one that holds blank tokens only, if there are any. -/
def withBlanks (blanks? : Option (List Token)) (entries : List (Entry Layout)) :
    List (Entry Layout) :=
  match blanks? with
  | some blanks => { start := blanks } :: entries
  | none => entries

namespace Builder

/-- The builder with a finished node put into the topmost frame. -/
def put (b : Builder) (layout : Layout) : Frame → List Frame → Builder
  | .document start _ tail, rest =>
    let (layout, blanks?) := layout.cutBlankEnd
    { b with stack := .document start (some layout) (blanks?.getD tail) :: rest }
  | .node (.mapping offset indent (entry :: older)), rest =>
    let withEntries (entries : List (Entry Layout)) : List Frame :=
      .node (.mapping offset indent entries) :: rest
    if entry.value.isSome then
      { b with
        stack := withEntries ({ key := some layout, sep := some [] } :: entry :: older)
        onKeyLine := true }
    else if entry.sep.isSome then
      let (layout, blanks?) := layout.cutBlankEnd
      { b with
          stack := withEntries (withBlanks blanks? ({ entry with value := some layout } :: older)) }
    else
      { b with
        stack := withEntries ({ entry with key := some layout, sep := some [] } :: older)
        onKeyLine := !entry.explicit }
  | .node (.list offset indent (entry :: older)), rest =>
    let (layout, blanks?) := layout.cutBlankEnd
    let entries := if entry.value.isSome then { value := some layout } :: entry :: older
      else { entry with value := some layout } :: older
    { b with stack := .node (.list offset indent (withBlanks blanks? entries)) :: rest }
  | .node (.flow offset indent opening entries tail), rest =>
    let entries := match entries with
      | entry :: older =>
        if entry.value.isSome then { key := some layout, sep := some [] } :: entry :: older
        else if entry.sep.isSome then { entry with value := some layout } :: older
        else { entry with key := some layout, sep := some [] } :: older
      | [] => [{ key := some layout, sep := some [] }]
    { b with stack := .node (.flow offset indent opening entries tail) :: rest }
  | frame, rest => { b with stack := frame :: rest }

/-- The builder with its topmost frame finished. -/
def close (b : Builder) : Builder :=
  match b.stack with
  | .document start value tail :: rest =>
    { b with stack := rest, parts := .document start value tail :: b.parts }
  | .finish tail :: rest => { b with stack := rest, parts := .finish tail :: b.parts }
  | .node layout :: below :: rest => b.put (layout.finished below) below rest
  | .node _ :: [] => { b with stack := [] }
  | [] => b

/-- The builder with a number of frames finished. -/
def closeMany : Nat → Builder → Builder
  | 0, b => b
  | n + 1, b => closeMany n b.close

/-- The builder with every frame finished. -/
def closeAll (b : Builder) : Builder := b.closeMany b.stack.length

/-- The builder without the brackets at its top. -/
def closeFlow : Nat → Builder → Builder
  | 0, b => b
  | n + 1, b => if b.stack.head?.any Frame.isFlow then closeFlow n b.close else b

/-- The builder with its topmost frame replaced. -/
def withTop (b : Builder) (frame : Frame) (rest : List Frame) : Builder :=
  { b with stack := frame :: rest }

/-- The builder with a node on top. -/
def push (b : Builder) (layout : Layout) : Builder := { b with stack := .node layout :: b.stack }

/-! ## What a token does -/

/-- The scalar that a token is. -/
def scalarOf (token : Token) : Layout :=
  .scalar token.kind token.offset token.indent token.source []

/-- Whether a token is a scalar or reference. -/
def isScalar (token : Token) : Bool :=
  token.kind = .reference || token.kind = .plain || token.kind = .blockText ||
    token.kind = .singleQuoted || token.kind = .doubleQuoted

/-- The builder with the node on top that a token opens, if it opens one. -/
def openNode? (b : Builder) (token : Token) : Option Builder :=
  if isScalar token then some (b.push (scalarOf token))
  else
    match token.kind with
    | .blockHeader => some (b.push (.text token.offset token.indent [token] []))
    | .openBrace => some (b.push (.flow token.offset token.indent token [] []))
    | .openBracket => some (b.push (.flow token.offset token.indent token [] []))
    | .dash => some (b.push (.list token.offset token.indent [{ start := [token] }]))
    | .question =>
      match b.stack with
      | frame :: rest =>
        let (frame, start) := frame.cutKeyStart
        let entry : Entry Layout := { start := start ++ [token], explicit := true }
        some (({ b with onKeyLine := true }.withTop frame rest).push
          (.mapping token.offset token.indent [entry]))
      | [] => none
    | .colon =>
      match b.stack with
      | frame :: rest =>
        let (frame, start) := frame.cutKeyStart
        let entry : Entry Layout := { start, sep := some [token] }
        some (({ b with onKeyLine := true }.withTop frame rest).push
          (.mapping token.offset token.indent [entry]))
      | [] => none
    | _ => none

/-- The builder when a token stands behind a node on its line; a line break finishes the node. -/
def behind (b : Builder) (token : Token) (withTail : List Token → Builder) : Outcome :=
  match token.kind with
  | .comma => .again b.close
  | .start => .again b.close
  | .finish => .again b.close
  | .closeBracket => .again b.close
  | .closeBrace => .again b.close
  | .colon => .again b.close
  | .newline => .taken { withTail [token] with onKeyLine := false }.close
  | _ => .taken (withTail [token])

/-- What a token between documents does. -/
def acceptBetween? (b : Builder) (token : Token) : Option Outcome :=
  match token.kind with
  | .directive => some (.taken { b with parts := .directive token.source :: b.parts })
  | .orderMark => some (.taken b)
  | .space => some (.taken b)
  | .comment => some (.taken b)
  | .newline => some (.taken b)
  | .content => some (.taken { b with stack := [.document [] none []] })
  | .start => some (.taken { b with stack := [.document [token] none []] })
  | _ => none

/-- What a token does in a document. -/
def acceptInDocument? (b : Builder) (token : Token) (start : List Token) (value : Option Layout)
    (tail : List Token) (rest : List Frame) : Option Outcome :=
  if value.isSome then
    some (b.behind token fun more => b.withTop (.document start value (tail ++ more)) rest)
  else if token.kind = .start && !start.all (·.kind.isBlank) then some (.again b.close)
  else if token.kind = .start || token.kind = .anchor || token.kind = .tag ||
      token.kind.isBlank then
    some (.taken (b.withTop (.document (start ++ [token]) none tail) rest))
  else (b.openNode? token).map .taken

/-- What a token does behind a scalar: a colon makes it a key. -/
def acceptAtScalar (b : Builder) (token : Token) (layout : Layout) (rest : List Frame) : Outcome :=
  match layout with
  | .scalar kind offset indent source tail =>
    if token.kind = .colon then
      let (start, rest) := match rest with
        | below :: rest =>
          let (below, start) := below.cutKeyStart
          (start, below :: rest)
        | [] => ([], [])
      let entry : Entry Layout :=
        { start, key := some (.scalar kind offset indent source []), sep := some (tail ++ [token]) }
      .taken ({ b with onKeyLine := true }.withTop (.node (.mapping offset indent [entry])) rest)
    else b.behind token fun more => b.withTop (.node (layout.extend more)) rest
  | _ => .again b.close

/-- What a token does behind the header of a block scalar. -/
def acceptAtText (b : Builder) (token : Token) (offset indent : Nat) (header : List Token)
    (rest : List Frame) : Outcome :=
  if token.kind.isBlank then
    .taken (b.withTop (.node (.text offset indent (header ++ [token]) [])) rest)
  else if token.kind = .plain || token.kind = .blockText then
    .taken (b.withTop (.node (.text offset indent header token.source)) rest).close
  else .again b.close

/-- Entries with a line break behind the last one. -/
def breakEntries (token : Token) : List (Entry Layout) → List (Entry Layout)
  | [] => []
  | entry :: older =>
    match entry.value with
    | some value =>
      if (value.tail?.bind List.getLast?).any fun t => t.kind = .comment then
        { entry with value := some (value.extend [token]) } :: older
      else { start := [token] } :: entry :: older
    | none =>
      match entry.sep with
      | some sep => { entry with sep := some (sep ++ [token]) } :: older
      | none => { entry with start := entry.start ++ [token] } :: older

/-- Entries with a blank or comment behind the last one.  A comment that is indented more than the
entries belongs to the entry before. -/
def blankEntries (token : Token) (indent : Nat) : List (Entry Layout) → List (Entry Layout)
  | [] => []
  | entry :: older =>
    let plain := { entry with start := entry.start ++ [token] } :: older
    if entry.value.isSome then { start := [token] } :: entry :: older
    else
      match entry.sep with
      | some sep => { entry with sep := some (sep ++ [token]) } :: older
      | none =>
        if token.kind = .comment && indent < token.indent &&
            entry.start.all (fun t => t.kind = .newline || t.kind = .space) then
          match older with
          | before :: oldest =>
            match before.value with
            | some value =>
              if value.tail?.isSome then
                { before with value := some (value.extend (entry.start ++ [token])) } :: oldest
              else plain
            | none => plain
          | [] => plain
        else plain

/-- What a colon does in a mapping.  `atNext` tells that a new entry starts, and `start` holds the
tokens before it. -/
def colonEntries (token : Token) (atNext : Bool) (start : List Token) (entry : Entry Layout) :
    Entry Layout ⊕ Entry Layout ⊕ (Entry Layout × Entry Layout) :=
  let asValue : Entry Layout := { start, sep := some [token] }
  match entry.sep with
  | none =>
    if entry.explicit && !hasKind .newline entry.start then
      let (before, taken) := cutKeyStart entry.start
      .inr (.inr ({ entry with start := before }, { start := taken, sep := some [token] }))
    else .inl { entry with key := none, sep := some [token] }
  | some sep =>
    if entry.explicit then
      if entry.value.isSome then .inr (.inl { sep := some [token] })
      else if hasKind .colon sep then .inr (.inr (entry, asValue))
      else if entry.key.any Layout.isInline && !hasKind .newline sep then
        let (before, taken) := cutKeyStart entry.start
        .inr (.inr ({ entry with start := before, key := none, sep := none },
          { start := taken, key := entry.key, sep := some (sep ++ [token]) }))
      else .inl { entry with sep := some (sep ++ start ++ [token]) }
    else if entry.value.isSome || atNext then .inr (.inl asValue)
    else if hasKind .colon sep then .inr (.inr (entry, { sep := some [token] }))
    else .inl { entry with sep := some (sep ++ [token]) }

/-- What a token does in a mapping. -/
def acceptInMapping? (b : Builder) (token : Token) (offset indent : Nat) (entry : Entry Layout)
    (older : List (Entry Layout)) (rest : List Frame) : Option Outcome :=
  let withEntries (b : Builder) (entries : List (Entry Layout)) : Builder :=
    b.withTop (.node (.mapping offset indent entries)) rest
  if token.kind = .newline then
    some (.taken (withEntries { b with onKeyLine := false } (breakEntries token (entry :: older))))
  else if token.kind.isBlank then
    some (.taken (withEntries b (blankEntries token indent (entry :: older))))
  else if token.indent < indent then some (.again b.close)
  else
    let atColumn := !b.onKeyLine && token.indent = indent
    let atNext := atColumn && (entry.sep.isSome || entry.explicit) && token.kind ≠ .dash
    let (entry, start) := match entry.sep with
      | some sep =>
        if atNext && entry.value.isNone then
          let (before, taken) := cutAtSecondBreak indent sep
          ({ entry with sep := some before }, taken)
        else (entry, [])
      | none => (entry, [])
    let onKey := { b with onKeyLine := true }
    let starts := atNext || entry.value.isSome
    if token.kind = .anchor || token.kind = .tag then
      some <| .taken <|
        if starts then withEntries onKey ({ start := start ++ [token] } :: entry :: older)
        else
          match entry.sep with
          | some sep => withEntries b ({ entry with sep := some (sep ++ [token]) } :: older)
          | none => withEntries b ({ entry with start := entry.start ++ [token] } :: older)
    else if token.kind = .question then
      some <| .taken <|
        if entry.sep.isNone && !entry.explicit then
          withEntries onKey
            ({ entry with start := entry.start ++ [token], explicit := true } :: older)
        else if starts then
          withEntries onKey ({ start := start ++ [token], explicit := true } :: entry :: older)
        else
          (withEntries onKey (entry :: older)).push
            (.mapping token.offset token.indent [{ start := [token], explicit := true }])
    else if token.kind = .colon then
      some <| .taken <|
        match colonEntries token atNext start entry with
        | .inl entry => withEntries onKey (entry :: older)
        | .inr (.inl next) => withEntries onKey (next :: entry :: older)
        | .inr (.inr (entry, inner)) =>
          (withEntries onKey (entry :: older)).push (.mapping token.offset token.indent [inner])
    else if isScalar token then
      some <| .taken <|
        if starts then
          withEntries onKey
            ({ start, key := some (scalarOf token), sep := some [] } :: entry :: older)
        else if entry.sep.isSome then (withEntries b (entry :: older)).push (scalarOf token)
        else
          withEntries onKey ({ entry with key := some (scalarOf token), sep := some [] } :: older)
    else
      let b := withEntries b (entry :: older)
      match b.openNode? token with
      | none => some (.again b.close)
      | some opened =>
        if token.kind = .dash then
          if !entry.explicit && entry.sep.any (!hasKind .newline ·) then none
          else some (.taken opened)
        else if atColumn then
          (withEntries b ({ start } :: entry :: older)).openNode? token |>.map .taken
        else some (.taken opened)

/-- What a token does in a list laid out by indentation. -/
def acceptInList (b : Builder) (token : Token) (offset indent : Nat) (entry : Entry Layout)
    (older : List (Entry Layout)) (rest : List Frame) : Outcome :=
  let withEntries (entries : List (Entry Layout)) : Builder :=
    b.withTop (.node (.list offset indent entries)) rest
  let toEntry := withEntries ({ entry with start := entry.start ++ [token] } :: older)
  if token.kind = .newline then .taken (withEntries (breakEntries token (entry :: older)))
  else if token.kind.isBlank then
    .taken (withEntries (blankEntries token indent (entry :: older)))
  else if (token.kind = .anchor || token.kind = .tag) && entry.value.isNone &&
      indent < token.indent then
    .taken toEntry
  else if token.kind = .dash && token.indent = indent then
    if entry.value.isSome || hasKind .dash entry.start then
      .taken (withEntries ({ start := [token] } :: entry :: older))
    else .taken toEntry
  else if indent < token.indent then
    match b.openNode? token with
    | some opened => .taken opened
    | none => .again b.close
  else .again b.close

/-- What a token does within brackets that are open. -/
def acceptInFlow (b : Builder) (token : Token) (offset indent : Nat) (opening : Token)
    (entries : List (Entry Layout)) (rest : List Frame) : Outcome :=
  let withEntries (entries : List (Entry Layout)) : Builder :=
    b.withTop (.node (.flow offset indent opening entries [])) rest
  let toStart (fresh : Entry Layout → Bool) : Outcome :=
    match entries with
    | entry :: older =>
      if fresh entry then .taken (withEntries ({ start := [token] } :: entry :: older))
      else .taken (withEntries ({ entry with start := entry.start ++ [token] } :: older))
    | [] => .taken (withEntries [{ start := [token] }])
  if token.kind = .comma || token.kind = .question then toStart fun entry => entry.sep.isSome
  else if token.kind = .colon then
    match entries with
    | entry :: older =>
      if entry.value.isSome then .taken (withEntries ({ sep := some [token] } :: entry :: older))
      else
        match entry.sep with
        | some sep => .taken (withEntries ({ entry with sep := some (sep ++ [token]) } :: older))
        | none => .taken (withEntries ({ entry with key := none, sep := some [token] } :: older))
    | [] => .taken (withEntries [{ sep := some [token] }])
  else if token.kind.isBlank || token.kind = .anchor || token.kind = .tag then
    match entries with
    | entry :: older =>
      match entry.sep with
      | some sep =>
        if entry.value.isSome then .taken (withEntries ({ start := [token] } :: entry :: older))
        else .taken (withEntries ({ entry with sep := some (sep ++ [token]) } :: older))
      | none => toStart fun entry => entry.value.isSome
    | [] => toStart fun _ => true
  else if isScalar token then
    match entries with
    | entry :: older =>
      if entry.value.isSome then
        .taken (withEntries ({ key := some (scalarOf token), sep := some [] } :: entry :: older))
      else if entry.sep.isSome then .taken (b.push (scalarOf token))
      else
        .taken (withEntries ({ entry with key := some (scalarOf token), sep := some [] } :: older))
    | [] => .taken (withEntries [{ key := some (scalarOf token), sep := some [] }])
  else if token.kind = .closeBrace || token.kind = .closeBracket then
    .taken (b.withTop (.node (.flow offset indent opening entries [token])) rest)
  else
    match b.openNode? token with
    | some opened => .taken opened
    | none => .again b.close

/-- What a token does behind brackets that are closed. -/
def acceptAtFlow (b : Builder) (token : Token) (layout : Layout) (rest : List Frame) : Outcome :=
  let inMapping : Bool := match rest with
    | .node (.mapping _ indent (entry :: _)) :: _ =>
      (token.kind = .colon && indent = layout.indent) ||
        (token.kind = .newline && entry.sep.isNone)
    | _ => false
  if inMapping then .again b.close
  else
    match layout, rest with
    | .flow offset indent opening entries (closing :: tail), below :: rest =>
      if token.kind = .colon && !below.isFlow then
        let (below, start) := below.cutKeyStart
        let key := (Layout.flow offset indent opening entries [closing]).normal
        let entry : Entry Layout := { start, key := some key, sep := some (tail ++ [token]) }
        .taken ({ b with onKeyLine := true }.withTop (.node (.mapping offset indent [entry]))
          (below :: rest))
      else b.behind token fun more => b.withTop (.node (layout.extend more)) (below :: rest)
    | _, _ => .again b.close

/-- What a token does at the topmost frame, none for a token that stands in no layout. -/
def accept? (b : Builder) (token : Token) : Option Outcome :=
  match b.stack with
  | [] => b.acceptBetween? token
  | .finish tail :: rest =>
    let b' := b.withTop (.finish (tail ++ [token])) rest
    if token.kind = .content then some (.taken b)
    else if token.kind = .newline then some (.taken b'.close)
    else some (.taken b')
  | .document start value tail :: rest => b.acceptInDocument? token start value tail rest
  | .node (.scalar kind offset indent source tail) :: rest =>
    some (b.acceptAtScalar token (.scalar kind offset indent source tail) rest)
  | .node (.text offset indent header _) :: rest =>
    some (b.acceptAtText token offset indent header rest)
  | .node (.mapping offset indent (entry :: older)) :: rest =>
    b.acceptInMapping? token offset indent entry older rest
  | .node (.list offset indent (entry :: older)) :: rest =>
    some (b.acceptInList token offset indent entry older rest)
  | .node (.flow offset indent opening entries tail) :: rest =>
    if token.kind = .outdent then some (.taken (b.close.closeFlow rest.length))
    else if tail.isEmpty then some (b.acceptInFlow token offset indent opening entries rest)
    else some (b.acceptAtFlow token (.flow offset indent opening entries tail) rest)
  | .node _ :: _ => some (.again b.close)

/-- The builder behind a token, which is tried a number of times. -/
def next? (token : Token) : Nat → Builder → Option Builder
  | 0, _ => none
  | fuel + 1, b =>
    match b.accept? token with
    | some (.taken b) => some b
    | some (.again b) => next? token fuel b
    | none => none

/-- The builder behind a token; the mark of a document's end finishes everything. -/
def add? (b : Builder) (token : Token) : Option Builder :=
  let atFinish := match b.stack with
    | .finish _ :: _ => true
    | _ => false
  if token.kind = .finish && !atFinish then some { b.closeAll with stack := [.finish []] }
  else next? token (b.stack.length + 2) b

end Builder

/-- The parts that tokens are laid out as. -/
def Part.ofTokens? (tokens : List Token) : Option (List Part) := do
  let b ← tokens.foldlM Builder.add? {}
  return b.closeAll.parts.reverse

end Yaml

end FaultInjection
