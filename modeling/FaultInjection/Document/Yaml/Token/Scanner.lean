import FaultInjection.Document.Yaml.Token

/-!
# YAML - Cutting a text into tokens

A scanner stands at a place of the text and knows how far further lines of the
present node must be indented at least.  A scalar goes on over further lines as
long as they are indented that far; brackets are open until they are closed or a
line is not indented far enough.

A scanner moves on with every token but those that are not written, so a number of
steps above twice the length of the text is enough.

Main definitions:

- `Yaml.Scanner`, and the ends of scalars: `plainStop`, `quotedStop`,
  `blockTextStop`.
- `Yaml.Mode`, what a scanner is within, and `Yaml.Scanner.step`.
- `Yaml.Token.scan?`, the tokens of a text.
-/

namespace FaultInjection

namespace Yaml

/-- A place in a text, and what the places before it ask of it. -/
structure Scanner where
  text : Array Char
  place : Nat := 0
  /-- The least indentation of further lines of the present node. -/
  least : Nat := 0
  /-- The column of the present node. -/
  column : Nat := 0
  /-- How many brackets are open. -/
  depth : Nat := 0
  /-- Whether a key that may be followed by a colon at once has just ended within brackets. -/
  afterKey : Bool := false
  /-- The place counted in units of sixteen bits. -/
  offset : Nat := 0
  /-- The width of the indentation and of the indicators on the line so far. -/
  indent : Nat := 0
  /-- Whether there is nothing but indentation and indicators on the line so far. -/
  fresh : Bool := true
  /-- The tokens so far, the last one first. -/
  tokens : List Token := []
  /-- Whether something was no token. -/
  broken : Bool := false

namespace Scanner

/-! ## Looking -/

/-- The character some places ahead. -/
def ahead? (s : Scanner) (n : Nat) : Option Char := s.text[s.place + n]?

/-- Whether tokens are parted at a place: by a gap, or by the end of the text. -/
def isGapAt (s : Scanner) (i : Nat) : Bool := (s.text[i]?).all isGap

/-- Whether a mark of collections in brackets stands at a place. -/
def isFlowMarkAt (s : Scanner) (i : Nat) : Bool := (s.text[i]?).any isFlowMark

/-- Whether a mark of a document's start or end stands at a place. -/
def isDocumentMarkAt (s : Scanner) (i : Nat) : Bool :=
  match s.text[i]? with
  | some c =>
    (c == '-' || c == '.') && s.text[i + 1]? == some c && s.text[i + 2]? == some c &&
      s.isGapAt (i + 3)
  | none => false

/-- The first place from one on, within a number of places, whose character does not pass. -/
def runStop (s : Scanner) (pass : Char → Bool) : Nat → Nat → Nat
  | 0, i => i
  | fuel + 1, i => if (s.text[i]?).any pass then s.runStop pass fuel (i + 1) else i

/-- The first place from one on whose character does not pass. -/
def skip (s : Scanner) (pass : Char → Bool) (i : Nat) : Nat := s.runStop pass s.text.size i

/-- The first place of a character from one on. -/
def find? (s : Scanner) (c : Char) (i : Nat) : Option Nat :=
  let stop := s.skip (· ≠ c) i
  if stop < s.text.size then some stop else none

/-- The end of the line of a place, before its break. -/
def lineStop (s : Scanner) (i : Nat) : Nat :=
  match s.find? '\n' i with
  | none => s.text.size
  | some stop => if i < stop && s.text[stop - 1]? = some '\r' then stop - 1 else stop

/-- The character at the place of a scanner, if its line does not end there. -/
def onLine? (s : Scanner) : Option Char :=
  if s.place < s.lineStop s.place then s.text[s.place]? else none

/-- Whether nothing but blanks and a comment follows on the line. -/
def atLineEnd (s : Scanner) : Bool :=
  let i := s.skip (fun c => c == ' ' || c == '\t') s.place
  match s.text[i]? with
  | none => true
  | some c => c == '#' || c == '\n' || (c == '\r' && s.text[i + 1]? == some '\n')

/-- Where a scalar goes on in the line that starts at a place, none where it does not. -/
def continued? (s : Scanner) (i : Nat) : Option Nat :=
  if 0 < s.least then
    let stop := s.skip (· == ' ') i
    if s.text[stop]? = some '\r' && s.text[stop + 1]? = some '\n' then some (stop + 1)
    else if s.text[stop]? = some '\n' || s.least ≤ stop - i then some stop
    else none
  else if s.isDocumentMarkAt i then none
  else some i

/-! ## Taking -/

/-- The scanner behind a token that ends at a place. -/
def push (s : Scanner) (kind : Kind) (stop : Nat) : Scanner :=
  let source := (s.text.extract s.place stop).toList
  let token : Token := ⟨kind, source, s.offset, s.indent⟩
  let (fresh, indent) := match kind with
    | .newline => (true, 0)
    | .blockText => (true, 0)
    | .space => (s.fresh, if s.fresh && source.head? = some ' ' then s.indent + source.length
        else s.indent)
    | .question => (s.fresh, if s.fresh then s.indent + 1 else s.indent)
    | .colon => (s.fresh, if s.fresh then s.indent + 1 else s.indent)
    | .dash => (s.fresh, if s.fresh then s.indent + 1 else s.indent)
    | .content => (s.fresh, s.indent)
    | .outdent => (s.fresh, s.indent)
    | _ => (false, s.indent)
  { s with
    place := s.place + source.length
    offset := s.offset + token.width
    fresh, indent, tokens := token :: s.tokens }

/-- The scanner behind what ends at a place, if anything does. -/
def take (s : Scanner) (stop : Nat) : Scanner :=
  if stop ≤ s.place then s
  else
    match Kind.ofSource? (s.text.extract s.place stop).toList with
    | some kind => s.push kind stop
    | none => { s with broken := true, place := stop }

/-- The scanner behind spaces. -/
def spaces (s : Scanner) : Scanner := s.take (s.skip (· == ' ') s.place)

/-- The scanner behind spaces and tabs. -/
def blanks (s : Scanner) : Scanner := s.take (s.skip (fun c => c == ' ' || c == '\t') s.place)

/-- The scanner behind the line break at its place, if there is one. -/
def lineBreak (s : Scanner) : Scanner :=
  match s.ahead? 0 with
  | some '\n' => s.take (s.place + 1)
  | some '\r' => if s.ahead? 1 = some '\n' then s.take (s.place + 2) else s
  | _ => s

/-- The scanner behind an anchor or reference. -/
def name (s : Scanner) : Scanner :=
  s.take (s.skip (fun c => !(isGap c || isFlowMark c)) s.place)

/-- Whether a character may stand in a tag. -/
def isTagChar (c : Char) : Bool :=
  ('a' ≤ c && c ≤ 'z') || ('A' ≤ c && c ≤ 'Z') || ('0' ≤ c && c ≤ '9') ||
    "-#;/?:@&=+$_.!~*'()".toList.contains c

/-- Whether a character is a hexadecimal digit. -/
def isHexDigit (c : Char) : Bool :=
  ('a' ≤ c && c ≤ 'f') || ('A' ≤ c && c ≤ 'F') || ('0' ≤ c && c ≤ '9')

/-- The end of a tag whose characters stand from a place on. -/
def tagStop (s : Scanner) : Nat → Nat → Nat
  | 0, i => i
  | fuel + 1, i =>
    match s.text[i]? with
    | none => i
    | some c =>
      if isTagChar c then s.tagStop fuel (i + 1)
      else if c = '%' && (s.text[i + 1]?).any isHexDigit && (s.text[i + 2]?).any isHexDigit then
        s.tagStop fuel (i + 3)
      else i

/-- The scanner behind a tag, which may be written out between angles. -/
def tag (s : Scanner) : Scanner :=
  if s.ahead? 1 = some '<' then
    let stop := s.skip (fun c => !(isGap c || c == '>')) (s.place + 2)
    s.take (if s.text[stop]? = some '>' then stop + 1 else stop)
  else s.take (s.tagStop s.text.size (s.place + 1))

/-- The scanner behind properties and indicators, each with the blanks behind it. -/
def indicators : Nat → Scanner → Scanner
  | 0, s => s
  | fuel + 1, s =>
    match s.ahead? 0 with
    | some '!' => indicators fuel s.tag.blanks
    | some '&' => indicators fuel s.name.blanks
    | some c =>
      if (c == '-' || c == '?' || c == ':') &&
          (s.isGapAt (s.place + 1) || (0 < s.depth && s.isFlowMarkAt (s.place + 1))) then
        let s := if s.depth = 0 then { s with least := s.column + 1 }
          else { s with afterKey := false }
        indicators fuel (s.take (s.place + 1)).blanks
      else s
    | none => s

/-! ## Scalars -/

/-- The end of a plain scalar, when a place is reached and the text before another one is in it. -/
def plainStop (s : Scanner) : Nat → Nat → Nat → Nat
  | 0, _, stop => stop
  | fuel + 1, i, stop =>
    let ends (j : Nat) : Bool := 0 < s.depth && s.isFlowMarkAt j
    match s.text[i]? with
    | none => stop
    | some ':' =>
      if s.isGapAt (i + 1) || ends (i + 1) then stop else s.plainStop fuel (i + 1) (i + 1)
    | some c =>
      if isGap c then
        let breaks := c == '\n' || (c == '\r' && s.text[i + 1]? == some '\n')
        let next := if c == '\r' && breaks then i + 2 else i + 1
        let stop := if c == '\r' && !breaks then i + 1 else stop
        if s.text[next]? = some '#' || ends next then stop
        else if breaks then
          match s.continued? next with
          | none => stop
          | some j => s.plainStop fuel (max next (j - 1)) stop
        else s.plainStop fuel next stop
      else if ends i then stop
      else s.plainStop fuel (i + 1) (i + 1)

/-- The scanner behind a plain scalar. -/
def plain (s : Scanner) : Scanner :=
  s.push .plain (s.plainStop s.text.size s.place s.place)

/-- The place of the single quote that closes a scalar; two of them stand for one. -/
def singleClose? (s : Scanner) : Nat → Nat → Option Nat
  | 0, _ => none
  | fuel + 1, i =>
    match s.find? '\'' i with
    | none => none
    | some j => if s.text[j + 1]? = some '\'' then s.singleClose? fuel (j + 2) else some j

/-- The place of the double quote that closes a scalar; one behind a backslash does not. -/
def doubleClose? (s : Scanner) : Nat → Nat → Option Nat
  | 0, _ => none
  | fuel + 1, i =>
    match s.text[i]? with
    | none => none
    | some '"' => some i
    | some '\\' => s.doubleClose? fuel (i + 2)
    | some _ => s.doubleClose? fuel (i + 1)

/-- The first line break between two places behind which a scalar does not go on. -/
def outdent? (s : Scanner) (stop : Nat) : Nat → Nat → Option Nat
  | 0, _ => none
  | fuel + 1, i =>
    match s.find? '\n' i with
    | none => none
    | some j =>
      if stop ≤ j then none
      else
        match s.continued? (j + 1) with
        | none => some j
        | some next => s.outdent? stop fuel next

/-- The end of a quoted scalar: behind its closing quote, or before a line that is not indented far
enough, or else the end of the text. -/
def quotedStop (s : Scanner) : Nat :=
  let close? := if s.ahead? 0 = some '\'' then s.singleClose? s.text.size (s.place + 1)
    else s.doubleClose? s.text.size (s.place + 1)
  match close? with
  | none => s.text.size
  | some close =>
    match s.outdent? close s.text.size s.place with
    | some j => if s.text[j - 1]? = some '\r' then j - 1 else j
    | none => close + 1

/-- The scanner behind a quoted scalar. -/
def quoted (s : Scanner) : Scanner := s.take s.quotedStop

/-- The indentation that a block scalar's header asks for, one less than written, and whether it
keeps all line breaks at its end. -/
def blockHeader (s : Scanner) : Nat → Nat → Option Nat × Bool → Option Nat × Bool
  | 0, _, header => header
  | fuel + 1, i, (extra?, keep) =>
    match s.text[i]? with
    | none => (extra?, keep)
    | some c =>
      if c = '+' then s.blockHeader fuel (i + 1) (extra?, true)
      else if c = '-' then s.blockHeader fuel (i + 1) (extra?, keep)
      else if '1' ≤ c && c ≤ '9' then
        s.blockHeader fuel (i + 1) (some (c.toNat - '1'.toNat), keep)
      else (extra?, keep)

/-- The start of the first line from a place on that is not empty, and its indentation. -/
def firstFull (s : Scanner) : Nat → Nat → Nat → Nat → Nat × Nat
  | 0, _, start, indent => (start, indent)
  | fuel + 1, i, start, indent =>
    match s.text[i]? with
    | some ' ' => s.firstFull fuel (i + 1) start (indent + 1)
    | some '\n' => s.firstFull fuel (i + 1) (i + 1) 0
    | some '\r' =>
      if s.text[i + 1]? = some '\n' then s.firstFull fuel (i + 1) start indent
      else (start, indent)
    | _ => (start, indent)

/-- The end of the lines that are indented far enough, from the start of one on; behind the end of
the text where the last line has no break. -/
def linesStop (s : Scanner) : Nat → Nat → Nat
  | 0, start => start
  | fuel + 1, start =>
    match s.continued? start with
    | none => start
    | some i =>
      match s.find? '\n' i with
      | none => s.text.size + 1
      | some j => s.linesStop fuel (j + 1)

/-- The place before spaces that end at a place, none before the start of the text. -/
def beforeSpaces? (s : Scanner) : Nat → Option Nat
  | 0 => if s.text[0]? = some ' ' then none else some 0
  | i + 1 => if s.text[i + 1]? = some ' ' then s.beforeSpaces? i else some (i + 1)

/-- The end of lines without those at the end that are empty and not indented more than the first
line is. -/
def trimmedStop (s : Scanner) (indent : Nat) : Nat → Nat → Nat
  | 0, stop => stop
  | fuel + 1, stop =>
    if stop < s.place + 2 then stop
    else
      let last := if s.text[stop - 2]? = some '\r' then stop - 3 else stop - 2
      match s.beforeSpaces? last with
      | none => stop
      | some i =>
        if s.text[i]? = some '\n' && s.place ≤ i && last < i + 1 + indent then
          s.trimmedStop indent fuel (i + 1)
        else stop

/-- The least indentation of the lines of a block scalar, and the end of these lines.  A line
behind them that starts with a tab belongs to them too, so that it is found to be wrong. -/
def blockTextStop (s : Scanner) (header : Option Nat × Bool) : Nat × Nat :=
  let (start, indent) := s.firstFull s.text.size s.place s.place 0
  let (least, stop) :=
    if s.least ≤ indent then
      let least := match header.1 with
        | none => indent
        | some extra => extra + max 1 s.least
      (least, { s with least }.linesStop (s.text.size + 1) start)
    else (s.least, start)
  let i := s.skip (· == ' ') stop
  if s.text[i]? = some '\t' then (least, s.skip isGap i)
  else if header.2 then (least, stop)
  else (least, s.trimmedStop indent s.text.size stop)

/-- The scanner behind the lines of a block scalar. -/
def blockText (s : Scanner) (header : Option Nat × Bool) : Scanner :=
  let (least, stop) := s.blockTextStop header
  { s with least }.push .blockText stop

end Scanner

/-! ## Steps -/

/-- What a scanner is within: the lines between documents, a document, or brackets. -/
inductive Mode where
  | stream
  | document
  | flow
  deriving DecidableEq, Repr

namespace Scanner

/-- The scanner behind the indicators at the start of a line's content. -/
def lineIndicators : Nat → Scanner → Scanner
  | 0, s => s
  | fuel + 1, s =>
    match s.ahead? 0 with
    | some c =>
      if (c == '-' || c == '?' || c == ':') && s.isGapAt (s.place + 1) then
        let next := (s.take (s.place + 1)).blanks
        lineIndicators fuel
          { next with least := s.column + 1, column := s.column + (next.place - s.place) }
      else s
    | none => s

/-- The scanner at the content of a line at whose start it is. -/
def line (s : Scanner) : Mode × Scanner :=
  if s.isDocumentMarkAt s.place then
    let next := { s.take (s.place + 3) with column := 0, least := 0 }
    (if s.ahead? 0 = some '-' then .document else .stream, next)
  else
    let next := s.spaces
    let column := next.place - s.place
    let least := if column < s.least && !next.isGapAt (next.place + 1) then column else s.least
    (.document, lineIndicators s.text.size { next with column, least })

/-- The end of a directive in a line without its comment. -/
def directiveStop (s : Scanner) (stop : Nat) : Nat → Nat → Nat
  | 0, _ => stop
  | fuel + 1, i =>
    match s.find? '#' i with
    | none => stop
    | some j =>
      if stop ≤ j then stop
      else if s.place < j && (s.text[j - 1]?).any (fun c => c == ' ' || c == '\t') then j - 1
      else s.directiveStop stop fuel (j + 1)

/-- The place behind the last character before a place that is no blank. -/
def withoutBlanks (s : Scanner) : Nat → Nat
  | 0 => 0
  | i + 1 =>
    if (s.text[i]?).any (fun c => c == ' ' || c == '\t') then s.withoutBlanks i else i + 1

/-- A step between documents. -/
def stepStream (s : Scanner) : Mode × Scanner :=
  let s := if s.ahead? 0 = some byteOrderMark then s.take (s.place + 1) else s
  let stop := s.lineStop s.place
  if s.ahead? 0 = some '%' then
    let directive := s.take (s.withoutBlanks (s.directiveStop stop s.text.size s.place))
    (.stream, directive.blanks.take stop)
  else if s.atLineEnd then (.stream, (s.blanks.take stop).lineBreak)
  else (s.push .content s.place).line

/-- A step within a document. -/
def stepDocument (s : Scanner) : Mode × Scanner :=
  let s := s.blanks
  let stop := s.lineStop s.place
  let s := indicators s.text.size s
  match s.onLine? with
  | none => s.lineBreak.line
  | some c =>
    if c = '#' then (s.take stop).lineBreak.line
    else if c = '\x7b' || c = '[' then
      (.flow, { s.take (s.place + 1) with afterKey := false, depth := 1 })
    else if c = '\x7d' || c = ']' then (.document, s.take (s.place + 1))
    else if c = '*' then (.document, s.name)
    else if c = '"' || c = '\'' then (.document, s.quoted)
    else if c = '|' || c = '>' then
      let header := s.blockHeader s.text.size (s.place + 1) (none, false)
      let behind := s.take (s.skip (fun c => !(isGap c || c == '#')) s.place)
      ((behind.blanks.take stop).lineBreak.blockText header).line
    else (.document, s.plain)

/-- The scanner behind line breaks and blanks within brackets, and the indentation of its line if
there was a break. -/
def flowGap : Nat → Option Nat → Scanner → Option Nat × Scanner
  | 0, indent?, s => (indent?, s)
  | fuel + 1, indent?, s =>
    let broken := s.lineBreak
    if s.place < broken.place then
      let spaced := broken.spaces
      let indent := spaced.place - broken.place
      flowGap fuel (some indent) { spaced.blanks with column := indent }
    else
      let next := s.blanks
      if s.place < next.place then flowGap fuel indent? next else (indent?, s)

/-- The scanner behind commas. -/
def commas : Nat → Scanner → Scanner
  | 0, s => s
  | fuel + 1, s =>
    if s.onLine? = some ',' then
      commas fuel { (s.take (s.place + 1)).blanks with afterKey := false }
    else s

/-- A step within brackets.  The last bracket may be closed one column to the left. -/
def stepFlow (s : Scanner) : Mode × Scanner :=
  let (indent?, s) := flowGap (s.text.size + 1) none s
  let isLeft := indent?.any (· < s.least) && s.ahead? 0 ≠ some '#'
  let isMark := indent? = some 0 && s.isDocumentMarkAt s.place
  let closes := indent?.any (· + 1 = s.least) && s.depth = 1 &&
    (s.ahead? 0 = some ']' || s.ahead? 0 = some '\x7d')
  if (isLeft || isMark) && !closes then
    ({ s with depth := 0 }.push .outdent s.place).line
  else
    let s := indicators s.text.size (commas s.text.size s)
    match s.onLine? with
    | none => (.flow, s)
    | some c =>
      if c = '#' then (.flow, s.take (s.lineStop s.place))
      else if c = '\x7b' || c = '[' then
        (.flow, { s.take (s.place + 1) with afterKey := false, depth := s.depth + 1 })
      else if c = '\x7d' || c = ']' then
        let next := { s.take (s.place + 1) with afterKey := true, depth := s.depth - 1 }
        (if next.depth = 0 then .document else .flow, next)
      else if c = '*' then (.flow, s.name)
      else if c = '"' || c = '\'' then (.flow, { s.quoted with afterKey := true })
      else if c = ':' && (s.afterKey || s.isGapAt (s.place + 1) || s.ahead? 1 = some ',') then
        (.flow, { (s.take (s.place + 1)).blanks with afterKey := false })
      else (.flow, { s.plain with afterKey := false })

/-- The next step of a scanner. -/
def step : Mode → Scanner → Mode × Scanner
  | .stream, s => s.stepStream
  | .document, s => s.stepDocument
  | .flow, s => s.stepFlow

/-- The scanner at the end of the text, within a number of steps. -/
def run : Nat → Mode → Scanner → Scanner
  | 0, _, s => s
  | fuel + 1, mode, s =>
    if s.place < s.text.size then
      let (mode, s) := step mode s
      run fuel mode s
    else s

end Scanner

/-- The tokens of a text. -/
def Token.scan? (text : String) : Option (List Token) :=
  let s : Scanner := { text := text.toList.toArray }
  let last := s.run (2 * s.text.size + 2) .stream
  if last.broken then none else some last.tokens.reverse

end Yaml

end FaultInjection
