import FaultInjection.Text.Encoding
import FaultInjection.Text.Pieces

/-!
# Request targets - Reading and printing

A request target comes in one of three forms: a path with an optional query, an
absolute form with scheme and authority, or an authority alone.  A query may be
absent or empty, and the two are told apart.  Targets are values; a change
builds a new one.

Main definitions:

- `PathAndQuery.parse` and `PathAndQuery.text`.
- `Target.parse` and `Target.text`.
- `Target.matchPath`, the path that rules look at.
- `Target.withPathAndQuery`, a target with another path and query.
- `TargetFault`, why a text is no target.
-/

namespace FaultInjection

/-! ## Faults -/

/-- Why a text is no target, or makes none. -/
inductive TargetFault.Reason where
  | pathWithoutSlash
  | forbiddenCharacter
  | badAuthority
  | unrecognised
  | pathOnAuthority
  | queryInPath
  | malformedQuery
  deriving DecidableEq, Repr

/-- A text that is no target, or makes none, with the reason. -/
structure TargetFault where
  reason : TargetFault.Reason
  input : String
  deriving DecidableEq, Repr

namespace TargetFault

/-- The reason in words. -/
def Reason.text : Reason → String
  | pathWithoutSlash => "path must start with \"/\""
  | forbiddenCharacter => "path and query contain invalid characters"
  | badAuthority => "invalid authority"
  | unrecognised => "unrecognised request target"
  | pathOnAuthority => "an authority-form target cannot carry a path"
  | queryInPath => "replacement path must not contain a query"
  | malformedQuery => "malformed query string (URI malformed)"

/-- A reason in words together with the quoted text that gave rise to it. -/
def describe (words input : String) : String := words ++ ": " ++ quote input

/-- The message of a fault. -/
def message (fault : TargetFault) : String := describe fault.reason.text fault.input

end TargetFault

/-! ## Path and query -/

/-- A path with an optional query; an empty query is a bare question mark. -/
structure PathAndQuery where
  path : String
  query : Option String := none
  deriving DecidableEq, Repr

namespace PathAndQuery

/-- The characters of a path and query: visible ones up to U+00FF except the number sign. -/
def isAllowed (c : Char) : Bool :=
  let n := c.toNat
  n == 0x21 || n == 0x22 || (0x24 ≤ n && n ≤ 0x7e) || (0x80 ≤ n && n ≤ 0xff)

/-- Whether a text starts like a path or is the asterisk. -/
def startsPath : List Char → Bool
  | '/' :: _ => true
  | cs => cs == ['*']

/-- The path and query of characters, cut at the first question mark. -/
def ofChars (cs : List Char) : PathAndQuery :=
  let (path, query) := cutAtFirst '?' cs
  ⟨String.ofList path, query.map String.ofList⟩

/-- The path and query that a text stands for. -/
def parse (raw : String) : Except TargetFault PathAndQuery :=
  if !startsPath raw.toList then .error ⟨.pathWithoutSlash, raw⟩
  else if !raw.toList.all isAllowed then .error ⟨.forbiddenCharacter, raw⟩
  else .ok (ofChars raw.toList)

/-- The text of a path and query. -/
def text (p : PathAndQuery) : String :=
  match p.query with
  | none => p.path
  | some query => p.path ++ "?" ++ query

end PathAndQuery

/-! ## Targets -/

/-- A request target. -/
structure Target where
  scheme : Option String := none
  authority : Option String := none
  pathAndQuery : Option PathAndQuery := none
  deriving DecidableEq, Repr

namespace Target

/-- Whether a character may follow the letter at the start of a scheme. -/
def isSchemeChar (c : Char) : Bool := c.isAlphanum || c == '+' || c == '.' || c == '-'

/-- Whether a character ends the authority of an absolute target. -/
def endsAuthority (c : Char) : Bool := c == '/' || c == '?' || c == '#'

/-- Whether a character may stand in an authority. -/
def isAuthorityChar (c : Char) : Bool :=
  0x20 < c.toNat && c.toNat != 0x7f && !endsAuthority c

/-- Whether a text is an authority: characters that may stand in one, at least one. -/
def isAuthority (cs : List Char) : Bool := !cs.isEmpty && cs.all isAuthorityChar

/-- Whether a character ends a line. -/
def isLineEnd (c : Char) : Bool :=
  c == '\n' || c == '\r' || c.toNat == 0x2028 || c.toNat == 0x2029

/-- The scheme at the start of a text and what follows the two slashes after it. -/
def scheme? (cs : List Char) : Option (List Char × List Char) :=
  match cs with
  | [] => none
  | c :: _ =>
    if c.isAlpha then
      match cs.dropWhile isSchemeChar with
      | ':' :: '/' :: '/' :: rest => some (cs.takeWhile isSchemeChar, rest)
      | _ => none
    else none

/-- The parts of an absolute text, unless a line ends behind its authority. -/
def absolute? (cs : List Char) : Option (List Char × List Char × List Char) :=
  match scheme? cs with
  | none => none
  | some (scheme, rest) =>
    let tail := rest.dropWhile (!endsAuthority ·)
    if tail.any isLineEnd then none
    else some (scheme, rest.takeWhile (!endsAuthority ·), tail)

/-- The text that stands for the path and query behind an authority. -/
def tailText : List Char → String
  | '?' :: rest => String.ofList ('/' :: '?' :: rest)
  | tail => String.ofList tail

/-- The target that a text stands for. -/
def parse (raw : String) : Except TargetFault Target :=
  let cs := raw.toList
  if PathAndQuery.startsPath cs then
    (PathAndQuery.parse raw).map fun p => { pathAndQuery := some p }
  else
    match absolute? cs with
    | some (scheme, authority, tail) =>
      if !isAuthority authority then .error ⟨.badAuthority, raw⟩
      else
        let target : Target := {
          scheme := some (String.ofList scheme)
          authority := some (String.ofList authority) }
        if tail.isEmpty then .ok target
        else
          (PathAndQuery.parse (tailText tail)).map fun p => { target with pathAndQuery := some p }
    | none =>
      if isAuthority cs then .ok { authority := some raw }
      else .error ⟨.unrecognised, raw⟩

/-- The text of a target. -/
def text (t : Target) : String :=
  let tail := (t.pathAndQuery.map PathAndQuery.text).getD ""
  match t.scheme, t.authority with
  | some scheme, some authority => scheme ++ "://" ++ authority ++ tail
  | none, some authority => authority
  | _, none => tail

/-- The path that rules look at: a scheme without a path reads as the root. -/
def matchPath (t : Target) : String :=
  match t.pathAndQuery with
  | some p => p.path
  | none => if t.scheme.isSome then "/" else ""

/-- Whether the target is an authority alone. -/
def isAuthorityForm (t : Target) : Bool := t.authority.isSome && t.scheme.isNone

/-- The target with the path and query that a text stands for. -/
def withPathAndQuery (t : Target) (raw : String) : Except TargetFault Target := do
  let p ← PathAndQuery.parse raw
  if t.isAuthorityForm then .error ⟨.pathOnAuthority, raw⟩
  else .ok { t with pathAndQuery := some p }

end Target

end FaultInjection
