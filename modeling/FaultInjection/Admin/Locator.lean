import FaultInjection.Target.Parameters
import FaultInjection.Text.Pieces

/-!
# Administration - Locators

A locator names a resource by a path and can carry a query and a fragment.  A fragment
does not count, not even a question mark in it.  The path is brought into a usual
form: backslashes count as slashes, steps to the same and to the parent directory are
carried out, and characters that need no escape stand for themselves.  A value of the
query is read leniently: what is escaped wrongly stays as it is written.

Main definitions:

- `Locator`, and `Locator.parse`, the locator that a text stands for.
- `Locator.value?`, the value of a name in the query.

Main results:

- `Locator.ofChars_append_fragment`: a fragment does not count.
- `Locator.decodeRuns_plain`: a text without escapes is read as it is written.
-/

namespace FaultInjection

/-- The path of a resource with an optional query. -/
structure Locator where
  path : String
  query : Option (List Char) := none
  deriving DecidableEq, Repr

namespace Locator

/-! ## Paths -/

/-- Whether a character is left out wherever it stands. -/
def isLineBreak (c : Char) : Bool := c == '\t' || c == '\n' || c == '\r'

/-- Whether a character ends the path. -/
def endsPath (c : Char) : Bool := c == '?' || c == '#'

/-- Whether a character is a slash of either kind. -/
def isSlash (c : Char) : Bool := c == '/' || c == '\\'

/-- A character of a path, in which a backslash is a slash. -/
def slash (c : Char) : Char := if isSlash c then '/' else c

/-- A segment with escaped dots written out, in lower case. -/
def dots : List Char → List Char
  | '%' :: '2' :: 'e' :: rest => '.' :: dots rest
  | '%' :: '2' :: 'E' :: rest => '.' :: dots rest
  | c :: rest => c :: dots rest
  | [] => []

/-- The segments reached by a step, the last one first; a step that ends a path and goes nowhere
leaves an empty segment. -/
def follow (reached : List (List Char)) (segment : List Char) (isLast : Bool) :
    List (List Char) :=
  let left := if isLast then [[]] else []
  if dots segment = ['.'] then left ++ reached
  else if dots segment = ['.', '.'] then left ++ reached.drop 1
  else segment :: reached

/-- The segments reached by steps, the last one first. -/
def followAll (reached : List (List Char)) : List (List Char) → List (List Char)
  | [] => reached
  | [segment] => follow reached segment true
  | segment :: rest => followAll (follow reached segment false) rest

/-- Whether an escaped character stands for itself in a path. -/
def isUnreserved (n : Nat) : Bool :=
  let c := Char.ofNat n
  n < 128 && (c.isAlphanum || c == '-' || c == '_' || c == '.' || c == '!' || c == '~' ||
    c == '*' || c == '(' || c == ')')

/-- A path in which escapes of characters that need none are read. -/
def unescape : List Char → List Char
  | '%' :: a :: b :: rest =>
    match Parameters.hexDigit? a, Parameters.hexDigit? b with
    | some high, some low =>
      let n := high * 16 + low
      if isUnreserved n then Char.ofNat n :: unescape rest else '%' :: a :: b :: unescape rest
    | _, _ => '%' :: unescape (a :: b :: rest)
  | c :: rest => c :: unescape rest
  | [] => []

/-- The usual form of a path without its first slash. -/
def normalPath (cs : List Char) : String :=
  let segments := followAll [] (piecesAt '/' (cs.map slash))
  String.ofList (unescape ('/' :: joinWith '/' segments.reverse))

/-! ## Reading -/

/-- The characters after the scheme of a whole address. -/
def afterScheme? : List Char → Option (List Char)
  | 'h' :: 't' :: 't' :: 'p' :: ':' :: '/' :: '/' :: rest => some rest
  | 'h' :: 't' :: 't' :: 'p' :: 's' :: ':' :: '/' :: '/' :: rest => some rest
  | _ => none

/-- The characters without a first one of some kind. -/
def withoutFirst (isMark : Char → Bool) : List Char → List Char
  | [] => []
  | c :: rest => if isMark c then rest else c :: rest

/-- The characters behind the authority of an address, without the slash there. -/
def afterAuthority (cs : List Char) : List Char :=
  withoutFirst isSlash
    ((cs.dropWhile isSlash).dropWhile fun c => !isSlash c && !endsPath c)

/-- Characters without line breaks and without blanks at their end. -/
def trimmed (cs : List Char) : List Char :=
  ((cs.filter (!isLineBreak ·)).reverse.dropWhile (·.toNat ≤ 0x20)).reverse

/-- Characters without the fragment behind them. -/
def withoutFragment (cs : List Char) : List Char := (cutAtFirst '#' cs).1

/-- The locator of characters behind the first slash. -/
def ofChars (cs : List Char) : Locator :=
  let (path, query) := cutAtFirst '?' (withoutFragment cs)
  { path := normalPath path, query }

/-- What stands behind a number sign is no part of what stands before a fragment. -/
theorem withoutFragment_append (cs fragment : List Char) :
    withoutFragment (cs ++ '#' :: fragment) = withoutFragment cs := by
  unfold withoutFragment
  induction cs with
  | nil => simp [cutAtFirst]
  | cons c rest ih =>
      by_cases h : c = '#'
      · simp [cutAtFirst, h]
      · simp [cutAtFirst, h, ih]

/-- A fragment does not count. -/
theorem ofChars_append_fragment (cs fragment : List Char) :
    ofChars (cs ++ '#' :: fragment) = ofChars cs := by
  simp [ofChars, withoutFragment_append]

/-- The locator that a text stands for: a path, or a whole address whose host does not count. -/
def parse (s : String) : Locator :=
  match afterScheme? s.toList with
  | some rest => ofChars (afterAuthority (trimmed rest))
  | none => ofChars (trimmed (withoutFirst (· == '/') s.toList))

/-! ## Queries -/

/-- The characters of a run of escapes; the run stays as it is written unless its bytes are
UTF-8.  Both come last first. -/
def settleRun (bytes : Bytes) (written : List Char) : List Char :=
  (Utf8.decode? bytes.reverse).getD written.reverse

/-- The characters of an escaped text, after a run of escapes. -/
def decodeRuns (bytes : Bytes) (written : List Char) : List Char → List Char
  | '%' :: a :: b :: rest =>
    match Parameters.hexDigit? a, Parameters.hexDigit? b with
    | some high, some low =>
      decodeRuns (UInt8.ofNat (high * 16 + low) :: bytes) (b :: a :: '%' :: written) rest
    | _, _ => settleRun bytes written ++ '%' :: decodeRuns [] [] (a :: b :: rest)
  | c :: rest => settleRun bytes written ++ c :: decodeRuns [] [] rest
  | [] => settleRun bytes written

/-- The text that a part of a query stands for; a plus sign is a blank. -/
def decode (cs : List Char) : String :=
  String.ofList (decodeRuns [] [] (cs.map fun c => if c = '+' then ' ' else c))

/-- The value of a name in a query: of the first piece with that very name, or else of the first
piece whose name stands for it.  A piece without an equals sign has the empty value. -/
def value? (l : Locator) (name : String) : Option String := do
  let query ← l.query
  let pieces := (piecesAt '&' query).map Parameters.cutPiece
  let same := pieces.find? fun (key, _) => key = name.toList
  let (_, value) ← same.orElse fun _ => pieces.find? fun (key, _) => decode key = name
  return decode value

/-- A text without escapes is read as it is written. -/
theorem decodeRuns_plain (cs : List Char) (h : '%' ∉ cs) : decodeRuns [] [] cs = cs := by
  induction cs with
  | nil => simp [decodeRuns, settleRun, Utf8.decode?]
  | cons c rest ih =>
      simp only [List.mem_cons, not_or] at h
      have hc : c ≠ '%' := fun hc => h.1 hc.symm
      rw [decodeRuns]
      · simp [ih h.2, settleRun, Utf8.decode?]
      · intro a b rest' heq
        exact fun _ => hc heq

end Locator

end FaultInjection
