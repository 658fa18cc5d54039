import FaultInjection.Number.Decimal
import FaultInjection.Text.LeadingInteger
import FaultInjection.Text.LetterCase
import FaultInjection.Text.Pieces

/-!
# Hosts - Names and addresses

A host is a domain name or an address.

A domain name is brought into one form before it is compared, and written in basic
letters.  What that form is says a mapping of names, the compatibility mapping of
internationalized names together with their composed form.  Its table of all
characters is not part of the library: the mapping is a parameter, of which only the
basic letters are fixed.  `Domain.Mapping.common` is the part of it for lower case,
for wide forms of basic characters, for other full stops and for characters that are
not seen; it neither maps other characters of the same meaning nor composes any, and
it refuses none.

A label with other than basic letters is written in basic letters: those it has, then
the places of the others as a chain of numbers.  The numbers have digits in radix 36 and
end by a threshold that follows the sizes of the numbers before.  A label with the mark
of a written form must be the written form of something.

A host whose last part is a number is an address of four bytes.  Its parts are
decimal, octal or hexadecimal numbers; the last one stands for all bytes that no
other part gives.  An address in brackets has eight pieces of sixteen bits between
colons.  Two colons stand for one or more pieces that are zero, and an address of four
bytes may stand in the place of the last two pieces.  In print the longest run of two or
more zeros, the first of several, is left out.

Main definitions:

- `Punycode.encode` and `Punycode.decode?`, the written form of a label without its mark.
- `Domain.Mapping`, how names are brought into the form in which they are compared.
- `Domain.normal?`, a domain name in that form and in basic letters.
- `Ipv4.endsInNumber`, whether a host is an address of four bytes or ill-formed.
- `Ipv4.parse?` and `Ipv4.text`, `Ipv6.parse?` and `Ipv6.text`.

Main results:

- `Domain.normal?_of_basic`: what a name in basic letters becomes under any mapping.
-/

namespace FaultInjection

/-! ## Labels in basic letters -/

namespace Punycode

/-- The digit character of a value below 36. -/
def digit (value : Nat) : Char :=
  if value < 26 then Char.ofNat ('a'.toNat + value) else Char.ofNat ('0'.toNat + (value - 26))

/-- The value of a digit character. -/
def digitValue? (c : Char) : Option Nat :=
  if 'a' ≤ c && c ≤ 'z' then some (c.toNat - 'a'.toNat)
  else if 'A' ≤ c && c ≤ 'Z' then some (c.toNat - 'A'.toNat)
  else if '0' ≤ c && c ≤ '9' then some (c.toNat - '0'.toNat + 26)
  else none

/-- The value below which a digit at a place ends its number. -/
def threshold (place bias : Nat) : Nat := max 1 (min 26 (place - bias))

/-- How often a number is divided by 35 until it is at most 455, and what is left. -/
def reduce : Nat → Nat → Nat → Nat × Nat
  | 0, times, n => (times, n)
  | fuel + 1, times, n => if 455 < n then reduce fuel (times + 1) (n / 35) else (times, n)

/-- The bias after a number, when `count` characters are written. -/
def adapt (n count : Nat) (first : Bool) : Nat :=
  let n := if first then n / 700 else n / 2
  let (times, rest) := reduce 32 0 (n + n / count)
  36 * times + 36 * rest / (rest + 38)

/-- The digits of a number from a place on. -/
def numberDigits (bias : Nat) : Nat → Nat → Nat → List Char
  | 0, _, _ => []
  | fuel + 1, place, n =>
    let t := threshold place bias
    if n < t then [digit n]
    else digit (t + (n - t) % (36 - t)) :: numberDigits bias fuel (place + 36) ((n - t) / (36 - t))

/-- The state of an encoder. -/
structure Encoder where
  written : List Char
  gap : Nat := 0
  bias : Nat := 72
  handled : Nat
  first : Bool := true

/-- The encoder after a character, when the characters of a code are written. -/
def Encoder.pass (code : Nat) (e : Encoder) (c : Char) : Encoder :=
  if c.toNat < code then { e with gap := e.gap + 1 }
  else if c.toNat = code then
    { written := e.written ++ numberDigits e.bias 64 36 e.gap
      gap := 0
      bias := adapt e.gap (e.handled + 1) e.first
      handled := e.handled + 1
      first := false }
  else e

/-- The encoder after the codes of a list, each above those handled before. -/
def Encoder.run (label : List Char) (e : Encoder) (reached : Nat) : List Nat → Encoder
  | [] => e
  | code :: rest =>
    let e := { e with gap := e.gap + (code - reached) * (e.handled + 1) }
    let e := label.foldl (pass code) e
    run label { e with gap := e.gap + 1 } (code + 1) rest

/-- Whether a character is one of the basic ones. -/
def isBasic (c : Char) : Bool := c.toNat < 128

/-- The lower case of a basic character is one. -/
theorem isBasic_toLower {c : Char} (h : isBasic c = true) : isBasic c.toLower = true := by
  refine decide_eq_true ?_
  unfold Char.toLower
  split
  · rename_i hupper
    have hle : c.val.toNat ≤ 90 := UInt32.le_iff_toNat_le.1 hupper.2
    change (c.val.toNat + 32) % 2 ^ 32 < 128
    omega
  · exact of_decide_eq_true h

/-- The codes of other characters in ascending order. -/
def otherCodes (label : List Char) : List Nat :=
  ((label.filter (!isBasic ·)).map Char.toNat).mergeSort.eraseDups

/-- The written form of a label without its mark. -/
def encode (label : List Char) : List Char :=
  let basic := label.filter isBasic
  let start := if basic.isEmpty then [] else basic ++ ['-']
  ({ written := start, handled := basic.length : Encoder }.run label 128 (otherCodes label)).written

/-- The number whose digits stand at the start of a text, and what follows it. -/
def takeNumber? (bias : Nat) (place weight sum : Nat) : List Char → Option (Nat × List Char)
  | [] => none
  | c :: rest => do
    let value ← digitValue? c
    let t := threshold place bias
    let sum := sum + value * weight
    if value < t then return (sum, rest)
    else takeNumber? bias (place + 36) (weight * (36 - t)) sum rest

/-- The label that numbers complete, within a number of them. -/
def complete? : Nat → Nat → Nat → Nat → Bool → List Char → List Char → Option (List Char)
  | 0, _, _, _, _, _, _ => none
  | fuel + 1, code, place, bias, first, label, cs =>
    if cs.isEmpty then some label
    else do
      let (n, rest) ← takeNumber? bias 36 1 0 cs
      let count := label.length + 1
      let position := place + n
      let code := code + position / count
      let place := position % count
      if 0x10ffff < code || (0xd800 ≤ code && code < 0xe000) then none
      else
        complete? fuel code (place + 1) (adapt n count first) false
          (label.take place ++ Char.ofNat code :: label.drop place) rest

/-- The label of a written form without its mark. -/
def decode? (cs : List Char) : Option (List Char) :=
  let tail := (cs.reverse.takeWhile (· ≠ '-')).reverse
  let basic := cs.take (cs.length - tail.length - 1)
  if basic.all isBasic then complete? (cs.length + 1) 128 0 72 true basic tail else none

end Punycode

/-! ## Domain names -/

namespace Domain

/-- How names are brought into the one form in which they are compared. -/
class Mapping where
  /-- The form of a name, none where a character is not allowed in names. -/
  form? : List Char → Option (List Char)
  /-- Of the basic characters only the capital letters change. -/
  form?_basic : ∀ name, (∀ c ∈ name, Punycode.isBasic c = true) →
    form? name = some (name.map Char.toLower)

namespace Mapping

/-- Whether a character of a name is not seen and left out. -/
def isIgnored (c : Char) : Bool :=
  [0xad, 0x200b, 0x2060, 0x2064, 0xfeff].contains c.toNat || (0xfe00 ≤ c.toNat && c.toNat ≤ 0xfe0f)

/-- The basic character that a wide form or a blank stands for. -/
def narrow (c : Char) : Char :=
  let n := c.toNat
  if 0xff01 ≤ n && n ≤ 0xff5e then Char.ofNat (n - 0xff01 + 0x21)
  else if n = 0x3002 || n = 0xff61 then '.'
  else if n = 0xa0 || n = 0x3000 then ' '
  else c

/-- A name with wide forms narrow, in lower case, and without what is not seen. -/
def commonForm (name : List Char) : List Char :=
  ((name.filter (!isIgnored ·)).map narrow).flatMap LetterCase.lowerChar

/-- A basic character stays, in lower case. -/
theorem commonForm_basic {name : List Char} (h : ∀ c ∈ name, Punycode.isBasic c = true) :
    commonForm name = name.map Char.toLower := by
  have hcode : ∀ c ∈ name, c.toNat < 128 := fun c hc => of_decide_eq_true (h c hc)
  have hseen : name.filter (!isIgnored ·) = name := by
    refine List.filter_eq_self.2 fun c hc => ?_
    have hc := hcode c hc
    simp [isIgnored]
    omega
  have hnarrow : name.map narrow = name := by
    refine (List.map_congr_left fun c hc => ?_).trans (List.map_id name)
    have hc := hcode c hc
    simp only [narrow, id]
    grind
  have hlower : name.map LetterCase.lowerChar = name.map fun c => [c.toLower] :=
    List.map_congr_left fun c hc => LetterCase.lowerChar_basic (hcode c hc)
  rw [commonForm, hseen, hnarrow, List.flatMap_def, hlower, ← List.flatMap_def, List.map_eq_flatMap]

/-- The mapping of common characters. -/
instance common : Mapping where
  form? name := some (commonForm name)
  form?_basic _ h := congrArg some (commonForm_basic h)

end Mapping

/-- Whether a character never stands in a name. -/
def isForbidden (c : Char) : Bool :=
  let n := c.toNat
  n ≤ 0x20 || (0x7f ≤ n && n < 0xa0) || n == 0xfffd ||
    ['#', '/', ':', '<', '>', '?', '@', '[', '\\', ']', '^', '|', '%'].contains c

/-- The mark of a label in its written form. -/
def mark : List Char := ['x', 'n', '-', '-']

section Names

variable [Mapping]

/-- A label in its written form, none where it has the mark of that form without being the one of a
label that needs it. -/
def label? (label : List Char) : Option (List Char) :=
  if label.all Punycode.isBasic then
    if mark.isPrefixOf label then do
      let meant ← Punycode.decode? (label.drop mark.length)
      let isWritten :=
        !meant.all Punycode.isBasic && !meant.any isForbidden && Mapping.form? meant = some meant
      if isWritten then return label else none
    else some label
  else if mark.isPrefixOf label then none
  else some (mark ++ Punycode.encode label)

/-- A domain name in the form in which it is compared, and in basic letters. -/
def normal? (name : List Char) : Option (List Char) := do
  let form ← Mapping.form? name
  let labels ← (piecesAt '.' form).mapM label?
  let normal := joinWith '.' labels
  if normal.isEmpty || form.any isForbidden then none else return normal

/-- Labels in basic letters without the mark of a written form are written as they are. -/
theorem mapM_label?_of_basic {labels : List (List Char)}
    (hbasic : ∀ label ∈ labels, label.all Punycode.isBasic = true)
    (hmark : ∀ label ∈ labels, mark.isPrefixOf label = false) :
    labels.mapM label? = some labels := by
  induction labels with
  | nil => rfl
  | cons label rest ih =>
      have hlabel : label? label = some label := by
        rw [label?, if_pos (hbasic label List.mem_cons_self), if_neg]
        rw [hmark label List.mem_cons_self]
        exact Bool.false_ne_true
      rw [List.mapM_cons, hlabel, ih (fun other h => hbasic other (List.mem_cons_of_mem _ h))
        (fun other h => hmark other (List.mem_cons_of_mem _ h))]
      rfl

/-- A name in basic letters, of which no label has the mark of a written form, becomes its lower
case under any mapping, unless it is empty or a character is forbidden. -/
theorem normal?_of_basic {name : List Char} (hbasic : ∀ c ∈ name, Punycode.isBasic c = true)
    (hmark : ∀ label ∈ piecesAt '.' (name.map Char.toLower), mark.isPrefixOf label = false) :
    normal? name =
      if (name.map Char.toLower).isEmpty || (name.map Char.toLower).any isForbidden then none
      else some (name.map Char.toLower) := by
  have hlower : ∀ c ∈ name.map Char.toLower, Punycode.isBasic c = true := by
    intro c hc
    obtain ⟨other, hother, rfl⟩ := List.mem_map.1 hc
    exact Punycode.isBasic_toLower (hbasic other hother)
  have hlabels : (piecesAt '.' (name.map Char.toLower)).mapM label? =
      some (piecesAt '.' (name.map Char.toLower)) :=
    mapM_label?_of_basic
      (fun label hlabel => List.all_eq_true.2 fun c hc => hlower c (mem_of_mem_piecesAt hlabel hc))
      hmark
  simp only [normal?, Mapping.form?_basic name hbasic, Option.bind_eq_bind, Option.bind_some,
    hlabels, joinWith_piecesAt]
  rfl

end Names

end Domain

/-! ## Addresses of four bytes -/

namespace Ipv4

/-- The value of digits in a radix, none where another character occurs. -/
def digitsValue? (radix value : Nat) : List Char → Option Nat
  | [] => some value
  | c :: rest => do digitsValue? radix (value * radix + (← LeadingInteger.digit? radix c)) rest

/-- The number that a part stands for: hexadecimal, octal or decimal by its start. -/
def number? : List Char → Option Nat
  | [] => none
  | '0' :: 'x' :: rest => digitsValue? 16 0 rest
  | '0' :: 'X' :: rest => digitsValue? 16 0 rest
  | ['0'] => some 0
  | '0' :: rest => digitsValue? 8 0 rest
  | cs => digitsValue? 10 0 cs

/-- The parts of a host between dots, without an empty last one. -/
def parts (host : List Char) : List (List Char) :=
  let all := piecesAt '.' host
  if all.getLast? = some [] && 1 < all.length then all.dropLast else all

/-- Whether the last part of a host is a number. -/
def endsInNumber (host : List Char) : Bool :=
  match (parts host).getLast? with
  | none => false
  | some last =>
    (!last.isEmpty && last.all fun c => '0' ≤ c && c ≤ '9') || (number? last).isSome

/-- The value of bytes with the most significant one first. -/
def bytesValue (bytes : List Nat) : Nat := bytes.foldl (fun n b => n * 256 + b) 0

/-- The address that a host stands for. -/
def parse? (host : List Char) : Option Nat := do
  let numbers ← (parts host).mapM number?
  let last ← numbers.getLast?
  let bytes := numbers.dropLast
  if 3 < bytes.length || bytes.any (255 < ·) || Nat.pow 256 (4 - bytes.length) ≤ last then none
  else return bytesValue bytes * Nat.pow 256 (4 - bytes.length) + last

/-- The text of an address. -/
def text (address : Nat) : String :=
  String.intercalate "." ([3, 2, 1, 0].map fun i => Nat.repr (address / Nat.pow 256 i % 256))

end Ipv4

/-! ## Addresses of eight pieces -/

namespace Ipv6

/-- The value of a piece: one to four hexadecimal digits. -/
def piece? (cs : List Char) : Option Nat :=
  if cs.isEmpty || 4 < cs.length then none else Ipv4.digitsValue? 16 0 cs

/-- The value of a byte in decimal digits without a zero at the start. -/
def byte? (cs : List Char) : Option Nat :=
  match cs with
  | [] => none
  | '0' :: _ :: _ => none
  | cs => (Ipv4.digitsValue? 10 0 cs).filter (· ≤ 255)

/-- The two pieces that an address of four bytes takes the place of. -/
def dotted? (cs : List Char) : Option (List Nat) := do
  let bytes ← (piecesAt '.' cs).mapM byte?
  match bytes with
  | [a, b, c, d] => return [a * 256 + b, c * 256 + d]
  | _ => none

/-- The pieces at the end of an address. -/
def last? (cs : List Char) : Option (List Nat) :=
  if cs.contains '.' then dotted? cs else (piece? cs).map fun p => [p]

/-- The pieces between colons, none for an empty text. -/
def pieces? (cs : List Char) (endsAddress : Bool) : Option (List Nat) :=
  if cs.isEmpty then some []
  else do
    let all := piecesAt ':' cs
    let first ← all.dropLast.mapM piece?
    let last ← if endsAddress then last? (all.getLast?.getD []) else
      (piece? (all.getLast?.getD [])).map fun p => [p]
    return first ++ last

/-- What stands before and behind the first two colons in a row. -/
def cutAtGap : List Char → Option (List Char × List Char)
  | ':' :: ':' :: rest => some ([], rest)
  | c :: rest => (cutAtGap rest).map fun (before, after) => (c :: before, after)
  | [] => none

/-- The eight pieces of an address. -/
def parse? (cs : List Char) : Option (List Nat) :=
  match cutAtGap cs with
  | none => (pieces? cs true).filter (·.length = 8)
  | some (before, after) => do
    let first ← pieces? before false
    let last ← pieces? after true
    let count := first.length + last.length
    if 7 < count then none else return first ++ List.replicate (8 - count) 0 ++ last

/-- How many zeros stand at the start of pieces. -/
def zeros (pieces : List Nat) : Nat := (pieces.takeWhile (· = 0)).length

/-- The place and length of the longest run of zeros from a place on. -/
def longestRun (place : Nat) : List Nat → Nat × Nat
  | [] => (place, 0)
  | piece :: rest =>
    let here := zeros (piece :: rest)
    let later := longestRun (place + 1) rest
    if later.2 ≤ here then (place, here) else later

/-- The text of pieces between colons. -/
def piecesText (pieces : List Nat) : String :=
  String.intercalate ":" (pieces.map fun p => String.ofList (Number.hexText 1 p))

/-- The text of an address. -/
def text (pieces : List Nat) : String :=
  let (place, length) := longestRun 0 pieces
  if length < 2 then piecesText pieces
  else piecesText (pieces.take place) ++ "::" ++ piecesText (pieces.drop (place + length))

end Ipv6

end FaultInjection
