import FaultInjection.Number.Decimal
import FaultInjection.Text.LeadingInteger
import FaultInjection.Text.LetterCase

/-!
# Durations - Amounts with units

A duration is written as one or more parts, each an amount with a unit, such as
`1m 30s`.  Blanks and letter case do not count.  Its value in milliseconds is the
sum of the parts from left to right.

Main definitions:

- `Duration.parts?`, the parts that a text without blanks consists of.
- `Duration.unit?`, the milliseconds of a unit.
- `parseDuration`, the milliseconds of a text.

Main results:

- `Duration.part?_length`: a part takes characters away, so that reading ends.
-/

namespace FaultInjection

namespace Duration

/-- An amount with a unit; the fraction is empty where there is no point. -/
structure Part where
  whole : List Char
  fraction : List Char
  unit : List Char
  deriving DecidableEq, Repr

/-- Whether a character is a decimal digit. -/
def isDigit (c : Char) : Bool := '0' ≤ c && c ≤ '9'

/-- Whether a character is a basic small letter. -/
def isLetter (c : Char) : Bool := 'a' ≤ c && c ≤ 'z'

/-- The digits after a point, and what follows; none where no digit follows a point. -/
def fraction : List Char → List Char × List Char
  | '.' :: rest =>
    if (rest.takeWhile isDigit).isEmpty then ([], '.' :: rest)
    else (rest.takeWhile isDigit, rest.dropWhile isDigit)
  | rest => ([], rest)

/-- The part at the start of a text, and what follows it. -/
def part? (cs : List Char) : Option (Part × List Char) :=
  let whole := cs.takeWhile isDigit
  let (fraction, rest) := fraction (cs.dropWhile isDigit)
  let unit := rest.takeWhile isLetter
  if whole.isEmpty || unit.isEmpty then none
  else some (⟨whole, fraction, unit⟩, rest.dropWhile isLetter)

/-- What follows a fraction is not longer than what it starts. -/
theorem fraction_length (cs : List Char) : (fraction cs).2.length ≤ cs.length := by
  unfold fraction
  split
  · split
    · simp
    · simp only [List.length_cons]
      exact Nat.le_succ_of_le (List.dropWhile_suffix isDigit).length_le
  · simp

/-- A part takes characters away. -/
theorem part?_length {cs rest : List Char} {part : Part} (h : part? cs = some (part, rest)) :
    rest.length < cs.length := by
  simp only [part?] at h
  split at h
  · simp at h
  · rename_i hne
    simp only [Option.some.injEq, Prod.mk.injEq] at h
    obtain ⟨-, rfl⟩ := h
    have h1 := fraction_length (cs.dropWhile isDigit)
    have h2 := (List.dropWhile_suffix (l := (fraction (cs.dropWhile isDigit)).2) isLetter).length_le
    have h3 : (cs.takeWhile isDigit).length + (cs.dropWhile isDigit).length = cs.length := by
      rw [← List.length_append, List.takeWhile_append_dropWhile]
    have h4 : 0 < (cs.takeWhile isDigit).length := by
      simp only [Bool.or_eq_true, not_or] at hne
      exact List.length_pos_iff.2 (by simpa using hne.1)
    omega

/-- The parts that a text without blanks consists of, none unless they make up all of it. -/
def parts? (cs : List Char) : Option (List Part) :=
  if cs.isEmpty then some []
  else
    match h : part? cs with
    | none => none
    | some (part, rest) =>
      have := part?_length h
      (parts? rest).map (part :: ·)
termination_by cs.length

/-- The milliseconds of a unit. -/
def unit? (unit : List Char) : Option Number :=
  match String.ofList unit with
  | "ns" => some (Number.ofDecimal false 1 (-6))
  | "us" => some (Number.ofDecimal false 1 (-3))
  | "ms" => some 1
  | "s" | "sec" | "secs" => some 1000
  | "m" | "min" | "mins" => some 60000
  | "h" | "hr" | "hrs" => some 3600000
  | "d" => some 86400000
  | _ => none

/-- The milliseconds of a part. -/
def Part.value? (part : Part) : Option Number :=
  (unit? part.unit).map fun factor => Number.ofParts false part.whole part.fraction 0 * factor

/-- The sum of parts from left to right, after a sum. -/
def sum? (total : Number) : List Part → Option Number
  | [] => some total
  | part :: rest =>
    match part.value? with
    | some value => sum? (total + value) rest
    | none => none

/-- The text without blanks, in lower case. -/
def compact (s : String) : List Char :=
  (lowerCase (String.ofList (s.toList.filter (!Blank.isBlank ·)))).toList

end Duration

/-- The milliseconds of a duration, none for a text that is no duration. -/
def parseDuration (s : String) : Option Number :=
  let cs := Duration.compact s
  if cs.isEmpty then none else (Duration.parts? cs).bind (Duration.sum? 0)

end FaultInjection
