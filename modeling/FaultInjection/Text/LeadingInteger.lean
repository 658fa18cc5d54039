import FaultInjection.Number.Decimal

/-!
# Text - Blanks and leading integers

Durations and leading integers skip blanks: the basic control blanks, the
space, and the space separators and line separators of Unicode, with the byte
order mark.

Ports on the command line and page bounds in a query are read leniently: blanks
are skipped, a sign and a hexadecimal mark are allowed, and the longest run of
digits counts; what follows it is ignored.  A text without digits is not a
number.

Main definitions:

- `Blank.isBlank`, whether a character is a blank.
- `leadingInteger`, the number at the start of a text.
-/

namespace FaultInjection

namespace Blank

/-- Code points of the single blanks and of the ends of the ranges of blanks. -/
def ranges : List (Nat × Nat) :=
  [(0x09, 0x0d), (0x20, 0x20), (0xa0, 0xa0), (0x1680, 0x1680), (0x2000, 0x200a),
    (0x2028, 0x2029), (0x202f, 0x202f), (0x205f, 0x205f), (0x3000, 0x3000), (0xfeff, 0xfeff)]

/-- Whether a character is a blank. -/
def isBlank (c : Char) : Bool :=
  ranges.any fun (first, last) => first ≤ c.toNat && c.toNat ≤ last

end Blank

namespace LeadingInteger

/-- The value of a digit in a radix up to sixteen. -/
def digit? (radix : Nat) (c : Char) : Option Nat :=
  let value? :=
    if '0' ≤ c && c ≤ '9' then some (c.toNat - '0'.toNat)
    else if 'a' ≤ c && c ≤ 'f' then some (c.toNat - 'a'.toNat + 10)
    else if 'A' ≤ c && c ≤ 'F' then some (c.toNat - 'A'.toNat + 10)
    else none
  value?.filter (· < radix)

/-- The value of the longest run of digits after digits worth `value`. -/
def digitsFrom (radix value : Nat) : List Char → Nat
  | [] => value
  | c :: rest =>
    match digit? radix c with
    | some d => digitsFrom radix (value * radix + d) rest
    | none => value

/-- The run of digits at the start, not a number where there is none. -/
def digits (radix : Nat) (negative : Bool) : List Char → Number
  | c :: rest =>
    match digit? radix c with
    | some d =>
      let n := digitsFrom radix d rest
      Number.ofInt (if negative then -(n : Int) else n)
    | none => .notANumber
  | [] => .notANumber

/-- The digits after a sign, in radix sixteen after a hexadecimal mark. -/
def unsigned (negative : Bool) : List Char → Number
  | '0' :: 'x' :: rest => digits 16 negative rest
  | '0' :: 'X' :: rest => digits 16 negative rest
  | cs => digits 10 negative cs

/-- The digits after blanks and a sign. -/
def signed : List Char → Number
  | '-' :: rest => unsigned true rest
  | '+' :: rest => unsigned false rest
  | cs => unsigned false cs

end LeadingInteger

/-- The integer at the start of a text, not a number where there is none. -/
def leadingInteger (s : String) : Number :=
  LeadingInteger.signed (s.toList.dropWhile Blank.isBlank)

end FaultInjection
