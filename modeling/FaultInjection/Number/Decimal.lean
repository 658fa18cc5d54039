import FaultInjection.Number.Basic

/-!
# Numbers - Decimal texts

A number is read from decimal digits by rounding their exact value once, and
written with the fewest decimal digits that read back as the same number.  The
digits come from exact arithmetic on units: for one digit, two digits and so
on, the two neighbours of the value on that decimal grid are tried against the
interval of reals that round to the value.

Main definitions:

- `Number.ofDecimal`, the number nearest to `digits * 10 ^ exponent`.
- `Number.shortest`, the fewest digits that read back, nearest to the value.
- `Number.text`, positional from 10^(-6) up to 10^21 and scientific elsewhere.
- `Number.bitsText`, the sixteen hexadecimal digits of the binary64 word.
- `Number.ofDigits`, the value of a run of digits in a radix.
-/

namespace FaultInjection

namespace Number

/-! ## Reading -/

/-- The value of decimal digit characters, most significant first. -/
def decimalValue (digits : List Char) : Nat :=
  digits.foldl (fun n c => n * 10 + (c.toNat - '0'.toNat)) 0

/-- The count of decimal digits of a natural number. -/
def decimalLength (n : Nat) : Nat := (Nat.toDigits 10 n).length

/-- The number nearest to `digits * 10 ^ exponent`, with the sign asked for. -/
def ofDecimal (negative : Bool) (digits : Nat) (exponent : Int) : Number :=
  if digits = 0 then finite 0
  else
    let top : Int := decimalLength digits + exponent
    if top > 310 then infinite negative
    else if top < -330 then finite 0
    else
      let value : Int := (if negative then -(digits : Int) else digits) * unitsPerOne
      if 0 ≤ exponent then ofQuotient (value * Nat.pow 10 exponent.toNat) 1
      else ofQuotient value (Nat.pow 10 (-exponent).toNat)

/-- The number that a whole part and a fraction part of decimal digits stand for. -/
def ofParts (negative : Bool) (whole fraction : List Char) (exponent : Int) : Number :=
  ofDecimal negative (decimalValue (whole ++ fraction)) (exponent - fraction.length)

/-! ## Shortest digits -/

/-- A decimal numeral: `digits * 10 ^ exponent`. -/
structure Numeral where
  digits : Nat
  exponent : Int
  deriving DecidableEq, Repr

/-- The spacing of values just below a magnitude of `units`. -/
def spacingBelow (units : Nat) : Nat :=
  let s := spacing units
  if units = Nat.pow 2 52 * s then (if s = 1 then 1 else s / 2) else s

/-- The first `j` from a start, within a number of tries, with `units * 10 ^ j` at least one. -/
def leadingZeros (units : Nat) : Nat → Nat → Nat
  | 0, j => j
  | tries + 1, j =>
    if unitsPerOne ≤ units * Nat.pow 10 j then j else leadingZeros units tries (j + 1)

/-- The power of ten just above a positive magnitude: the position of its decimal point. -/
def pointPosition (units : Nat) : Int :=
  if unitsPerOne ≤ units then decimalLength (units / unitsPerOne)
  else 1 - (leadingZeros units 330 1 : Int)

/-- A numeral of `count` digits that reads back as the magnitude, the nearest of two. -/
def numeralOfLength? (units : Nat) (position : Int) (count : Nat) : Option Numeral :=
  let exponent := position - count
  let num := if 0 ≤ exponent then units else units * Nat.pow 10 (-exponent).toNat
  let den := if 0 ≤ exponent then unitsPerOne * Nat.pow 10 exponent.toNat else unitsPerOne
  let scale := if 0 ≤ exponent then 1 else Nat.pow 10 (-exponent).toNat
  let inclusive := units / spacing units % 2 == 0
  let low := num / den
  let below := 2 * (num - low * den)
  let above := 2 * ((low + 1) * den - num)
  let fits (distance gap : Nat) := distance < gap || (inclusive && distance == gap)
  let lowFits := fits below (spacingBelow units * scale)
  let highFits := fits above (spacing units * scale)
  if lowFits && (!highFits || below < above || (below == above && low % 2 == 0)) then
    some ⟨low, exponent⟩
  else if highFits then some ⟨low + 1, exponent⟩
  else none

/-- The first numeral that reads back, trying `count` digits and more. -/
def shortestFrom (units : Nat) (position : Int) : Nat → Nat → Numeral
  | 0, count => ⟨units, count⟩
  | tries + 1, count =>
    match numeralOfLength? units position count with
    | some numeral => numeral
    | none => shortestFrom units position tries (count + 1)

/-- The digit characters of a numeral without zeros at its end, and its decimal point. -/
def Numeral.trim (n : Numeral) : List Char × Int :=
  let all := Nat.toDigits 10 n.digits
  let kept := (all.reverse.dropWhile (· == '0')).reverse
  (kept, all.length + n.exponent)

/-- The fewest digits that read back as a positive magnitude, and its decimal point. -/
def shortest (units : Nat) : List Char × Int :=
  (shortestFrom units (pointPosition units) 17 1).trim

/-! ## Writing -/

/-- Digits and a decimal point as text: positional near one, scientific elsewhere. -/
def numeralText (digits : List Char) (point : Int) : List Char :=
  let count : Int := digits.length
  if count ≤ point && point ≤ 21 then
    digits ++ List.replicate (point - count).toNat '0'
  else if 0 < point && point ≤ 21 then
    digits.take point.toNat ++ '.' :: digits.drop point.toNat
  else if -6 < point && point ≤ 0 then
    '0' :: '.' :: (List.replicate (-point).toNat '0' ++ digits)
  else
    let power := point - 1
    let tail := 'e' :: (if power < 0 then '-' else '+') :: Nat.toDigits 10 power.natAbs
    match digits with
    | [d] => d :: tail
    | d :: rest => d :: '.' :: (rest ++ tail)
    | [] => tail

/-- The text of a number: the fewest digits that read back. -/
def text : Number → String
  | notANumber => "NaN"
  | infinite negative => if negative then "-Infinity" else "Infinity"
  | finite u =>
    if u = 0 then "0"
    else
      let (digits, point) := shortest u.natAbs
      let body := numeralText digits point
      String.ofList (if u < 0 then '-' :: body else body)

/-! ## Bits -/

/-- The binary64 word of a number. -/
def bits : Number → Nat
  | notANumber => 0x7ff8000000000000
  | infinite negative => if negative then 0xfff0000000000000 else 0x7ff0000000000000
  | finite u =>
    let m := u.natAbs
    let signBit := if u < 0 then Nat.pow 2 63 else 0
    if m < Nat.pow 2 52 then signBit + m
    else
      let shift := m.log2 - 52
      signBit + (shift + 1) * Nat.pow 2 52 + (m / Nat.pow 2 shift - Nat.pow 2 52)

/-- The hexadecimal digits of a natural number, filled with zeros to a width. -/
def hexText (width n : Nat) : List Char :=
  let digits := Nat.toDigits 16 n
  List.replicate (width - digits.length) '0' ++ digits

/-- The sixteen hexadecimal digits of the binary64 word. -/
def bitsText (x : Number) : String := String.ofList (hexText 16 x.bits)

end Number

end FaultInjection
