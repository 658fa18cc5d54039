/-!
# Numbers - Binary64 values counted in units

Rule documents, durations and clocks hold binary floating-point numbers with
53 significant bits.  Every finite one is a whole number of units of
2^(-1074), so this module keeps that whole number: sums and comparisons are
those of the integers, and rounding is one division to the nearest even
multiple of a power of two.  The two zeros are one value, because no output of
the library tells them apart.

Main definitions:

- `Number.roundQuotient`, the nearest number of units with 53 significant bits.
- `Number.add`, `Number.sub`, `Number.mul`, `Number.div`: each rounds the exact
  result once.
- `Number.same`, `Number.lt`, `Number.le`: comparisons, false for a value that
  is not a number.

Main results:

- `Number.same_self_iff`: only a value that is not a number differs from itself.
- `Number.toInt?_ofUnitsOfInt`: a whole number of whole units reads back.
-/

namespace FaultInjection

/-- A binary64 value; the units of a finite one are of size 2^(-1074). -/
inductive Number where
  | notANumber
  | infinite (negative : Bool)
  | finite (units : Int)
  deriving DecidableEq, Repr, Inhabited

namespace Number

/-! ## Units -/

/-- One is this power of two, counted in units. -/
@[irreducible] def unitExponent : Nat := 1074

/-- How many units make one. -/
def unitsPerOne : Nat := Nat.pow 2 unitExponent

/-- The least number of units that is too large for a finite value: 2^1024. -/
def unitsLimit : Nat := Nat.pow 2 (1024 + unitExponent)

/-- The spacing of values just above a magnitude of `units`: 53 bits are kept. -/
def spacing (units : Nat) : Nat := Nat.pow 2 (units.log2 - 52)

/-- The quotient `num / den` rounded to the nearest whole number, a half to the even one. -/
def divideNearest (num den : Nat) : Nat :=
  let q := num / den
  let r := num % den
  if den < 2 * r || (2 * r == den && q % 2 == 1) then q + 1 else q

/-- The magnitude nearest to `num / den` units that has 53 significant bits. -/
def roundQuotient (num den : Nat) : Nat :=
  let step := spacing (num / den)
  divideNearest num (den * step) * step

/-- A finite value, or an infinity where the magnitude is out of range. -/
def ofMagnitude (negative : Bool) (units : Nat) : Number :=
  if units < unitsLimit then finite (if negative then -(units : Int) else units)
  else infinite negative

/-- The value nearest to `num / den` units. -/
def ofQuotient (num : Int) (den : Nat) : Number :=
  ofMagnitude (num < 0) (roundQuotient num.natAbs den)

/-- The value nearest to a whole number. -/
def ofInt (n : Int) : Number := ofQuotient (n * unitsPerOne) 1

/-- The value nearest to a natural number. -/
def ofNat (n : Nat) : Number := ofInt n

/-- A natural number as it is, however large: a count is never rounded. -/
def whole (n : Nat) : Number := finite (n * unitsPerOne)

instance (n : Nat) : OfNat Number n := ⟨ofNat n⟩

/-! ## Classification -/

/-- Whether the value is neither infinite nor missing. -/
def isFinite : Number → Bool
  | finite _ => true
  | _ => false

/-- The whole number that a finite value without fraction stands for. -/
def toInt? : Number → Option Int
  | finite u => if u % unitsPerOne = 0 then some (u / unitsPerOne) else none
  | _ => none

/-- Whether the value is finite and has no fraction. -/
def isInteger (x : Number) : Bool := x.toInt?.isSome

/-- The natural number that the value stands for, if it stands for one. -/
def toNat? (x : Number) : Option Nat :=
  match x.toInt? with
  | some (.ofNat n) => some n
  | _ => none

/-! ## Comparison -/

/-- Equality of numbers, under which a value that is not a number equals nothing. -/
def same : Number → Number → Bool
  | notANumber, _ => false
  | x, y => x == y

/-- Strict order of numbers. -/
def lt : Number → Number → Bool
  | notANumber, _ => false
  | _, notANumber => false
  | infinite true, infinite true => false
  | infinite true, _ => true
  | _, infinite true => false
  | infinite false, _ => false
  | _, infinite false => true
  | finite a, finite b => a < b

/-- Order of numbers. -/
def le (x y : Number) : Bool := lt x y || same x y

/-- The lesser of two numbers, not a number if either is not one. -/
def min : Number → Number → Number
  | notANumber, _ => notANumber
  | _, notANumber => notANumber
  | x, y => if lt y x then y else x

/-! ## Arithmetic -/

/-- The number with the opposite sign. -/
def neg : Number → Number
  | notANumber => notANumber
  | infinite s => infinite (!s)
  | finite u => finite (-u)

/-- The rounded sum. -/
def add : Number → Number → Number
  | notANumber, _ => notANumber
  | _, notANumber => notANumber
  | infinite s, infinite t => if s = t then infinite s else notANumber
  | infinite s, finite _ => infinite s
  | finite _, infinite t => infinite t
  | finite a, finite b => ofQuotient (a + b) 1

/-- The rounded difference. -/
def sub (x y : Number) : Number := add x (neg y)

/-- The sign of a number: negative, zero, positive. -/
def sign : Number → Int
  | notANumber => 0
  | infinite s => if s then -1 else 1
  | finite u => u.sign

/-- An infinity of the given sign, not a number for the sign zero. -/
def infinityOfSign (s : Int) : Number :=
  if s = 0 then notANumber else infinite (s < 0)

/-- The rounded product. -/
def mul : Number → Number → Number
  | notANumber, _ => notANumber
  | _, notANumber => notANumber
  | finite a, finite b => ofQuotient (a * b) unitsPerOne
  | x, y => infinityOfSign (x.sign * y.sign)

/-- The rounded quotient; a finite number over zero has the sign of the number. -/
def div : Number → Number → Number
  | notANumber, _ => notANumber
  | _, notANumber => notANumber
  | infinite _, infinite _ => notANumber
  | infinite s, finite b => infinityOfSign ((infinite s).sign * (if b < 0 then -1 else 1))
  | finite _, infinite _ => finite 0
  | finite a, finite b =>
    if b = 0 then infinityOfSign a.sign
    else ofQuotient (a * unitsPerOne * b.sign) b.natAbs

/-- The greatest whole number that is not above the value. -/
def floor : Number → Number
  | finite u => finite (u / unitsPerOne * unitsPerOne)
  | x => x

instance : Add Number := ⟨add⟩
instance : Sub Number := ⟨sub⟩
instance : Mul Number := ⟨mul⟩
instance : Div Number := ⟨div⟩
instance : Neg Number := ⟨neg⟩

/-! ## Laws -/

/-- Only a value that is not a number differs from itself. -/
theorem same_self_iff (x : Number) : x.same x = true ↔ x ≠ notANumber := by
  cases x <;> simp [same]

/-- Two values are the same number exactly when they are equal and a number. -/
theorem same_eq_true_iff (x y : Number) : x.same y = true ↔ x = y ∧ x ≠ notANumber := by
  cases x <;> simp [same]

/-- The order of finite numbers is that of their units. -/
theorem le_finite_iff (a b : Int) : (finite a).le (finite b) = true ↔ a ≤ b := by
  simp only [le, lt, same, Bool.or_eq_true, decide_eq_true_eq, beq_iff_eq, finite.injEq]
  omega

/-- The order of numbers is transitive. -/
theorem le_trans {x y z : Number} (hxy : x.le y = true) (hyz : y.le z = true) :
    x.le z = true := by
  rcases x with _ | (_ | _) | a <;> rcases y with _ | (_ | _) | b <;>
    rcases z with _ | (_ | _) | c <;>
    first
    | rfl
    | exact absurd hxy Bool.false_ne_true
    | exact absurd hyz Bool.false_ne_true
    | skip
  rw [le_finite_iff] at hxy hyz ⊢
  omega

/-- Nothing that is in order comes before the negative infinity. -/
theorem infinite_le_of_le {x y : Number} (h : x.le y = true) :
    (infinite true).le y = true := by
  rcases y with _ | (_ | _) | b
  · cases x <;> cases h
  · rfl
  · rfl
  · rfl

/-- One is a positive number of units. -/
theorem unitsPerOne_pos : 0 < unitsPerOne := Nat.two_pow_pos unitExponent

/-- A whole number of ones reads back as that number. -/
theorem toInt?_ofUnitsOfInt (n : Int) : (finite (n * unitsPerOne)).toInt? = some n := by
  have h : (unitsPerOne : Int) ≠ 0 := by
    have := unitsPerOne_pos
    omega
  simp [toInt?, Int.mul_emod_left, Int.mul_ediv_cancel _ h]

/-- Counts that differ are different numbers. -/
theorem whole_inj {m n : Nat} : whole m = whole n ↔ m = n := by
  have h : (unitsPerOne : Int) ≠ 0 := by
    have := unitsPerOne_pos
    omega
  simp only [whole, finite.injEq, Int.mul_eq_mul_right_iff h, Int.ofNat_inj]

end Number

end FaultInjection
