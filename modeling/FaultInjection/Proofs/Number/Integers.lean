import FaultInjection.Proofs.Number.Exact
import Mathlib.Algebra.Group.Int.Defs

/-!
# Numbers - Integers of any size

An integer between -2^53 and 2^53 is a number as it is.  One beyond is rounded, but stays beyond,
and what it is rounded to is an integer again or an infinity.

Main definitions:

- `Number.integer`, an integer as it is, however large.
- `Number.IsRounded`, what is known of the integer that an integer is rounded to.

Main results:

- `Number.ofInt_cases`: the number nearest to an integer.
- `Number.ofInt_eq_integer`: it is the integer itself from -2^53 to 2^53.
- `Number.integer_add_integer`: the sum of integers is rounded once.
-/

namespace FaultInjection

namespace Number

/-- An integer as it is, however large. -/
def integer (i : Int) : Number := finite (i * unitsPerOne)

/-- The integer that an integer can be rounded to: the same up to 2^53, and not nearer to zero than
2^53 beyond. -/
structure IsRounded (i r : Int) : Prop where
  exact : -2 ^ 53 ≤ i → i ≤ 2 ^ 53 → r = i
  high : 2 ^ 53 ≤ i → 2 ^ 53 ≤ r
  low : i ≤ -2 ^ 53 → r ≤ -2 ^ 53

theorem IsRounded.neg {i r : Int} (h : IsRounded i r) : IsRounded (-i) (-r) := by
  obtain ⟨hexact, hhigh, hlow⟩ := h
  exact ⟨by omega, by omega, by omega⟩

theorem IsRounded.nonpos {i r : Int} (h : IsRounded i r) (hi : i ≤ 0) : r ≤ 0 := by
  obtain ⟨hexact, -, hlow⟩ := h
  omega

theorem IsRounded.of_high {i r : Int} (hi : 2 ^ 53 < i) (hr : 2 ^ 53 ≤ r) : IsRounded i r :=
  ⟨by omega, fun _ => hr, by omega⟩

theorem IsRounded.of_low {i r : Int} (hi : i < -2 ^ 53) (hr : r ≤ -2 ^ 53) : IsRounded i r :=
  ⟨by omega, by omega, fun _ => hr⟩

/-- The sum of integers is rounded once. -/
theorem integer_add_integer (i j : Int) : integer i + integer j = ofInt (i + j) := by
  change ofQuotient (i * unitsPerOne + j * unitsPerOne) 1 = _
  rw [ofInt, Int.add_mul]

theorem neg_integer (i : Int) : neg (integer i) = integer (-i) := by
  rw [integer, integer, neg, Int.neg_mul]

/-- A number and its opposite are rounded alike. -/
theorem ofInt_neg (i : Int) : ofInt (-i) = neg (ofInt i) := by
  rw [ofInt, ofInt, Int.neg_mul]
  generalize i * unitsPerOne = units
  by_cases hzero : units = 0
  · rw [hzero]
    decide +kernel
  · have hsign : decide (-units < 0) = !decide (units < 0) := by
      rw [← decide_not, decide_eq_decide]
      omega
    rw [ofQuotient, ofQuotient, Int.natAbs_neg, hsign, ofMagnitude, ofMagnitude]
    split
    · cases decide (units < 0) <;> simp [neg]
    · rfl

/-- Beyond 2^53 the spacing is a multiple of one. -/
theorem unitsPerOne_dvd_spacing {units : Nat} (h : 2 ^ 53 * unitsPerOne ≤ units) :
    unitsPerOne ∣ spacing units := by
  have hne : units ≠ 0 := by
    have := unitsPerOne_pos
    omega
  rw [unitsPerOne_eq, ← Nat.pow_add] at h
  have hlog : 53 + unitExponent ≤ units.log2 := (Nat.le_log2 hne).2 h
  rw [spacing, unitsPerOne_eq]
  exact Nat.pow_dvd_pow 2 (by omega)

/-- The number nearest to a natural number is a natural number or the infinity. -/
theorem ofInt_natCast_cases (n : Nat) :
    (∃ r : Nat, IsRounded n r ∧ ofInt n = integer r) ∨ 2 ^ 53 < n ∧ ofInt n = infinite false := by
  rcases Nat.lt_or_ge (2 ^ 53) n with hlarge | hsmall
  · have hunits : (n : Int) * unitsPerOne = ((n * unitsPerOne : Nat) : Int) :=
      (Int.natCast_mul n unitsPerOne).symm
    rw [ofInt, hunits, ofQuotient_natCast Nat.one_pos]
    split
    · have hle : 2 ^ 53 * unitsPerOne ≤ n * unitsPerOne :=
        Nat.mul_le_mul_right _ (Nat.le_of_lt hlarge)
      obtain ⟨r, hr⟩ : unitsPerOne ∣ roundQuotient (n * unitsPerOne) 1 := by
        rw [roundQuotient, Nat.div_one]
        exact Nat.dvd_trans (unitsPerOne_dvd_spacing hle) (Nat.dvd_mul_left _ _)
      have hround : 2 ^ 53 * unitsPerOne ≤ roundQuotient (n * unitsPerOne) 1 := by
        rw [unitsPerOne_eq, ← Nat.pow_add] at hle ⊢
        exact two_pow_le_roundQuotient (by rwa [Nat.div_one])
      rw [hr, Nat.mul_comm] at hround
      have hbeyond : 2 ^ 53 ≤ r := Nat.le_of_mul_le_mul_left hround unitsPerOne_pos
      refine .inl ⟨r, ⟨by omega, by omega, by omega⟩, ?_⟩
      rw [hr, Nat.mul_comm, Int.natCast_mul, integer]
    · exact .inr ⟨hlarge, rfl⟩
  · exact .inl ⟨n, ⟨fun _ _ => rfl, id, id⟩, ofNat_eq_whole hsmall⟩

/-- The number nearest to an integer is an integer or one of the infinities. -/
theorem ofInt_cases (i : Int) :
    (∃ r, IsRounded i r ∧ ofInt i = integer r) ∨ 2 ^ 53 < i ∧ ofInt i = infinite false ∨
      i < -2 ^ 53 ∧ ofInt i = infinite true := by
  obtain ⟨n, rfl | rfl⟩ := Int.eq_nat_or_neg i
  · rcases ofInt_natCast_cases n with ⟨r, hround, hr⟩ | ⟨hlarge, hinfinite⟩
    · exact .inl ⟨r, hround, hr⟩
    · exact .inr (.inl ⟨by exact_mod_cast hlarge, hinfinite⟩)
  · rcases ofInt_natCast_cases n with ⟨r, hround, hr⟩ | ⟨hlarge, hinfinite⟩
    · refine .inl ⟨-r, hround.neg, ?_⟩
      rw [ofInt_neg, hr, neg_integer]
    · refine .inr (.inr ⟨by omega, ?_⟩)
      rw [ofInt_neg, hinfinite]
      rfl

/-- An integer from -2^53 to 2^53 is not rounded. -/
theorem ofInt_eq_integer {i : Int} (hlow : -2 ^ 53 ≤ i) (hhigh : i ≤ 2 ^ 53) :
    ofInt i = integer i := by
  rcases ofInt_cases i with ⟨r, hround, hi⟩ | ⟨hlarge, -⟩ | ⟨hlarge, -⟩
  · rw [hi, hround.exact hlow hhigh]
  · omega
  · omega

end Number

end FaultInjection
