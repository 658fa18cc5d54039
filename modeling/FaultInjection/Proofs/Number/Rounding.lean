import FaultInjection.Number.Basic
import Mathlib.Algebra.Group.Nat.Defs

/-!
# Numbers - Rounding and overflow

A quotient is rounded to the nearest multiple of a step, and the step grows with the quotient.
Rounding keeps to the powers of two on either side of a quotient, so that what is rounded to an
infinity is found between the two greatest of them: there the step is fixed, and the overflow
begins half a step below the limit.

Main definitions:

- `Number.IsAmount`, a finite number that is not negative, and `Number.IsNonneg`.
- `Number.halfTopStep` and `Number.overflowThreshold`, the least magnitude that is rounded to an
  infinity.

Main results:

- `Number.divideNearest_lt_iff`: the quotients that are rounded to below an even number.
- `Number.roundQuotient_lt_unitsLimit_iff`: the quotients that are rounded to a finite number.
- `Number.ofQuotient_natCast`: the value nearest to a quotient that is not negative.
- `Number.ofQuotient_add_ofQuotient`: the sums of quotients that are finite.
-/

namespace FaultInjection

namespace Number

/-! ## Rounding -/

section Rounding

variable {num den : Nat}

/-- A quotient is rounded to the whole number below it or to the one above. -/
theorem divideNearest_bounds (num den : Nat) :
    num / den ≤ divideNearest num den ∧ divideNearest num den ≤ num / den + 1 := by
  simp only [divideNearest]
  split <;> omega

/-- A quotient is rounded to below an even number if it is more than a half below: the half itself
goes to the even number. -/
theorem divideNearest_lt_iff {m : Nat} (hden : 0 < den) (heven : m % 2 = 0) :
    divideNearest num den < m ↔ 2 * num + den < 2 * (den * m) := by
  have hnum : den * (num / den) + num % den = num := Nat.div_add_mod num den
  have hmod : num % den < den := Nat.mod_lt num hden
  have hround := divideNearest_bounds num den
  rcases Nat.lt_trichotomy (num / den + 1) m with hbelow | hequal | habove
  · have hle : den * (num / den + 2) ≤ den * m := Nat.mul_le_mul_left den hbelow
    rw [Nat.mul_add] at hle
    omega
  · -- The quotient is odd here, so that a half goes up.
    have hm : den * m = den * (num / den) + den := by rw [← hequal, Nat.mul_add, Nat.mul_one]
    have hodd : num / den % 2 = 1 := by omega
    simp only [divideNearest, hodd]
    split
    · rename_i hup
      have hhalf : den ≤ 2 * (num % den) := by
        simp only [BEq.rfl, Bool.and_true, Bool.or_eq_true, decide_eq_true_eq, beq_iff_eq] at hup
        omega
      omega
    · rename_i hdown
      have hhalf : 2 * (num % den) < den := by
        simp only [BEq.rfl, Bool.and_true, Bool.or_eq_true, decide_eq_true_eq, beq_iff_eq,
          not_or] at hdown
        omega
      omega
  · have hle : den * m ≤ den * (num / den) := Nat.mul_le_mul_left den (by omega)
    omega

/-- A common factor of both parts does not change how a quotient is rounded. -/
theorem divideNearest_mul_right {factor : Nat} (hfactor : 0 < factor) (num den : Nat) :
    divideNearest (num * factor) (den * factor) = divideNearest num den := by
  have hlt : den * factor < 2 * (num % den * factor) ↔ den < 2 * (num % den) := by
    rw [← Nat.mul_assoc]
    exact Nat.mul_lt_mul_right hfactor
  have heq : 2 * (num % den * factor) = den * factor ↔ 2 * (num % den) = den := by
    rw [← Nat.mul_assoc]
    exact Nat.mul_left_inj (Nat.ne_of_gt hfactor)
  simp only [divideNearest, Nat.mul_div_mul_right num den hfactor, Nat.mul_mod_mul_right, hlt]
  simp only [Bool.or_eq_true, Bool.and_eq_true, decide_eq_true_eq, beq_iff_eq, heq]

theorem roundQuotient_mul_right {factor : Nat} (hfactor : 0 < factor) (num den : Nat) :
    roundQuotient (num * factor) (den * factor) = roundQuotient num den := by
  simp only [roundQuotient, Nat.mul_div_mul_right num den hfactor]
  rw [Nat.mul_right_comm, divideNearest_mul_right hfactor]

theorem spacing_pos (units : Nat) : 0 < spacing units := Nat.two_pow_pos _

/-- What is at least a power of two is not rounded to below it. -/
theorem two_pow_le_roundQuotient {k : Nat} (h : 2 ^ k ≤ num / den) :
    2 ^ k ≤ roundQuotient num den := by
  have hne : num / den ≠ 0 := Nat.ne_of_gt (Nat.lt_of_lt_of_le (Nat.two_pow_pos k) h)
  have hk : k ≤ (num / den).log2 := (Nat.le_log2 hne).2 h
  -- The step divides the greatest power of two that is not above the quotient.
  obtain ⟨j, hj⟩ : ∃ j, (num / den).log2 = ((num / den).log2 - 52) + j :=
    ⟨_, (Nat.add_sub_cancel' (Nat.sub_le _ _)).symm⟩
  have hpow : 2 ^ (num / den).log2 = spacing (num / den) * 2 ^ j := by
    rw [spacing, Nat.pow_eq, ← Nat.pow_add, ← hj]
  have hlog : 2 ^ (num / den).log2 ≤ num / den := Nat.log2_self_le hne
  have hquotient : 2 ^ j ≤ num / (den * spacing (num / den)) := by
    rw [← Nat.div_div_eq_div_mul, Nat.le_div_iff_mul_le (spacing_pos _), Nat.mul_comm, ← hpow]
    exact hlog
  calc
    2 ^ k ≤ 2 ^ (num / den).log2 := Nat.pow_le_pow_right Nat.zero_lt_two hk
    _ = 2 ^ j * spacing (num / den) := by rw [hpow, Nat.mul_comm]
    _ ≤ roundQuotient num den :=
        Nat.mul_le_mul_right _ (Nat.le_trans hquotient (divideNearest_bounds _ _).1)

/-- What is below a power of two is rounded to it at most. -/
theorem roundQuotient_le_two_pow {k : Nat} (h : num / den < 2 ^ k) :
    roundQuotient num den ≤ 2 ^ k := by
  obtain ⟨j, hj⟩ : ∃ j, k = ((num / den).log2 - 52) + j := by
    refine ⟨k - ((num / den).log2 - 52), (Nat.add_sub_cancel' ?_).symm⟩
    by_cases hzero : num / den = 0
    · simp [hzero]
    · have hlog : (num / den).log2 < k := (Nat.log2_lt hzero).2 h
      omega
  have hpow : 2 ^ k = spacing (num / den) * 2 ^ j := by
    rw [spacing, Nat.pow_eq, ← Nat.pow_add, ← hj]
  have hquotient : num / (den * spacing (num / den)) < 2 ^ j := by
    rw [← Nat.div_div_eq_div_mul, Nat.div_lt_iff_lt_mul (spacing_pos _), Nat.mul_comm, ← hpow]
    exact h
  calc
    roundQuotient num den ≤ 2 ^ j * spacing (num / den) :=
        Nat.mul_le_mul_right _ (Nat.le_trans (divideNearest_bounds _ _).2 hquotient)
    _ = 2 ^ k := by rw [hpow, Nat.mul_comm]

/-! ## Overflow -/

/-- Half of the distance between the greatest finite numbers, in units. -/
def halfTopStep : Nat := Nat.pow 2 (970 + unitExponent)

/-- The least magnitude that is rounded to an infinity, in units: half a step below the limit. -/
def overflowThreshold : Nat := unitsLimit - halfTopStep

theorem halfTopStep_pos : 0 < halfTopStep := Nat.two_pow_pos _

theorem unitsLimit_eq : unitsLimit = 2 ^ 54 * halfTopStep := by
  rw [unitsLimit, halfTopStep, Nat.pow_eq, Nat.pow_eq, ← Nat.pow_add]
  congr 1
  omega

theorem two_pow_topExponent : 2 ^ (1023 + unitExponent) = 2 ^ 53 * halfTopStep := by
  rw [halfTopStep, Nat.pow_eq, ← Nat.pow_add]
  congr 1
  omega

theorem overflowThreshold_add_halfTopStep : overflowThreshold + halfTopStep = unitsLimit := by
  have hle : halfTopStep ≤ unitsLimit := by
    rw [unitsLimit_eq]
    omega
  exact Nat.sub_add_cancel hle

/-- Between the two greatest powers of two the step is fixed. -/
theorem spacing_of_top {units : Nat} (hlarge : 2 ^ (1023 + unitExponent) ≤ units)
    (hlimit : units < unitsLimit) : spacing units = 2 * halfTopStep := by
  have hne : units ≠ 0 := Nat.ne_of_gt (Nat.lt_of_lt_of_le (Nat.two_pow_pos _) hlarge)
  have hlower : 1023 + unitExponent ≤ units.log2 := (Nat.le_log2 hne).2 hlarge
  have hupper : units.log2 < 1024 + unitExponent := (Nat.log2_lt hne).2 hlimit
  have hexponent : units.log2 - 52 = 970 + unitExponent + 1 := by omega
  rw [spacing, hexponent, halfTopStep, Nat.pow_eq, Nat.pow_eq, Nat.pow_succ, Nat.mul_comm]

/-- With a step of two halves, what is rounded to below the limit is more than a half below. -/
theorem divideNearest_mul_lt_iff {half : Nat} (hden : 0 < den) (hhalf : 0 < half) :
    divideNearest num (den * (2 * half)) * (2 * half) < 2 ^ 54 * half ↔
      num + den * half < den * (2 ^ 54 * half) := by
  have hstep : 0 < den * (2 * half) := Nat.mul_pos hden (by omega)
  have hlimit : 2 ^ 54 * half = 2 ^ 53 * (2 * half) := by omega
  have hbelow : divideNearest num (den * (2 * half)) < 2 ^ 53 ↔
      2 * num + den * (2 * half) < 2 * (den * (2 * half) * 2 ^ 53) :=
    divideNearest_lt_iff hstep (by omega)
  have hcomm : den * (2 * half) * 2 ^ 53 = den * (2 ^ 54 * half) := by
    rw [hlimit, Nat.mul_assoc, Nat.mul_comm (2 * half)]
  have htwice : den * (2 * half) = 2 * (den * half) := Nat.mul_left_comm den 2 half
  have hstepLt : divideNearest num (den * (2 * half)) * (2 * half) < 2 ^ 53 * (2 * half) ↔
      divideNearest num (den * (2 * half)) < 2 ^ 53 := Nat.mul_lt_mul_right (by omega)
  rw [hlimit, hstepLt, hbelow, hcomm, ← hlimit]
  omega

/-- A quotient is rounded to a finite number exactly if it is below the threshold. -/
theorem roundQuotient_lt_unitsLimit_iff (hden : 0 < den) :
    roundQuotient num den < unitsLimit ↔ num < den * overflowThreshold := by
  have hnum : num < den * (num / den + 1) := Nat.lt_mul_div_succ num hden
  have hhalf : 0 < halfTopStep := halfTopStep_pos
  have hthreshold : den * overflowThreshold + den * halfTopStep = den * unitsLimit := by
    rw [← Nat.mul_add, overflowThreshold_add_halfTopStep]
  rcases Nat.lt_or_ge (num / den) (2 ^ (1023 + unitExponent)) with hsmall | hlarge
  · have hround : roundQuotient num den ≤ 2 ^ (1023 + unitExponent) :=
      roundQuotient_le_two_pow hsmall
    have htop : 2 ^ (1023 + unitExponent) ≤ overflowThreshold := by
      have hsum := overflowThreshold_add_halfTopStep
      rw [unitsLimit_eq] at hsum
      rw [two_pow_topExponent]
      omega
    have hmul : den * (num / den + 1) ≤ den * overflowThreshold :=
      Nat.mul_le_mul_left den (Nat.le_trans hsmall htop)
    rw [two_pow_topExponent] at hround
    rw [unitsLimit_eq]
    omega
  · rcases Nat.lt_or_ge (num / den) unitsLimit with hlimit | hover
    · have hround : divideNearest num (den * (2 * halfTopStep)) * (2 * halfTopStep) < unitsLimit ↔
          num + den * halfTopStep < den * unitsLimit := by
        rw [unitsLimit_eq]
        exact divideNearest_mul_lt_iff hden hhalf
      rw [roundQuotient, spacing_of_top hlarge hlimit, hround]
      omega
    · have hround : unitsLimit ≤ roundQuotient num den := two_pow_le_roundQuotient hover
      have hmul : den * unitsLimit ≤ den * (num / den) := Nat.mul_le_mul_left den hover
      have hdiv : den * (num / den) ≤ num := Nat.mul_div_le num den
      omega

end Rounding

/-! ## Numbers that are not negative -/

/-- A finite number that is not negative. -/
def IsAmount (n : Number) : Prop := ∃ units : Nat, n = finite units

/-- A number that is not negative: an amount or the positive infinity. -/
def IsNonneg (n : Number) : Prop := n.IsAmount ∨ n = infinite false

theorem not_isAmount_infinite (negative : Bool) : ¬ (infinite negative).IsAmount := nofun

theorem isNonneg_finite (units : Nat) : (finite units).IsNonneg := .inl ⟨units, rfl⟩

/-- A number that is not below zero, and is finite, is an amount. -/
theorem isAmount_of_not_lt {n : Number} (hfinite : n.isFinite = true)
    (hzero : n.lt (finite 0) = false) : n.IsAmount := by
  cases n with
  | notANumber => cases hfinite
  | infinite negative => cases hfinite
  | finite units =>
      have hunits : ¬ units < 0 := by simpa [lt] using hzero
      exact ⟨units.toNat, by rw [Int.toNat_of_nonneg (by omega)]⟩

/-- The value nearest to a quotient that is not negative is finite exactly below the threshold. -/
theorem ofQuotient_natCast {num den : Nat} (hden : 0 < den) :
    ofQuotient num den =
      if num < den * overflowThreshold then finite (roundQuotient num den : Nat)
      else infinite false := by
  have hsign : decide ((num : Int) < 0) = false := by simp
  rw [ofQuotient, hsign, Int.natAbs_natCast, ofMagnitude]
  simp only [roundQuotient_lt_unitsLimit_iff hden]
  rfl

theorem isNonneg_ofQuotient {num den : Nat} (hden : 0 < den) :
    (ofQuotient num den).IsNonneg := by
  rw [ofQuotient_natCast hden]
  split
  · exact isNonneg_finite _
  · exact .inr rfl

/-- A common factor of both parts does not change the value nearest to a quotient. -/
theorem ofQuotient_mul_right {num den factor : Nat} (hfactor : 0 < factor) :
    ofQuotient ((num * factor : Nat) : Int) (den * factor) = ofQuotient num den := by
  have hsign : ∀ n : Nat, decide ((n : Int) < 0) = false := by simp
  rw [ofQuotient, ofQuotient, hsign, hsign, Int.natAbs_natCast, Int.natAbs_natCast,
    roundQuotient_mul_right hfactor]

/-- The product of whole numbers is rounded once. -/
theorem whole_mul_whole (a b : Nat) : whole a * whole b = ofNat (a * b) := by
  have hproduct : whole a * whole b =
      ofQuotient ((a * b * unitsPerOne * unitsPerOne : Nat) : Int) (1 * unitsPerOne) := by
    rw [Nat.one_mul]
    change ofQuotient ((a * unitsPerOne : Int) * (b * unitsPerOne)) unitsPerOne = _
    congr 1
    simp only [Int.natCast_mul]
    ac_rfl
  rw [hproduct, ofQuotient_mul_right unitsPerOne_pos, ofNat, ofInt, Int.natCast_mul]

/-- The quotient of whole numbers is rounded once. -/
theorem whole_div_whole (a : Nat) {b : Nat} (hb : 0 < b) :
    whole a / whole b = ofQuotient ((a * unitsPerOne : Nat) : Int) b := by
  have hdivisor : 0 < b * unitsPerOne := Nat.mul_pos hb unitsPerOne_pos
  have hunits : (b : Int) * unitsPerOne = ((b * unitsPerOne : Nat) : Int) :=
    (Int.natCast_mul b unitsPerOne).symm
  have hnonzero : ((b * unitsPerOne : Nat) : Int) ≠ 0 := by omega
  have hquotient : whole a / whole b =
      ofQuotient ((a * unitsPerOne * unitsPerOne : Nat) : Int) (b * unitsPerOne) := by
    change (if (b : Int) * unitsPerOne = 0 then _ else
      ofQuotient ((a * unitsPerOne : Int) * unitsPerOne * ((b : Int) * unitsPerOne).sign)
        ((b : Int) * unitsPerOne).natAbs) = _
    rw [hunits, if_neg hnonzero, Int.sign_eq_one_of_pos (by omega), Int.mul_one, Int.natAbs_natCast,
      Int.natCast_mul, Int.natCast_mul]
  rw [hquotient, ofQuotient_mul_right unitsPerOne_pos]

/-- The sum of finite numbers that are not negative is rounded once. -/
theorem finite_add_finite (a b : Nat) :
    finite a + finite b =
      if a + b < overflowThreshold then finite (roundQuotient (a + b) 1 : Nat)
      else infinite false := by
  have hsum : finite a + finite b = ofQuotient ((a + b : Nat) : Int) 1 := by
    rw [Int.natCast_add]
    rfl
  rw [hsum, ofQuotient_natCast Nat.one_pos, Nat.one_mul]

/-- A sum of quotients is finite exactly if what they are rounded to adds up to less than the
threshold. -/
theorem ofQuotient_add_ofQuotient {a b da db : Nat} (hda : 0 < da) (hdb : 0 < db) :
    ofQuotient (a : Int) da + ofQuotient (b : Int) db =
      if roundQuotient a da + roundQuotient b db < overflowThreshold then
        finite (roundQuotient (roundQuotient a da + roundQuotient b db) 1 : Nat)
      else infinite false := by
  have hlimit : overflowThreshold ≤ unitsLimit := Nat.sub_le _ _
  rw [ofQuotient_natCast hda, ofQuotient_natCast hdb]
  by_cases ha : a < da * overflowThreshold
  · by_cases hb : b < db * overflowThreshold
    · rw [if_pos ha, if_pos hb, finite_add_finite]
    · have hround : ¬ roundQuotient b db < unitsLimit := by
        rwa [roundQuotient_lt_unitsLimit_iff hdb]
      have hover : ¬ roundQuotient a da + roundQuotient b db < overflowThreshold := by omega
      rw [if_pos ha, if_neg hb, if_neg hover]
      rfl
  · have hround : ¬ roundQuotient a da < unitsLimit := by
      rwa [roundQuotient_lt_unitsLimit_iff hda]
    have hover : ¬ roundQuotient a da + roundQuotient b db < overflowThreshold := by omega
    rw [if_neg ha, if_neg hover]
    split <;> rfl

/-- The sum of numbers that are not negative is none that is. -/
theorem IsNonneg.add {x y : Number} (hx : x.IsNonneg) (hy : y.IsNonneg) : (x + y).IsNonneg := by
  rcases hx with ⟨a, rfl⟩ | rfl
  · rcases hy with ⟨b, rfl⟩ | rfl
    · rw [finite_add_finite]
      split
      · exact isNonneg_finite _
      · exact .inr rfl
    · exact .inr rfl
  · rcases hy with ⟨b, rfl⟩ | rfl
    · exact .inr rfl
    · exact .inr rfl

/-- The product of a number that is not negative and a positive amount is not negative. -/
theorem IsNonneg.mul_finite {x : Number} (hx : x.IsNonneg) {units : Nat} (hunits : 0 < units) :
    (x * finite units).IsNonneg := by
  rcases hx with ⟨a, rfl⟩ | rfl
  · have hproduct : finite a * finite units =
        ofQuotient ((a * units : Nat) : Int) unitsPerOne := by
      rw [Int.natCast_mul]
      rfl
    rw [hproduct]
    exact isNonneg_ofQuotient unitsPerOne_pos
  · have hsign : (finite (units : Int)).sign = 1 := Int.sign_eq_one_of_pos (by omega)
    have hproduct : infinite false * finite (units : Int) =
        infinityOfSign ((infinite false).sign * (finite (units : Int)).sign) := rfl
    rw [hproduct, hsign]
    exact .inr rfl

end Number

end FaultInjection
