import FaultInjection.Proofs.Number.Rounding

/-!
# Numbers - Results that are not rounded

Up to 2^53 the spacing of numbers is at most one, so that whole numbers are numbers as they are
and their sums and differences within these bounds are exact.  Beyond that a result is off by half
a spacing at most.

Rounding keeps numbers in order, and what is rounded is not rounded any further, so that a clock
that is put forward does not go back.

Main definitions:

- `Number.IsTime`, a time that a clock can show.

Main results:

- `Number.ofNat_eq_whole`: whole numbers up to 2^53 are exact.
- `Number.whole_add` and `Number.whole_sub`: so are their sums and differences.
- `Number.div_le_floor`: a quotient of whole numbers is not rounded to below its whole part.
- `Number.two_mul_roundQuotient_le`: how far up a number is rounded.
- `Number.roundQuotient_mono`: rounding keeps numbers in order.
- `Number.IsTime.add`: a clock that is put forward does not go back.
-/

namespace FaultInjection

namespace Number

/-! ## Multiples of the spacing -/

section Rounding

variable {num den units : Nat}

/-- A quotient that is whole is not rounded. -/
theorem divideNearest_of_dvd (hden : 0 < den) (h : den ∣ num) :
    divideNearest num den = num / den := by
  have hmod : num % den = 0 := Nat.mod_eq_zero_of_dvd h
  have hne : den ≠ 0 := Nat.ne_of_gt hden
  simp [divideNearest, hmod, Ne.symm hne]

/-- A multiple of its spacing is not rounded. -/
theorem roundQuotient_one_of_dvd (h : spacing units ∣ units) : roundQuotient units 1 = units := by
  rw [roundQuotient, Nat.div_one, Nat.one_mul, divideNearest_of_dvd (spacing_pos units) h,
    Nat.div_mul_cancel h]

/-- A quotient is not rounded to below a multiple of the spacing that it reaches. -/
theorem le_roundQuotient {bound : Nat} (hbound : bound ≤ num / den)
    (hdvd : spacing (num / den) ∣ bound) : bound ≤ roundQuotient num den := by
  have hsteps : bound / spacing (num / den) ≤ num / (den * spacing (num / den)) := by
    rw [← Nat.div_div_eq_div_mul]
    exact Nat.div_le_div_right hbound
  calc
    bound = bound / spacing (num / den) * spacing (num / den) := (Nat.div_mul_cancel hdvd).symm
    _ ≤ roundQuotient num den :=
        Nat.mul_le_mul_right _ (Nat.le_trans hsteps (divideNearest_bounds _ _).1)

/-- A quotient is rounded up by half of its divisor at most. -/
theorem two_mul_divideNearest_mul_le (num den : Nat) :
    2 * (divideNearest num den * den) ≤ 2 * num + den := by
  have hnum : den * (num / den) + num % den = num := Nat.div_add_mod num den
  simp only [divideNearest]
  split
  · rename_i hup
    have hhalf : den ≤ 2 * (num % den) := by
      simp only [Bool.or_eq_true, Bool.and_eq_true, decide_eq_true_eq, beq_iff_eq] at hup
      omega
    have hmul : (num / den + 1) * den = den * (num / den) + den := by
      rw [Nat.add_mul, Nat.one_mul, Nat.mul_comm]
    omega
  · have hmul : num / den * den = den * (num / den) := Nat.mul_comm _ _
    omega

/-- A number is rounded up by half of its spacing at most. -/
theorem two_mul_roundQuotient_le (units : Nat) :
    2 * roundQuotient units 1 ≤ 2 * units + spacing units := by
  simpa only [roundQuotient, Nat.div_one, Nat.one_mul] using
    two_mul_divideNearest_mul_le units (spacing units)

/-- A greater number is not rounded to a lesser quotient. -/
theorem divideNearest_mono {num num' : Nat} (h : num ≤ num') (den : Nat) :
    divideNearest num den ≤ divideNearest num' den := by
  have hround := divideNearest_bounds num den
  have hround' := divideNearest_bounds num' den
  rcases Nat.lt_or_eq_of_le (Nat.div_le_div_right (c := den) h) with hless | hsame
  · omega
  · -- Between the same whole numbers, more is left over.
    have hrest : num % den ≤ num' % den := by
      have hnum := Nat.div_add_mod num den
      have hnum' := Nat.div_add_mod num' den
      rw [hsame] at hnum
      omega
    simp only [divideNearest, hsame, Bool.or_eq_true, Bool.and_eq_true, decide_eq_true_eq,
      beq_iff_eq]
    split
    · split
      · exact Nat.le_refl _
      · omega
    · split
      · exact Nat.le_succ _
      · exact Nat.le_refl _

/-- A greater number of units is not rounded to a lesser one. -/
theorem roundQuotient_mono {units units' : Nat} (h : units ≤ units') :
    roundQuotient units 1 ≤ roundQuotient units' 1 := by
  by_cases hzero : units = 0
  · subst hzero
    rw [roundQuotient_one_of_dvd (Nat.dvd_zero _)]
    exact Nat.zero_le _
  · have hzero' : units' ≠ 0 := by omega
    have hlog : units.log2 ≤ units'.log2 :=
      (Nat.le_log2 hzero').2 (Nat.le_trans (Nat.log2_self_le hzero) h)
    rcases Nat.lt_or_eq_of_le hlog with hless | hsame
    · -- The next power of two lies between.
      calc
        roundQuotient units 1 ≤ 2 ^ (units.log2 + 1) :=
          roundQuotient_le_two_pow (by rw [Nat.div_one]; exact Nat.lt_log2_self)
        _ ≤ 2 ^ units'.log2 := Nat.pow_le_pow_right Nat.zero_lt_two hless
        _ ≤ roundQuotient units' 1 :=
          two_pow_le_roundQuotient (by rw [Nat.div_one]; exact Nat.log2_self_le hzero')
    · have hspacing : spacing units = spacing units' := by rw [spacing, spacing, hsame]
      simp only [roundQuotient, Nat.div_one, hspacing]
      exact Nat.mul_le_mul_right _ (divideNearest_mono h _)

end Rounding

/-! ## The spacing below a power of two -/

theorem unitsPerOne_eq : unitsPerOne = 2 ^ unitExponent := rfl

/-- Below a power of two the spacing divides the power 53 places lower. -/
theorem spacing_dvd_two_pow {units k : Nat} (h : units < 2 ^ (53 + k)) : spacing units ∣ 2 ^ k := by
  rw [spacing, Nat.pow_eq]
  apply Nat.pow_dvd_pow
  by_cases hzero : units = 0
  · simp [hzero]
  · have hlog : units.log2 < 53 + k := (Nat.log2_lt hzero).2 h
    omega

/-- What is rounded is a multiple of its spacing. -/
theorem spacing_dvd_roundQuotient (units : Nat) :
    spacing (roundQuotient units 1) ∣ roundQuotient units 1 := by
  obtain ⟨k, hk⟩ : ∃ k, units.log2 - 52 = k := ⟨_, rfl⟩
  have hround : roundQuotient units 1 = divideNearest units (2 ^ k) * 2 ^ k := by
    rw [roundQuotient, Nat.div_one, Nat.one_mul, spacing, hk, Nat.pow_eq]
  have hle : roundQuotient units 1 ≤ 2 ^ (53 + k) := by
    refine roundQuotient_le_two_pow ?_
    rw [Nat.div_one]
    have hlog : units.log2 + 1 ≤ 53 + k := by omega
    exact Nat.lt_of_lt_of_le Nat.lt_log2_self (Nat.pow_le_pow_right Nat.zero_lt_two hlog)
  rcases Nat.lt_or_eq_of_le hle with hless | htop
  · rw [hround] at hless ⊢
    exact Nat.dvd_trans (spacing_dvd_two_pow hless) (Nat.dvd_mul_left _ _)
  · have hlog : (2 ^ (53 + k)).log2 - 52 = k + 1 := by
      rw [Nat.log2_two_pow]
      omega
    rw [htop, spacing, hlog, Nat.pow_eq]
    exact Nat.pow_dvd_pow 2 (by omega)

/-- What is rounded is not rounded any further. -/
theorem roundQuotient_roundQuotient (units : Nat) :
    roundQuotient (roundQuotient units 1) 1 = roundQuotient units 1 :=
  roundQuotient_one_of_dvd (spacing_dvd_roundQuotient units)

/-- Below 2^53 the spacing is a part of one. -/
theorem spacing_dvd_unitsPerOne {units : Nat} (h : units < 2 ^ 53 * unitsPerOne) :
    spacing units ∣ unitsPerOne := by
  rw [unitsPerOne_eq, ← Nat.pow_add] at h
  exact spacing_dvd_two_pow h

/-- The spacing at 2^53 is two. -/
theorem spacing_top : spacing (2 ^ 53 * unitsPerOne) = 2 * unitsPerOne := by
  have hlog : (2 ^ (53 + unitExponent)).log2 - 52 = unitExponent + 1 := by
    rw [Nat.log2_two_pow]
    omega
  rw [unitsPerOne_eq, ← Nat.pow_add, spacing, hlog, Nat.pow_eq, Nat.pow_succ, Nat.mul_comm]

/-- What is below a power of two far from the limit is not rounded to an infinity. -/
theorem lt_overflowThreshold {units k : Nat} (hk : k < 1024) (h : units < 2 ^ (k + unitExponent)) :
    units < overflowThreshold := by
  have hround : roundQuotient units 1 ≤ 2 ^ (k + unitExponent) :=
    roundQuotient_le_two_pow (by rwa [Nat.div_one])
  have hlimit : roundQuotient units 1 < unitsLimit :=
    Nat.lt_of_le_of_lt hround (Nat.pow_lt_pow_right (by decide) (by omega))
  rwa [roundQuotient_lt_unitsLimit_iff Nat.one_pos, Nat.one_mul] at hlimit

/-! ## Whole numbers -/

section Whole

variable {a b n : Nat}

/-- A whole number up to 2^53 is a multiple of its spacing. -/
theorem spacing_dvd_whole (h : n ≤ 2 ^ 53) : spacing (n * unitsPerOne) ∣ n * unitsPerOne := by
  rcases Nat.lt_or_eq_of_le h with hlt | rfl
  · have hunits : n * unitsPerOne < 2 ^ 53 * unitsPerOne :=
      Nat.mul_lt_mul_of_pos_right hlt unitsPerOne_pos
    exact Nat.dvd_trans (spacing_dvd_unitsPerOne hunits) (Nat.dvd_mul_left _ _)
  · rw [spacing_top]
    exact Nat.mul_dvd_mul_right (by decide) _

/-- Whole numbers up to 2^53 are below the next power of two. -/
theorem whole_lt_two_pow (h : n ≤ 2 ^ 53) : n * unitsPerOne < 2 ^ (54 + unitExponent) := by
  calc
    n * unitsPerOne ≤ 2 ^ 53 * 2 ^ unitExponent := Nat.mul_le_mul_right _ h
    _ = 2 ^ (53 + unitExponent) := (Nat.pow_add 2 53 unitExponent).symm
    _ < 2 ^ (54 + unitExponent) := Nat.pow_lt_pow_right (by decide) (by omega)

/-- A whole number up to 2^53 is a number as it is. -/
theorem ofNat_eq_whole (h : n ≤ 2 ^ 53) : ofNat n = whole n := by
  have hunits : (n : Int) * unitsPerOne = ((n * unitsPerOne : Nat) : Int) :=
    (Int.natCast_mul n unitsPerOne).symm
  have hfinite : n * unitsPerOne < 1 * overflowThreshold := by
    rw [Nat.one_mul]
    exact lt_overflowThreshold (by decide) (whole_lt_two_pow h)
  rw [ofNat, ofInt, hunits, ofQuotient_natCast Nat.one_pos, if_pos hfinite,
    roundQuotient_one_of_dvd (spacing_dvd_whole h), whole, hunits]

/-- Sums of whole numbers are exact up to 2^53. -/
theorem whole_add (h : a + b ≤ 2 ^ 53) : whole a + whole b = whole (a + b) := by
  have hsum : whole a + whole b = ofNat (a + b) := by
    change ofQuotient ((a : Int) * unitsPerOne + b * unitsPerOne) 1 = _
    rw [ofNat, ofInt, Int.natCast_add, Int.add_mul]
  rw [hsum, ofNat_eq_whole h]

/-- Differences of whole numbers up to 2^53 are exact. -/
theorem whole_sub (hle : b ≤ a) (h : a ≤ 2 ^ 53) : whole a - whole b = whole (a - b) := by
  have hdifference : whole a - whole b = ofNat (a - b) := by
    change ofQuotient ((a : Int) * unitsPerOne + -(b * unitsPerOne)) 1 = _
    rw [ofNat, ofInt, Int.natCast_sub hle, Int.sub_mul]
    rfl
  rw [hdifference, ofNat_eq_whole (by omega)]

/-- Whole numbers are compared as they are. -/
theorem lt_whole_iff : (whole a).lt (whole b) = true ↔ a < b := by
  have hpos : (0 : Int) < unitsPerOne := Int.ofNat_lt.2 unitsPerOne_pos
  simp only [whole, lt, decide_eq_true_eq]
  rw [Int.mul_lt_mul_right hpos, Int.ofNat_lt]

/-- The lesser of two whole numbers is the first, unless the second is less. -/
theorem min_whole (a b : Nat) : (whole a).min (whole b) = whole (if b < a then b else a) := by
  have hmin : (whole a).min (whole b) = if (whole b).lt (whole a) then whole b else whole a := rfl
  rw [hmin]
  by_cases h : b < a
  · rw [if_pos (lt_whole_iff.2 h), if_pos h]
  · rw [if_neg (mt lt_whole_iff.1 h), if_neg h]

/-- A quotient of whole numbers is not rounded to below its whole part. -/
theorem div_le_floor (hb : 1 < b) (ha : a ≤ 2 ^ 53) :
    ∃ n : Nat, a / b ≤ n ∧ (whole a / whole b).floor = whole n := by
  have hdiv : a * unitsPerOne / b < 2 ^ 53 * unitsPerOne := by
    rw [Nat.div_lt_iff_lt_mul (Nat.zero_lt_of_lt hb)]
    have hone : 2 ^ 53 * unitsPerOne * 1 < 2 ^ 53 * unitsPerOne * b :=
      Nat.mul_lt_mul_of_pos_left hb (Nat.mul_pos (by decide) unitsPerOne_pos)
    have hunits : a * unitsPerOne ≤ 2 ^ 53 * unitsPerOne := Nat.mul_le_mul_right _ ha
    omega
  have hwhole : a / b * unitsPerOne ≤ a * unitsPerOne / b := by
    rw [Nat.le_div_iff_mul_le (Nat.zero_lt_of_lt hb), Nat.mul_right_comm]
    exact Nat.mul_le_mul_right _ (Nat.div_mul_le_self a b)
  have hround : a / b * unitsPerOne ≤ roundQuotient (a * unitsPerOne) b :=
    le_roundQuotient hwhole (Nat.dvd_trans (spacing_dvd_unitsPerOne hdiv) (Nat.dvd_mul_left _ _))
  have hfinite : a * unitsPerOne < b * overflowThreshold :=
    Nat.lt_of_lt_of_le (lt_overflowThreshold (by decide) (whole_lt_two_pow ha))
      (Nat.le_mul_of_pos_left _ (by omega))
  refine ⟨roundQuotient (a * unitsPerOne) b / unitsPerOne, ?_, ?_⟩
  · exact (Nat.le_div_iff_mul_le unitsPerOne_pos).2 hround
  · rw [whole_div_whole a (Nat.zero_lt_of_lt hb), ofQuotient_natCast (Nat.zero_lt_of_lt hb),
      if_pos hfinite, floor, whole]
    norm_cast

end Whole

/-! ## The order of numbers -/

theorem zero_eq_finite : (0 : Number) = finite (0 : Nat) := by
  have hzero : (0 : Number) = whole 0 := ofNat_eq_whole (Nat.zero_le _)
  rw [hzero, whole, Int.natCast_zero, Int.zero_mul]

/-- A number is not below one that comes before it. -/
theorem lt_eq_false_of_le {x y : Number} (h : x.le y = true) : y.lt x = false := by
  rcases x with _ | (_ | _) | a <;> rcases y with _ | (_ | _) | b <;>
    first
    | rfl
    | exact absurd h Bool.false_ne_true
    | skip
  rw [le_finite_iff] at h
  simpa [lt] using h

theorem le_of_lt {x y : Number} (h : x.lt y = true) : x.le y = true := by
  rw [le, h, Bool.true_or]

section Nonneg

variable {x y : Number}

theorem IsNonneg.le_refl (hx : x.IsNonneg) : x.le x = true := by
  have hself : x.same x = true := by
    rw [same_self_iff]
    rcases hx with ⟨a, rfl⟩ | rfl <;> simp
  rw [le, hself, Bool.or_true]

/-- Of two numbers that are not negative, one comes before the other. -/
theorem IsNonneg.le_of_lt_eq_false (hx : x.IsNonneg) (hy : y.IsNonneg) (h : x.lt y = false) :
    y.le x = true := by
  rcases hx with ⟨a, rfl⟩ | rfl
  · rcases hy with ⟨b, rfl⟩ | rfl
    · rw [le_finite_iff]
      simpa [lt] using h
    · cases h
  · rcases hy with ⟨b, rfl⟩ | rfl <;> rfl

/-- The lesser of two numbers that are not negative is one of them. -/
theorem IsNonneg.min (hx : x.IsNonneg) (hy : y.IsNonneg) : (x.min y).IsNonneg := by
  have hmin : x.min y = if y.lt x then y else x := by
    rcases hx with ⟨a, rfl⟩ | rfl <;> rcases hy with ⟨b, rfl⟩ | rfl <;> rfl
  rw [hmin]
  split
  · exact hy
  · exact hx

/-- What comes after zero is not negative. -/
theorem isNonneg_of_zero_lt (h : (0 : Number).lt x = true) : x.IsNonneg := by
  rw [zero_eq_finite] at h
  rcases x with _ | (_ | _) | a
  · cases h
  · exact .inr rfl
  · cases h
  · have ha : (0 : Int) < a := by simpa [lt] using h
    exact .inl ⟨a.toNat, by rw [Int.toNat_of_nonneg (by omega)]⟩

end Nonneg

/-! ## Times -/

/-- A time that a clock can show: a number that is not negative and is not rounded any further. -/
structure IsTime (n : Number) : Prop where
  isNonneg : n.IsNonneg
  add_zero : n + 0 = n

/-- The finite times are the numbers of units that are not rounded. -/
theorem isTime_finite_iff {units : Nat} :
    (finite units).IsTime ↔ units < overflowThreshold ∧ roundQuotient units 1 = units := by
  have hsum : finite units + 0 = if units < overflowThreshold then
      finite (roundQuotient units 1 : Nat) else infinite false := by
    rw [zero_eq_finite, finite_add_finite, Nat.add_zero]
  constructor
  · intro h
    have hzero := h.add_zero
    rw [hsum] at hzero
    split at hzero
    · rename_i hless
      exact ⟨hless, Int.ofNat.inj (finite.inj hzero)⟩
    · cases hzero
  · rintro ⟨hless, hround⟩
    refine ⟨isNonneg_finite units, ?_⟩
    rw [hsum, if_pos hless, hround]

theorem isTime_infinite : (infinite false).IsTime :=
  ⟨.inr rfl, by rw [zero_eq_finite]; rfl⟩

theorem isTime_zero : (0 : Number).IsTime := by
  rw [zero_eq_finite, isTime_finite_iff]
  exact ⟨lt_overflowThreshold (k := 0) (by decide) (Nat.two_pow_pos _),
    roundQuotient_one_of_dvd (Nat.dvd_zero _)⟩

/-- A clock that is put forward shows a time again, and it does not go back. -/
theorem IsTime.add {x y : Number} (hx : x.IsTime) (hy : y.IsNonneg) :
    (x + y).IsTime ∧ x.le (x + y) = true := by
  rcases hx.isNonneg with ⟨a, rfl⟩ | rfl
  · rcases hy with ⟨b, rfl⟩ | rfl
    · rw [finite_add_finite]
      split
      · rename_i hless
        have hround := (isTime_finite_iff.1 hx).2
        have hlimit : roundQuotient (a + b) 1 < overflowThreshold := by
          rw [← Nat.one_mul overflowThreshold, ← roundQuotient_lt_unitsLimit_iff Nat.one_pos,
            roundQuotient_roundQuotient, roundQuotient_lt_unitsLimit_iff Nat.one_pos, Nat.one_mul]
          exact hless
        refine ⟨isTime_finite_iff.2 ⟨hlimit, roundQuotient_roundQuotient _⟩, ?_⟩
        rw [le_finite_iff, Int.ofNat_le]
        calc
          a = roundQuotient a 1 := hround.symm
          _ ≤ roundQuotient (a + b) 1 := roundQuotient_mono (Nat.le_add_right a b)
      · exact ⟨isTime_infinite, rfl⟩
    · exact ⟨isTime_infinite, rfl⟩
  · rcases hy with ⟨b, rfl⟩ | rfl
    · exact ⟨isTime_infinite, rfl⟩
    · exact ⟨isTime_infinite, rfl⟩

end Number

end FaultInjection
