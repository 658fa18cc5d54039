import FaultInjection.Delay
import FaultInjection.Proofs.Number.Exact
import Mathlib.Algebra.Order.Floor.Div

/-!
# Delays - The steps of a delay

A delay waits for its longest step as long as more than that remains, and then for the rest.  Up to
2^84 milliseconds each step makes what remains smaller, so that the last timer comes; beyond that a
step is lost in rounding, and the delay has no end.  With whole milliseconds up to 2^53 nothing is
lost on the way: the steps add up to the delay.

Main definitions:

- `Delay.steps`, the timers of a delay of whole milliseconds.
- `Delay.fire`, a delay after some of its timers have fired.
- `Delay.TakesTimers`, the number of timers after which a delay is over.
- `Delay.HasEnd`, the delays that come to an end.

Main results:

- `Delay.sum_steps`, `Delay.le_longestMs_of_mem_steps` and `Delay.length_steps`: the timers add up
  to the delay, none runs too long, and how many there are.
- `Delay.takesTimers_whole`: a delay is over when the last of them has fired.
- `Delay.exists_takesTimers_iff`: any delay has a last timer up to 2^84 milliseconds, and none has
  one beyond that.
-/

namespace FaultInjection

namespace Delay

/-! ## Steps of whole milliseconds -/

/-- The longest time that one timer runs, in milliseconds. -/
def longestMs : Nat := 2147483647

/-- The timers of a delay of whole milliseconds, in the order in which they run. -/
def steps (time : Nat) : List Nat :=
  if time ≤ longestMs then [time] else longestMs :: steps (time - longestMs)
termination_by time
decreasing_by
  have hpos : 0 < longestMs := by decide
  omega

theorem steps_of_le {time : Nat} (h : time ≤ longestMs) : steps time = [time] := by
  rw [steps, if_pos h]

theorem steps_of_lt {time : Nat} (h : longestMs < time) :
    steps time = longestMs :: steps (time - longestMs) := by
  rw [steps, if_neg (Nat.not_le_of_lt h)]

/-- What holds of a delay of one step, and of a longer one if it holds of what remains after a
step, holds of every delay. -/
theorem steps_induction {P : Nat → Prop} (hlast : ∀ time, time ≤ longestMs → P time)
    (hmore : ∀ time, longestMs < time → P (time - longestMs) → P time) (time : Nat) : P time := by
  induction time using Nat.strong_induction_on with
  | _ time ih =>
      have hpos : 0 < longestMs := by decide
      rcases Nat.lt_or_ge longestMs time with hlong | hshort
      · exact hmore time hlong (ih _ (by omega))
      · exact hlast time hshort

/-- The timers add up to the delay. -/
theorem sum_steps (time : Nat) : (steps time).sum = time := by
  induction time using steps_induction with
  | hlast time h => simp [steps_of_le h]
  | hmore time h ih =>
      rw [steps_of_lt h, List.sum_cons, ih]
      omega

/-- No timer runs longer than one may. -/
theorem le_longestMs_of_mem_steps {time step : Nat} (h : step ∈ steps time) :
    step ≤ longestMs := by
  induction time using steps_induction with
  | hlast time htime =>
      rw [steps_of_le htime, List.mem_singleton] at h
      rw [h]
      exact htime
  | hmore time htime ih =>
      rw [steps_of_lt htime, List.mem_cons] at h
      rcases h with rfl | hrest
      · exact Nat.le_refl _
      · exact ih hrest

/-- There are as many timers as longest steps are needed, and at least one. -/
theorem length_steps (time : Nat) : (steps time).length = max 1 (time ⌈/⌉ longestMs) := by
  have hpos : 0 < longestMs := by decide
  induction time using steps_induction with
  | hlast time h =>
      have hone : time ⌈/⌉ longestMs ≤ 1 := by
        rw [ceilDiv_le_iff_le_mul hpos]
        omega
      rw [steps_of_le h, max_eq_left hone]
      rfl
  | hmore time h ih =>
      have hmore : time ⌈/⌉ longestMs = (time - longestMs) ⌈/⌉ longestMs + 1 := by
        simp only [Nat.ceilDiv_eq_add_pred_div]
        have hsplit : time + longestMs - 1 = time - longestMs + longestMs - 1 + longestMs := by
          omega
        rw [hsplit, Nat.add_div_right _ hpos]
      have hrest : 1 ≤ (time - longestMs) ⌈/⌉ longestMs := by
        rw [Nat.ceilDiv_eq_add_pred_div, Nat.le_div_iff_mul_le hpos]
        omega
      rw [steps_of_lt h, List.length_cons, ih, hmore]
      omega

/-! ## Firings -/

/-- What remains of a time when its first timer is set. -/
def rest (time : Number) : Number := time - time.min longestStep

/-- A delay after a number of firings. -/
def fire : Nat → Delay → Delay
  | 0, d => d
  | n + 1, d => fire n (d.next .fired)

/-- A delay is over after some number of firings, and not before. -/
def TakesTimers (time : Number) (n : Nat) : Prop :=
  fire n (arm time) = elapsed ∧ ∀ k < n, fire k (arm time) ≠ elapsed

theorem fire_elapsed (n : Nat) : fire n elapsed = elapsed := by
  induction n with
  | zero => rfl
  | succ n ih => exact ih

/-- Firings come one after the other. -/
theorem fire_add (m n : Nat) (d : Delay) : fire (m + n) d = fire n (fire m d) := by
  induction m generalizing d with
  | zero => rw [Nat.zero_add, fire]
  | succ m ih => rw [Nat.succ_add, fire, ih, fire]

/-- A delay that is over stays so. -/
theorem TakesTimers.fire_of_le {time : Number} {n k : Nat} (h : TakesTimers time n) (hk : n ≤ k) :
    fire k (arm time) = elapsed := by
  obtain ⟨m, rfl⟩ := Nat.exists_eq_add_of_le hk
  rw [fire_add, h.1, fire_elapsed]

/-- If a delay is over after some firings, it is so after a number of timers that it takes. -/
theorem exists_takesTimers_of_fire {time : Number} {k : Nat} (h : fire k (arm time) = elapsed) :
    ∃ n, TakesTimers time n ∧ n ≤ k := by
  induction k with
  | zero => cases h
  | succ k ih =>
      by_cases hk : fire k (arm time) = elapsed
      · obtain ⟨n, hn, hle⟩ := ih hk
        exact ⟨n, hn, Nat.le_succ_of_le hle⟩
      · refine ⟨k + 1, ⟨h, fun m hm hover => hk ?_⟩, Nat.le_refl _⟩
        obtain ⟨more, rfl⟩ := Nat.exists_eq_add_of_le (Nat.le_of_lt_succ hm)
        rw [fire_add, hover, fire_elapsed]

/-- When its timer fires, a delay waits for what remains or is over. -/
theorem next_fired_arm (time : Number) :
    (arm time).next .fired = if (0 : Number).lt (rest time) then arm (rest time) else elapsed :=
  rfl

/-- Firings do not cancel a delay. -/
theorem waiting_of_fire_ne_elapsed {time : Number} {k : Nat}
    (h : fire k (arm time) ≠ elapsed) :
    ∃ step remaining, fire k (arm time) = waiting step remaining := by
  induction k generalizing time with
  | zero => exact ⟨_, _, rfl⟩
  | succ k ih =>
      rw [fire, next_fired_arm] at h ⊢
      by_cases hmore : (0 : Number).lt (rest time) = true
      · rw [if_pos hmore] at h ⊢
        exact ih h
      · rw [if_neg hmore] at h
        exact absurd (fire_elapsed k) h

/-- A delay of which nothing remains takes one timer. -/
theorem takesTimers_one {time : Number} (h : (0 : Number).lt (rest time) = false) :
    TakesTimers time 1 := by
  constructor
  · rw [fire, next_fired_arm, h]
    rfl
  · intro k hk
    obtain rfl : k = 0 := by omega
    exact nofun

/-- A delay takes one timer more than what remains of it. -/
theorem takesTimers_succ {time : Number} {n : Nat} (h : (0 : Number).lt (rest time) = true)
    (hrest : TakesTimers (rest time) n) : TakesTimers time (n + 1) := by
  have hnext : (arm time).next .fired = arm (rest time) := by rw [next_fired_arm, if_pos h]
  constructor
  · rw [fire, hnext]
    exact hrest.1
  · intro k hk
    cases k with
    | zero => exact nofun
    | succ k =>
        rw [fire, hnext]
        exact hrest.2 k (by omega)

/-- A delay does not take two different numbers of timers. -/
theorem TakesTimers.unique {time : Number} {m n : Nat} (hm : TakesTimers time m)
    (hn : TakesTimers time n) : m = n := by
  rcases Nat.lt_trichotomy m n with hlt | heq | hgt
  · exact absurd hm.1 (hn.2 m hlt)
  · exact heq
  · exact absurd hn.1 (hm.2 n hgt)

/-! ## Whole milliseconds -/

theorem longestStep_eq : longestStep = .whole longestMs :=
  Number.ofNat_eq_whole (by decide)

theorem zero_eq_whole : (0 : Number) = .whole 0 :=
  Number.ofNat_eq_whole (by decide)

/-- The first timer of whole milliseconds, and what remains then. -/
theorem arm_whole {time : Nat} (h : time ≤ 2 ^ 53) :
    arm (.whole time) = waiting (.whole (min time longestMs)) (.whole (time - longestMs)) := by
  have hmin : (if longestMs < time then longestMs else time) = min time longestMs := by
    split <;> omega
  have hsub : time - min time longestMs = time - longestMs := by omega
  rw [arm, longestStep_eq, Number.min_whole, hmin, Number.whole_sub (Nat.min_le_left _ _) h, hsub]

theorem rest_whole {time : Nat} (h : time ≤ 2 ^ 53) :
    rest (.whole time) = .whole (time - longestMs) := by
  have harm : waiting _ (rest (.whole time)) = waiting _ _ := arm_whole h
  injection harm

/-- When the timer of whole milliseconds fires, the delay is over or waits for what remains. -/
theorem next_fired_whole {time : Nat} (h : time ≤ 2 ^ 53) :
    (arm (.whole time)).next .fired =
      if time ≤ longestMs then elapsed else arm (.whole (time - longestMs)) := by
  rw [next_fired_arm, rest_whole h, zero_eq_whole]
  by_cases hshort : time ≤ longestMs
  · rw [if_pos hshort, if_neg (by rw [Number.lt_whole_iff]; omega)]
  · rw [if_neg hshort, if_pos (by rw [Number.lt_whole_iff]; omega)]

/-- A delay of whole milliseconds is over when the last of its timers has fired. -/
theorem takesTimers_whole {time : Nat} (h : time ≤ 2 ^ 53) :
    TakesTimers (.whole time) (steps time).length := by
  induction time using steps_induction with
  | hlast time htime =>
      rw [steps_of_le htime]
      apply takesTimers_one
      rw [rest_whole h, zero_eq_whole, Bool.eq_false_iff, ne_eq, Number.lt_whole_iff]
      omega
  | hmore time htime ih =>
      rw [steps_of_lt htime, List.length_cons]
      apply takesTimers_succ
      · rw [rest_whole h, zero_eq_whole, Number.lt_whole_iff]
        omega
      · rw [rest_whole h]
        exact ih (by omega)

/-- There are fewer timers than the bound says. -/
theorem length_steps_le_timerBound {time : Nat} (h : time ≤ 2 ^ 53) :
    (steps time).length ≤ timerBound (.whole time) := by
  obtain ⟨n, hn, hfloor⟩ := Number.div_le_floor (b := longestMs) (by decide) h
  have hcount : time ⌈/⌉ longestMs ≤ time / longestMs + 1 := by
    rw [ceilDiv_le_iff_le_mul (by decide : 0 < longestMs)]
    exact Nat.le_of_lt (Nat.lt_mul_div_succ time (by decide))
  have hbound : timerBound (.whole time) = n + 2 := by
    have hread : (Number.whole n).toNat? = some n := by
      rw [Number.toNat?, Number.whole, Number.toInt?_ofUnitsOfInt]
    rw [timerBound, longestStep_eq, hfloor, hread]
    rfl
  rw [length_steps, hbound]
  omega

/-! ## Any delay -/

/-- The longest delay, in milliseconds, of which less remains after each timer.  The greatest number
up to here is 2^84: from there on numbers stand further apart than two of the longest steps. -/
def reachMs : Nat := 2 ^ 84 + 2 ^ 32 - 1

/-- A delay comes to an end if its timers fire: it is no infinity and does not reach too far. -/
def HasEnd : Number → Prop
  | .finite units => units ≤ (reachMs * Number.unitsPerOne : Nat)
  | .infinite negative => negative = true
  | .notANumber => True

instance decidableHasEnd : (time : Number) → Decidable (HasEnd time)
  | .finite units => inferInstanceAs (Decidable (units ≤ _))
  | .infinite negative => inferInstanceAs (Decidable (negative = true))
  | .notANumber => inferInstanceAs (Decidable True)

/-- One step further than halfway from 2^84 to the next number. -/
theorem reachMs_mul_unitsPerOne :
    (2 ^ 84 + 2 ^ 31) * Number.unitsPerOne + longestMs * Number.unitsPerOne =
      reachMs * Number.unitsPerOne := by
  rw [← Nat.add_mul]
  rfl

/-- The first timer of a delay. -/
theorem min_longestStep (units : Int) :
    (Number.finite units).min longestStep =
      if (longestMs * Number.unitsPerOne : Nat) < units then longestStep else .finite units := by
  have hmin : (Number.finite units).min longestStep =
      if longestStep.lt (.finite units) then longestStep else .finite units := by
    rw [longestStep_eq]
    rfl
  have hlt : longestStep.lt (.finite units) = true ↔
      (longestMs * Number.unitsPerOne : Nat) < units := by
    rw [longestStep_eq, Number.whole, Number.lt, decide_eq_true_eq, Int.natCast_mul]
  rw [hmin]
  simp only [hlt]

/-- Of a delay of one step nothing remains. -/
theorem rest_of_le {units : Int} (h : units ≤ (longestMs * Number.unitsPerOne : Nat)) :
    rest (.finite units) = .whole 0 := by
  have hnothing : Number.finite units - .finite units = .ofNat 0 := by
    change Number.ofQuotient (units + -units) 1 = Number.ofQuotient (0 * _) 1
    rw [Int.add_right_neg, Int.zero_mul]
  rw [rest, min_longestStep, if_neg (Int.not_lt.2 h), hnothing,
    Number.ofNat_eq_whole (Nat.zero_le _)]

/-- Of a time without an end as much remains. -/
theorem rest_infinite : rest (.infinite false) = .infinite false := by
  rw [rest, longestStep_eq]
  rfl

/-- What remains of a longer delay is rounded. -/
theorem rest_of_lt {units : Nat} (hlong : longestMs * Number.unitsPerOne < units) :
    rest (.finite units) =
      if units - longestMs * Number.unitsPerOne < Number.overflowThreshold then
        .finite (Number.roundQuotient (units - longestMs * Number.unitsPerOne) 1 : Nat)
      else .infinite false := by
  have hdifference : Number.finite units - longestStep =
      .ofQuotient ((units - longestMs * Number.unitsPerOne : Nat) : Int) 1 := by
    rw [longestStep_eq]
    change Number.ofQuotient ((units : Int) + -(longestMs * Number.unitsPerOne)) 1 = _
    rw [Int.ofNat_sub (Nat.le_of_lt hlong), Int.natCast_mul]
    rfl
  rw [rest, min_longestStep, if_pos (Int.ofNat_lt.2 hlong), hdifference,
    Number.ofQuotient_natCast Nat.one_pos, Nat.one_mul]

/-- What remains of a longer delay is less than the delay, unless that reaches too far. -/
theorem exists_rest_of_le_reachMs {units : Nat} (hlong : longestMs * Number.unitsPerOne < units)
    (h : units ≤ reachMs * Number.unitsPerOne) :
    ∃ less : Nat, less < units ∧ less ≤ reachMs * Number.unitsPerOne ∧
      rest (.finite units) = .finite less := by
  have hpos := Number.unitsPerOne_pos
  have hsum := reachMs_mul_unitsPerOne
  have htop : Number.roundQuotient ((2 ^ 84 + 2 ^ 31) * Number.unitsPerOne) 1 =
      2 ^ 84 * Number.unitsPerOne := by decide +kernel
  have hround : Number.roundQuotient (units - longestMs * Number.unitsPerOne) 1 ≤
      2 ^ 84 * Number.unitsPerOne := by
    rw [← htop]
    exact Number.roundQuotient_mono (by omega)
  have hreach : 2 ^ 84 * Number.unitsPerOne ≤ reachMs * Number.unitsPerOne :=
    Nat.mul_le_mul_right _ (by decide)
  have hfinite : units - longestMs * Number.unitsPerOne < Number.overflowThreshold := by
    refine Number.lt_overflowThreshold (k := 85) (by decide) ?_
    have hpow : (2 ^ 84 + 2 ^ 31) * Number.unitsPerOne < 2 ^ 85 * Number.unitsPerOne :=
      Nat.mul_lt_mul_of_pos_right (by decide) hpos
    rw [Nat.pow_add, ← Number.unitsPerOne_eq]
    omega
  refine ⟨_, ?_, Nat.le_trans hround hreach, by rw [rest_of_lt hlong, if_pos hfinite]⟩
  rcases Nat.lt_or_ge (2 ^ 84 * Number.unitsPerOne) units with hfar | hnear
  · exact Nat.lt_of_le_of_lt hround hfar
  · -- The spacing here is below two steps, so that rounding cannot make up for a whole one.
    have hpow : units - longestMs * Number.unitsPerOne < 2 ^ (53 + (31 + Number.unitExponent)) := by
      have hstep : 0 < longestMs * Number.unitsPerOne := Nat.mul_pos (by decide) hpos
      rw [← Nat.add_assoc, Nat.pow_add, ← Number.unitsPerOne_eq]
      omega
    have hspacing := Nat.le_of_dvd (Nat.two_pow_pos _) (Number.spacing_dvd_two_pow hpow)
    rw [Nat.pow_add, ← Number.unitsPerOne_eq] at hspacing
    have hstep : 2 ^ 31 * Number.unitsPerOne < 2 * longestMs * Number.unitsPerOne :=
      Nat.mul_lt_mul_of_pos_right (by decide) hpos
    have hup := Number.two_mul_roundQuotient_le (units - longestMs * Number.unitsPerOne)
    rw [Nat.mul_assoc] at hstep
    omega

/-- A delay that comes to an end has a last timer, whole or not. -/
theorem exists_takesTimers {time : Number} (h : HasEnd time) : ∃ n, TakesTimers time n := by
  have hnothing : (0 : Number).lt (.whole 0) = false := by
    rw [zero_eq_whole, Bool.eq_false_iff, ne_eq, Number.lt_whole_iff]
    exact Nat.lt_irrefl 0
  match time, h with
  | .notANumber, _ => exact ⟨1, takesTimers_one (by rw [zero_eq_whole]; rfl)⟩
  | .infinite true, _ =>
      refine ⟨1, takesTimers_one ?_⟩
      rw [rest, longestStep_eq, zero_eq_whole]
      rfl
  | .finite (.negSucc n), _ =>
      refine ⟨1, takesTimers_one ?_⟩
      rw [rest_of_le (by omega), hnothing]
  | .finite (.ofNat units), h =>
      have hreach : units ≤ reachMs * Number.unitsPerOne := Int.ofNat_le.1 h
      clear h
      induction units using Nat.strong_induction_on with
      | _ units ih =>
          rcases Nat.lt_or_ge (longestMs * Number.unitsPerOne) units with hlong | hshort
          · obtain ⟨less, hless, hbound, hrest⟩ := exists_rest_of_le_reachMs hlong hreach
            cases hmore : (0 : Number).lt (rest (.finite units)) with
            | false => exact ⟨1, takesTimers_one hmore⟩
            | true =>
                obtain ⟨n, hn⟩ := ih less hless hbound
                exact ⟨n + 1, takesTimers_succ hmore (hrest ▸ hn)⟩
          · refine ⟨1, takesTimers_one ?_⟩
            exact (congrArg _ (rest_of_le (Int.ofNat_le.2 hshort))).trans hnothing

/-! ## Delays without an end -/

/-- What remains of a finite delay that reaches too far does so as well. -/
theorem exists_rest_of_reachMs_lt {units : Nat} (hfar : reachMs * Number.unitsPerOne < units) :
    rest (.finite units) = .infinite false ∨
      ∃ more : Nat, reachMs * Number.unitsPerOne < more ∧ rest (.finite units) = .finite more := by
  have hsum := reachMs_mul_unitsPerOne
  have hpast : Number.roundQuotient ((2 ^ 84 + 2 ^ 31) * Number.unitsPerOne + 1) 1 =
      (2 ^ 84 + 2 ^ 32) * Number.unitsPerOne := by decide +kernel
  -- More than half of a spacing is left, so that rounding makes up for the step.
  have hround : (2 ^ 84 + 2 ^ 32) * Number.unitsPerOne ≤
      Number.roundQuotient (units - longestMs * Number.unitsPerOne) 1 := by
    rw [← hpast]
    exact Number.roundQuotient_mono (by omega)
  have hreach : reachMs * Number.unitsPerOne < (2 ^ 84 + 2 ^ 32) * Number.unitsPerOne :=
    Nat.mul_lt_mul_of_pos_right (by decide) Number.unitsPerOne_pos
  rw [rest_of_lt (by omega)]
  split
  · exact .inr ⟨_, Nat.lt_of_lt_of_le hreach hround, rfl⟩
  · exact .inl rfl

/-- Of a delay that reaches too far something remains that reaches too far as well. -/
theorem not_hasEnd_rest {time : Number} (h : ¬ HasEnd time) :
    (0 : Number).lt (rest time) = true ∧ ¬ HasEnd (rest time) := by
  have hinfinite : (0 : Number).lt (.infinite false) = true ∧ ¬ HasEnd (.infinite false) := by
    rw [zero_eq_whole]
    exact ⟨rfl, Bool.false_ne_true⟩
  cases time with
  | notANumber => exact absurd trivial h
  | infinite negative =>
      cases negative with
      | true => exact absurd rfl h
      | false => rwa [rest_infinite]
  | finite amount =>
      cases amount with
      | negSucc n => exact absurd (show Int.negSucc n ≤ _ by omega) h
      | ofNat units =>
          have hfar : reachMs * Number.unitsPerOne < units := by
            rw [← Nat.not_le]
            exact fun hle => h (Int.ofNat_le.2 hle)
          rcases exists_rest_of_reachMs_lt hfar with hrest | ⟨more, hmore, hrest⟩
          · rwa [Int.ofNat_eq_natCast, hrest]
          · rw [Int.ofNat_eq_natCast, hrest, zero_eq_whole, Number.whole, Number.lt,
              decide_eq_true_eq]
            refine ⟨by omega, fun hend => ?_⟩
            have hle := Int.ofNat_le.1 hend
            omega

/-- However often the timers of a delay that reaches too far have fired, another one runs. -/
theorem exists_fire_eq_arm {time : Number} (h : ¬ HasEnd time) (k : Nat) :
    ∃ more, ¬ HasEnd more ∧ fire k (arm time) = arm more := by
  induction k generalizing time with
  | zero => exact ⟨time, h, rfl⟩
  | succ k ih =>
      obtain ⟨hmore, hrest⟩ := not_hasEnd_rest h
      rw [fire, next_fired_arm, if_pos hmore]
      exact ih hrest

/-- A delay has a last timer exactly if it comes to an end. -/
theorem exists_takesTimers_iff {time : Number} : (∃ n, TakesTimers time n) ↔ HasEnd time := by
  constructor
  · rintro ⟨n, hn, -⟩
    by_contra hendless
    obtain ⟨more, -, hmore⟩ := exists_fire_eq_arm hendless n
    rw [hmore] at hn
    cases hn
  · exact exists_takesTimers

end Delay

end FaultInjection
