import FaultInjection.Admin
import FaultInjection.Proofs.Number.Integers

/-!
# Administration - What a page shows

A page is meant to show the items from an offset on, as many as the limit says.  It does so where
the offset and the end of the page are not negative; a negative one is a place counted from the end
of the list, which can let in items that were not asked for or keep out some that were.

Main definitions:

- `Page.window`, the items at the places that an offset and a limit ask for.
- `Page.Fits`, the offsets and limits whose page shows these items.

Main results:

- `Page.page_eq`: the bounds of a page are those of the integers that it is asked for by, as if
  these were not rounded.
- `Page.page_eq_window` and `Page.fits_of_length_page_eq`: a page shows what is asked for exactly if
  offset and limit fit.
- `Page.length_window_le`: what is asked for is never more than the limit.
- `Page.flatMap_window`: pages one behind the other show a list from its start.
-/

namespace FaultInjection

namespace Page

variable {α : Type}

/-! ## Windows -/

/-- The items at the places from an offset up to the sum of offset and limit. -/
def window (items : List α) (offset limit : Int) : List α :=
  (items.zipIdx.filter fun pair => offset ≤ pair.2 ∧ pair.2 < offset + limit).map Prod.fst

/-- The items at places between two bounds are a part of the list, wherever the count of places
begins. -/
theorem map_filter_zipIdx (items : List α) (start : Nat) (lower upper : Int) :
    ((items.zipIdx start).filter fun pair => lower ≤ pair.2 ∧ pair.2 < upper).map Prod.fst =
      (items.take (upper - start).toNat).drop (lower - start).toNat := by
  induction items generalizing start with
  | nil => simp
  | cons item rest ih =>
      have hnext (bound : Int) : (bound - (start + 1 : Nat)).toNat = (bound - start).toNat - 1 := by
        omega
      rw [List.zipIdx_cons, List.filter_cons]
      split
      · rename_i hin
        obtain ⟨hlower, hupper⟩ : lower ≤ start ∧ start < upper := of_decide_eq_true hin
        obtain ⟨last, hlast⟩ : ∃ last, (upper - start).toNat = last + 1 :=
          Nat.exists_eq_add_one_of_ne_zero (by omega)
        have hfirst : (lower - start).toNat = 0 := by omega
        rw [List.map_cons, ih, hnext, hnext, hlast, hfirst, List.take_succ_cons]
        rfl
      · rename_i hout
        have hplace : ¬ (lower ≤ start ∧ start < upper) := mt decide_eq_true hout
        rw [ih, hnext, hnext]
        cases hlast : (upper - start).toNat with
        | zero => simp
        | succ last =>
            obtain ⟨first, hfirst⟩ : ∃ first, (lower - start).toNat = first + 1 :=
              Nat.exists_eq_add_one_of_ne_zero (by omega)
            rw [hfirst]
            rfl

theorem window_eq (items : List α) (offset limit : Int) :
    window items offset limit = (items.take (offset + limit).toNat).drop offset.toNat := by
  rw [window, map_filter_zipIdx, Int.natCast_zero, Int.sub_zero, Int.sub_zero]

/-- What is asked for is never more than the limit. -/
theorem length_window_le (items : List α) (offset limit : Int) :
    (window items offset limit).length ≤ limit.toNat := by
  rw [window_eq, List.length_drop, List.length_take]
  omega

/-- Pages of a limit that stand one behind the other show a list from its start. -/
theorem flatMap_window (items : List α) (limit count : Nat) :
    ((List.range count).flatMap fun k => window items (k * limit : Nat) limit) =
      items.take (count * limit) := by
  induction count with
  | zero => simp
  | succ count ih =>
      rw [List.range_succ, List.flatMap_append, ih, List.flatMap_singleton, window_eq]
      have hend : ((count * limit : Nat) + limit : Int).toNat = (count + 1) * limit := by
        rw [← Int.natCast_add, Int.toNat_natCast, Nat.succ_mul]
      have htake : items.take (count * limit) =
          (items.take ((count + 1) * limit)).take (count * limit) := by
        rw [List.take_take, Nat.min_eq_left (Nat.mul_le_mul_right limit (Nat.le_succ count))]
      rw [hend, Int.toNat_natCast, htake, List.take_append_drop]

/-! ## Places -/

/-- A place that is the whole length in front of the start is the start. -/
theorem placeOfInt_of_le_neg {length : Nat} {i : Int} (h : i ≤ -length) :
    placeOfInt length i = 0 := by
  unfold placeOfInt
  split <;> omega

/-- A place behind the end is the end. -/
theorem placeOfInt_of_length_le {length : Nat} {i : Int} (h : length ≤ i) :
    placeOfInt length i = length := by
  unfold placeOfInt
  split <;> omega

/-- A place that is the whole length in front of another is not behind it, however both are
counted. -/
theorem placeOfInt_le_of_le_sub {length : Nat} {i j : Int} (h : i ≤ j - length) :
    placeOfInt length i ≤ placeOfInt length j := by
  unfold placeOfInt
  split
  · split <;> omega
  · split <;> omega

theorem place_integer (length : Nat) (i : Int) :
    place length (.integer i) = placeOfInt length i := by
  rw [Number.integer]
  change placeOfInt length ((Number.toInt? _).getD 0) = _
  rw [Number.toInt?_ofUnitsOfInt, Option.getD_some]

section Places

variable {length : Nat}

/-- A place beyond all others is the end. -/
theorem place_infinite_false (hlength : length ≤ 2 ^ 53) {i : Int} (hi : 2 ^ 53 ≤ i) :
    place length (.infinite false) = placeOfInt length i := by
  change length = _
  unfold placeOfInt
  split <;> omega

/-- A place before all others is the start. -/
theorem place_infinite_true (hlength : length ≤ 2 ^ 53) {i : Int} (hi : i ≤ -2 ^ 53) :
    place length (.infinite true) = placeOfInt length i := by
  change 0 = _
  unfold placeOfInt
  split <;> omega

/-- In a list of up to 2^53 items it does not matter that an integer is rounded. -/
theorem place_ofInt (hlength : length ≤ 2 ^ 53) (i : Int) :
    place length (.ofInt i) = placeOfInt length i := by
  rcases Number.ofInt_cases i with ⟨r, ⟨hexact, hhigh, hlow⟩, hi⟩ | ⟨hhigh, hi⟩ | ⟨hlow, hi⟩
  · rw [hi, place_integer]
    unfold placeOfInt
    split <;> split <;> omega
  · rw [hi, place_infinite_false hlength (Int.le_of_lt hhigh)]
  · rw [hi, place_infinite_true hlength (Int.le_of_lt hlow)]

/-- The place of a sum with an integer is that of a sum with the integer that it is rounded to. -/
theorem exists_place_add (hlength : length ≤ 2 ^ 53) (i j : Int) :
    ∃ s, Number.IsRounded j s ∧
      place length (.integer i + .ofInt j) = placeOfInt length (i + s) := by
  rcases Number.ofInt_cases j with ⟨s, hs, hj⟩ | ⟨hhigh, hj⟩ | ⟨hlow, hj⟩
  · refine ⟨s, hs, ?_⟩
    rw [hj, Number.integer_add_integer, place_ofInt hlength]
  · refine ⟨2 ^ 53 + i.natAbs, .of_high hhigh (by omega), ?_⟩
    rw [hj]
    exact place_infinite_false hlength (by omega)
  · refine ⟨-2 ^ 53 - i.natAbs, .of_low hlow (by omega), ?_⟩
    rw [hj]
    exact place_infinite_true hlength (by omega)

/-- A sum that is far below zero is a place at the start. -/
theorem place_add_of_low (hlength : length ≤ 2 ^ 53) {i j : Int} (hi : i < -2 ^ 53) (hj : j ≤ 0) :
    place length (.ofInt i + .ofInt j) = 0 := by
  rcases Number.ofInt_cases i with ⟨r, hr, hir⟩ | ⟨hhigh, -⟩ | ⟨-, hir⟩
  · obtain ⟨s, hs, hplace⟩ := exists_place_add hlength r j
    have hsum : r + s ≤ -2 ^ 53 := Int.add_le_add (hr.low (Int.le_of_lt hi)) (hs.nonpos hj)
    rw [hir, hplace, placeOfInt_of_le_neg (by omega)]
  · omega
  · -- The negative infinity and what is not positive add up to the negative infinity.
    rcases Number.ofInt_cases j with ⟨s, -, hjs⟩ | ⟨hhigh, -⟩ | ⟨-, hjs⟩
    · rw [hir, hjs]
      rfl
    · omega
    · rw [hir, hjs]
      rfl

end Places

/-! ## Pages -/

/-- Whether the sum of an offset and a limit is not rounded, or does not matter. -/
def AddsExactly (offset limit : Int) : Prop :=
  offset < 0 → 0 < limit → -2 ^ 53 ≤ offset ∧ limit ≤ 2 ^ 53

instance (offset limit : Int) : Decidable (AddsExactly offset limit) :=
  inferInstanceAs (Decidable (_ → _ → _))

/-- Whether the page of an offset and a limit shows what they ask for. -/
def Fits (length : Nat) (offset limit : Int) : Prop :=
  -- No place is counted from the end.
  0 ≤ offset ∧ 0 ≤ offset + limit ∨
  -- Nothing is asked for, and the page ends where it begins or in front of it.
  offset < 0 ∧ limit ≤ 0 ∨ offset + limit = 0 ∨ limit ≤ -length ∨
    offset < 0 ∧ offset + limit ≤ -length ∨
  -- The offset is so far from the end that the page begins with the list.
  0 < offset + limit ∧ offset ≤ -length

instance (length : Nat) (offset limit : Int) : Decidable (Fits length offset limit) :=
  inferInstanceAs (Decidable (_ ∨ _))

/-- Parts of a list are equal if they have the same bounds, and also if both are empty. -/
theorem drop_take_congr {items : List α} {first last first' last' : Nat}
    (h : first = first' ∧ min last items.length = min last' items.length ∨
      min last items.length ≤ first ∧ min last' items.length ≤ first') :
    (items.take last).drop first = (items.take last').drop first' := by
  rcases h with ⟨rfl, hlast⟩ | ⟨hempty, hempty'⟩
  · rw [List.take_eq_take_iff.2 hlast]
  · rw [List.drop_eq_nil_of_le (by rwa [List.length_take]),
      List.drop_eq_nil_of_le (by rwa [List.length_take])]

section Fitting

variable {items : List α} {offset limit : Int}

/-- A page lies between the places of its offset and of the exact sum: where the sum is rounded, it
is beyond the list or nothing lies between offset and sum. -/
theorem page_eq (hlength : items.length ≤ 2 ^ 53) (hadds : AddsExactly offset limit) :
    page items (.ofInt offset) (.ofInt limit) =
      (items.take (placeOfInt items.length (offset + limit))).drop
        (placeOfInt items.length offset) := by
  rw [page, place_ofInt hlength]
  rcases Int.lt_or_le (2 ^ 53) offset with hfar | hnear
  · -- The page begins at the end of the list.
    have hfirst : placeOfInt items.length offset = items.length :=
      placeOfInt_of_length_le (by omega)
    exact drop_take_congr (.inr ⟨by omega, by omega⟩)
  rcases Int.lt_or_le offset (-2 ^ 53) with hfar | hnear'
  · -- The page begins with the list, and ends there too.
    have hlimit : limit ≤ 0 := by
      rcases Int.lt_or_le 0 limit with hpos | hnonpos
      · exact absurd (hadds (by omega) hpos).1 (by omega)
      · exact hnonpos
    rw [place_add_of_low hlength hfar hlimit, placeOfInt_of_le_neg (i := offset + limit) (by omega)]
  obtain ⟨s, hs, hplace⟩ := exists_place_add hlength offset limit
  rw [Number.ofInt_eq_integer hnear' hnear, hplace]
  rcases Int.lt_or_le (2 ^ 53) limit with hfar | hshort
  · -- The page ends with the list.
    have hoffset : 0 ≤ offset := by
      rcases Int.lt_or_le offset 0 with hneg | hnonneg
      · exact absurd (hadds hneg (by omega)).2 (by omega)
      · exact hnonneg
    have hs' : 2 ^ 53 ≤ s := hs.high (by omega)
    rw [placeOfInt_of_length_le (i := offset + s) (by omega),
      placeOfInt_of_length_le (i := offset + limit) (by omega)]
  rcases Int.lt_or_le limit (-2 ^ 53) with hfar | hshort'
  · -- The page ends in front of its begin.
    have hs' : s ≤ -2 ^ 53 := hs.low (by omega)
    have hend : placeOfInt items.length (offset + s) ≤ placeOfInt items.length offset :=
      placeOfInt_le_of_le_sub (by omega)
    have hend' : placeOfInt items.length (offset + limit) ≤ placeOfInt items.length offset :=
      placeOfInt_le_of_le_sub (by omega)
    exact drop_take_congr (.inr ⟨by omega, by omega⟩)
  · rw [hs.exact hshort' hshort]

/-- A page whose offset and limit fit shows what they ask for. -/
theorem page_eq_window (hlength : items.length ≤ 2 ^ 53) (hadds : AddsExactly offset limit)
    (hfits : Fits items.length offset limit) :
    page items (.ofInt offset) (.ofInt limit) = window items offset limit := by
  rw [page_eq hlength hadds, window_eq]
  refine drop_take_congr ?_
  unfold Fits at hfits
  unfold placeOfInt
  split
  · split
    · omega
    · omega
  · split
    · omega
    · omega

/-- A page with as many items as asked for has an offset and a limit that fit. -/
theorem fits_of_length_page_eq (hlength : items.length ≤ 2 ^ 53) (hadds : AddsExactly offset limit)
    (hcount : (page items (.ofInt offset) (.ofInt limit)).length =
      (window items offset limit).length) :
    Fits items.length offset limit := by
  rw [page_eq hlength hadds, window_eq] at hcount
  simp only [List.length_drop, List.length_take, placeOfInt] at hcount
  unfold Fits
  split at hcount
  · split at hcount
    · omega
    · omega
  · split at hcount
    · omega
    · omega

end Fitting

end Page

end FaultInjection
