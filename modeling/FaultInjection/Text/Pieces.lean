/-!
# Text - Cutting at a mark

Targets and queries are cut at marks: once, at the first occurrence, or at every
occurrence.  Both ways keep all characters but the marks.

Main definitions:

- `cutAtFirst`, what stands before the first mark and, if there is one, after it.
- `piecesAt`, the pieces between marks.
- `joinWith`, pieces with a mark between them.

Main results:

- `cutAtFirst_eq_none_iff` and `cutAtFirst_eq_some_iff`: the parts of a cut.
- `piecesAt_append_mark`: a text with a mark in it is cut on both sides of the mark.
- `joinWith_piecesAt`: joining the pieces gives the text back.
- `piecesAt_joinWith`: cutting what was joined gives the pieces back.
-/

namespace FaultInjection

variable {α : Type} [DecidableEq α]

/-- What stands before the first mark and, if there is a mark, what stands after it. -/
def cutAtFirst (mark : α) : List α → List α × Option (List α)
  | [] => ([], none)
  | c :: rest =>
    if c = mark then ([], some rest)
    else
      let (before, after) := cutAtFirst mark rest
      (c :: before, after)

/-- The pieces between marks, at least one. -/
def piecesAt (mark : α) : List α → List (List α)
  | [] => [[]]
  | c :: rest =>
    if c = mark then [] :: piecesAt mark rest
    else
      match piecesAt mark rest with
      | [] => [[c]]
      | piece :: pieces => (c :: piece) :: pieces

/-- Pieces with a mark between them. -/
def joinWith (mark : α) : List (List α) → List α
  | [] => []
  | [piece] => piece
  | piece :: pieces => piece ++ mark :: joinWith mark pieces

/-- The part before a cut holds no mark. -/
theorem not_mem_cutAtFirst (mark : α) (cs : List α) : mark ∉ (cutAtFirst mark cs).1 := by
  induction cs with
  | nil => simp [cutAtFirst]
  | cons c rest ih =>
      by_cases h : c = mark
      · simp [cutAtFirst, h]
      · simp [cutAtFirst, h, Ne.symm h, ih]

/-- There is nothing to cut exactly when there is no mark; then the first part is all. -/
theorem cutAtFirst_eq_none_iff (mark : α) (cs before : List α) :
    cutAtFirst mark cs = (before, none) ↔ before = cs ∧ mark ∉ cs := by
  induction cs generalizing before with
  | nil => simp [cutAtFirst, eq_comm]
  | cons c rest ih =>
      by_cases h : c = mark
      · simp [cutAtFirst, h]
      · rcases hc : cutAtFirst mark rest with ⟨b, a⟩
        cases a with
        | none =>
            have := (ih b).1 hc
            simp [cutAtFirst, h, hc, this.1, this.2, Ne.symm h, eq_comm]
        | some a =>
            have hmem : mark ∈ rest := by
              by_cases hm : mark ∈ rest
              · exact hm
              · have := (ih rest).2 ⟨rfl, hm⟩
                rw [hc] at this
                simp at this
            simp [cutAtFirst, h, hc, hmem]

/-- A cut stands at the first mark. -/
theorem cutAtFirst_eq_some_iff (mark : α) (cs before after : List α) :
    cutAtFirst mark cs = (before, some after) ↔ cs = before ++ mark :: after ∧ mark ∉ before := by
  induction cs generalizing before with
  | nil => simp [cutAtFirst]
  | cons c rest ih =>
      by_cases h : c = mark
      · subst h
        cases before with
        | nil => simp [cutAtFirst]
        | cons b before => simp +contextual [cutAtFirst, eq_comm]
      · cases before with
        | nil => simp [cutAtFirst, h]
        | cons b before =>
            have hb := ih before
            rcases hc : cutAtFirst mark rest with ⟨b', a'⟩
            rw [hc] at hb
            simp only [Prod.mk.injEq] at hb
            simp only [cutAtFirst, h, hc, if_false, Prod.mk.injEq, List.cons.injEq,
              List.cons_append, List.mem_cons, not_or]
            constructor
            · rintro ⟨⟨rfl, hb'⟩, ha⟩
              have := hb.1 ⟨hb', ha⟩
              exact ⟨⟨rfl, this.1⟩, Ne.symm h, this.2⟩
            · rintro ⟨⟨rfl, hr⟩, -, hm⟩
              have := hb.2 ⟨hr, hm⟩
              exact ⟨⟨rfl, this.1⟩, this.2⟩

/-- There is always a piece. -/
theorem piecesAt_ne_nil (mark : α) (cs : List α) : piecesAt mark cs ≠ [] := by
  cases cs with
  | nil => simp [piecesAt]
  | cons c rest =>
      simp only [piecesAt]
      split
      · simp
      · split <;> simp

/-- Joining the pieces of a text gives it back. -/
theorem joinWith_piecesAt (mark : α) (cs : List α) : joinWith mark (piecesAt mark cs) = cs := by
  induction cs with
  | nil => rfl
  | cons c rest ih =>
      obtain ⟨piece, pieces, hpieces⟩ := List.exists_cons_of_ne_nil (piecesAt_ne_nil mark rest)
      rw [hpieces] at ih
      by_cases h : c = mark
      · rw [piecesAt, if_pos h, hpieces, joinWith, List.nil_append, ih, h]
        exact List.cons_ne_nil _ _
      · -- The character joins the first piece, which a mark follows unless it is the last one.
        rw [piecesAt, if_neg h, hpieces]
        cases pieces with
        | nil => exact congrArg (c :: ·) ih
        | cons next pieces => exact congrArg (c :: ·) ih

/-- A text without a mark is one piece. -/
theorem piecesAt_of_not_mem {mark : α} {cs : List α} (h : mark ∉ cs) : piecesAt mark cs = [cs] := by
  induction cs with
  | nil => rfl
  | cons c rest ih =>
      simp only [List.mem_cons, not_or] at h
      rw [piecesAt, if_neg (Ne.symm h.1), ih h.2]

/-- A mark keeps the pieces before it apart from those after it. -/
theorem piecesAt_append_mark (mark : α) (before after : List α) :
    piecesAt mark (before ++ mark :: after) = piecesAt mark before ++ piecesAt mark after := by
  induction before with
  | nil => simp [piecesAt]
  | cons c rest ih =>
      by_cases h : c = mark
      · simp [piecesAt, h, ih]
      · cases hp : piecesAt mark rest with
        | nil => exact absurd hp (piecesAt_ne_nil mark rest)
        | cons p ps => simp [piecesAt, h, ih, hp]

/-- A mark behind a text without one cuts it off. -/
theorem piecesAt_append_cons {mark : α} {before : List α} (h : mark ∉ before) (after : List α) :
    piecesAt mark (before ++ mark :: after) = before :: piecesAt mark after := by
  rw [piecesAt_append_mark, piecesAt_of_not_mem h, List.singleton_append]

/-- Cutting what was joined gives the pieces back, unless a mark stands in one of them. -/
theorem piecesAt_joinWith {mark : α} {pieces : List (List α)} (hne : pieces ≠ [])
    (hmark : ∀ piece ∈ pieces, mark ∉ piece) : piecesAt mark (joinWith mark pieces) = pieces := by
  fun_induction joinWith mark pieces with
  | case1 => exact absurd rfl hne
  | case2 piece => exact piecesAt_of_not_mem (hmark piece (List.mem_singleton_self piece))
  | case3 piece pieces hpieces ih =>
      rw [piecesAt_append_cons (hmark piece List.mem_cons_self),
        ih (fun h => hpieces h) fun other hother => hmark other (List.mem_cons_of_mem _ hother)]

/-- What stands in a piece stands in the text. -/
theorem mem_of_mem_piecesAt {mark c : α} {cs piece : List α} (hpiece : piece ∈ piecesAt mark cs)
    (hc : c ∈ piece) : c ∈ cs := by
  induction cs generalizing piece with
  | nil =>
      rw [piecesAt, List.mem_singleton] at hpiece
      exact hpiece ▸ hc
  | cons d rest ih =>
      rw [piecesAt] at hpiece
      split at hpiece
      · rcases List.mem_cons.1 hpiece with rfl | hrest
        · cases hc
        · exact List.mem_cons_of_mem _ (ih hrest hc)
      · split at hpiece
        · rename_i hnil
          exact absurd hnil (piecesAt_ne_nil mark rest)
        · rename_i first pieces hpieces
          rcases List.mem_cons.1 hpiece with rfl | hrest
          · rcases List.mem_cons.1 hc with rfl | hfirst
            · exact List.mem_cons_self
            · exact List.mem_cons_of_mem _ (ih (hpieces ▸ List.mem_cons_self) hfirst)
          · exact List.mem_cons_of_mem _ (ih (hpieces ▸ List.mem_cons_of_mem _ hrest) hc)

end FaultInjection
