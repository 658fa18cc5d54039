import FaultInjection.Exchange
import FaultInjection.Proofs.Target.WellFormed
import Mathlib.Data.List.TakeWhile

/-!
# Request targets - What a target is asked for with

A target that was read is asked for with a part of the text that it was read from: with
all of it where it is a path, with what stands behind the authority where it is
absolute, and with the root where there is no such part.  A query that has no path is
asked for with a slash before it.

Main definitions:

- `Target.IsAbsolute`, for a text that is a scheme and an authority with a tail.
- `Target.AsksFor`, what a text is asked for with.
- `Target.CutInto`, the parts of a text with a scheme.

Main results:

- `Target.AsksFor.unique`: a text is asked for in one way only.
- `Target.asksFor_of_parse`: a target that is read asks for what its text says.
-/

namespace FaultInjection

/-- A path and query that is read has the text that it is read from. -/
theorem PathAndQuery.text_of_parse {raw : String} {p : PathAndQuery} (h : parse raw = .ok p) :
    p.text = raw := by
  obtain ⟨-, -, rfl⟩ := parse_eq_ok_iff.1 h
  exact String.toList_injective (text_ofChars raw.toList)

namespace Target

/-! ## Forms of texts -/

/-- A text is a scheme, two slashes and an authority, and behind them a tail, which is nothing or
begins like a path or a query. -/
structure IsAbsolute (raw : String) (tail : List Char) : Prop where
  parts : ∃ first scheme authority,
    raw.toList = first :: scheme ++ ':' :: '/' :: '/' :: (authority ++ tail) ∧
    first.isAlpha = true ∧ (∀ c ∈ scheme, isSchemeChar c = true) ∧
    ∀ c ∈ authority, c ≠ '/' ∧ c ≠ '?' ∧ c ≠ '#'
  tail : ∀ c ∈ tail.head?, c = '/' ∨ c = '?'

/-- A tail with a slash before it, unless it has one. -/
def rooted : List Char → List Char
  | '/' :: rest => '/' :: rest
  | tail => '/' :: tail

/-- What a target is asked for with, by the text that it is read from. -/
inductive AsksFor (raw : String) : String → Prop
  /-- A path and the asterisk are asked for as they stand. -/
  | path (hstart : raw = "*" ∨ ∃ rest, raw.toList = '/' :: rest) : AsksFor raw raw
  /-- What is behind an authority is asked for with a slash before it. -/
  | absolute {tail : List Char} (habsolute : IsAbsolute raw tail) :
      AsksFor raw (String.ofList (rooted tail))
  /-- The root is asked for where there is an authority alone. -/
  | authority (hstar : raw ≠ "*") (hauthority : ∀ c ∈ raw.toList, c ≠ '/' ∧ c ≠ '?' ∧ c ≠ '#') :
      AsksFor raw "/"

/-- What may begin a scheme may stand in one. -/
theorem isSchemeChar_of_isAlpha {c : Char} (h : c.isAlpha = true) : isSchemeChar c = true := by
  simp [isSchemeChar, Char.isAlphanum, h]

/-- The tail of an absolute text is what is left without scheme and authority. -/
theorem IsAbsolute.tail_eq {raw : String} {tail : List Char} (h : IsAbsolute raw tail) :
    tail = ((raw.toList.dropWhile isSchemeChar).drop 3).dropWhile (!endsAuthority ·) := by
  obtain ⟨⟨first, scheme, authority, hraw, halpha, hscheme, hauthority⟩, htail⟩ := h
  have hchars : ∀ c ∈ first :: scheme, isSchemeChar c = true :=
    List.forall_mem_cons.2 ⟨isSchemeChar_of_isAlpha halpha, hscheme⟩
  have hcolon : isSchemeChar ':' = false := by decide
  have hothers : ∀ c ∈ authority, (!endsAuthority c) = true := by
    simpa [endsAuthority, and_assoc] using hauthority
  rw [hraw, List.dropWhile_append_of_pos hchars, List.dropWhile_cons_of_neg (by simp [hcolon]),
    List.drop_succ_cons, List.drop_succ_cons, List.drop_succ_cons, List.drop_zero,
    List.dropWhile_append_of_pos hothers]
  cases tail with
  | nil => rfl
  | cons c rest =>
      have hends : endsAuthority c = true := by
        rcases htail c rfl with rfl | rfl <;> decide
      rw [List.dropWhile_cons_of_neg (by simp [hends])]

/-- An absolute text begins with a letter, so it is no path. -/
theorem IsAbsolute.not_path {raw : String} {tail : List Char} (h : IsAbsolute raw tail) :
    ¬ (raw = "*" ∨ ∃ rest, raw.toList = '/' :: rest) := by
  obtain ⟨⟨first, scheme, authority, hraw, halpha, -⟩, -⟩ := h
  rintro (rfl | ⟨rest, hslash⟩)
  · simp at hraw
  · rw [hslash] at hraw
    obtain rfl : '/' = first := (List.cons.inj hraw).1
    exact absurd halpha (by decide)

/-- An absolute text holds a slash. -/
theorem IsAbsolute.slash_mem {raw : String} {tail : List Char} (h : IsAbsolute raw tail) :
    '/' ∈ raw.toList := by
  obtain ⟨⟨first, scheme, authority, hraw, -⟩, -⟩ := h
  simp [hraw]

/-- A path that is not the asterisk holds a slash. -/
theorem slash_mem_of_path {raw : String} (hstar : raw ≠ "*")
    (hstart : raw = "*" ∨ ∃ rest, raw.toList = '/' :: rest) : '/' ∈ raw.toList := by
  obtain ⟨rest, hraw⟩ := hstart.resolve_left hstar
  simp [hraw]

/-- A text is asked for in one way only. -/
theorem AsksFor.unique {raw first second : String} (h : AsksFor raw first)
    (h' : AsksFor raw second) : first = second := by
  cases h with
  | path hstart =>
      cases h' with
      | path _ => rfl
      | absolute habsolute => exact absurd hstart habsolute.not_path
      | authority hstar hauthority =>
          exact absurd rfl (hauthority '/' (slash_mem_of_path hstar hstart)).1
  | absolute habsolute =>
      cases h' with
      | path hstart => exact absurd hstart habsolute.not_path
      | absolute habsolute' => rw [habsolute.tail_eq, habsolute'.tail_eq]
      | authority hstar hauthority => exact absurd rfl (hauthority '/' habsolute.slash_mem).1
  | authority hstar hauthority =>
      cases h' with
      | path hstart => exact absurd rfl (hauthority '/' (slash_mem_of_path hstar hstart)).1
      | absolute habsolute => exact absurd rfl (hauthority '/' habsolute.slash_mem).1
      | authority _ _ => rfl

/-! ## Targets that are read -/

/-- What is behind the scheme is cut off at a colon and two slashes. -/
theorem eq_of_scheme? {cs scheme rest : List Char} (h : scheme? cs = some (scheme, rest)) :
    (∃ first others, scheme = first :: others ∧ first.isAlpha = true) ∧
      (∀ c ∈ scheme, isSchemeChar c = true) ∧ cs = scheme ++ ':' :: '/' :: '/' :: rest := by
  unfold scheme? at h
  split at h
  · cases h
  · rename_i first others
    split at h
    · rename_i halpha
      split at h
      · rename_i tail hdrop
        obtain ⟨hscheme, rfl⟩ := Prod.mk.inj (Option.some.inj h)
        refine ⟨?_, ?_, ?_⟩
        · have hfirst := isSchemeChar_of_isAlpha halpha
          exact ⟨first, others.takeWhile isSchemeChar, by simp [← hscheme, hfirst], halpha⟩
        · intro c hc
          rw [← hscheme] at hc
          exact List.mem_takeWhile_imp hc
        · rw [← hscheme, ← hdrop, List.takeWhile_append_dropWhile]
      · cases h
    · cases h

/-- A text is cut into a scheme, an authority and a tail that begins with what ends an authority. -/
structure CutInto (cs scheme authority tail : List Char) : Prop where
  parts : cs = scheme ++ ':' :: '/' :: '/' :: (authority ++ tail)
  scheme : ∃ first others, scheme = first :: others ∧ first.isAlpha = true ∧
    ∀ c ∈ others, isSchemeChar c = true
  authority : ∀ c ∈ authority, c ≠ '/' ∧ c ≠ '?' ∧ c ≠ '#'
  tail : ∀ c ∈ tail.head?, endsAuthority c = true

/-- The parts of an absolute text are those that it is cut into. -/
theorem cutInto_of_absolute? {cs scheme authority tail : List Char}
    (h : absolute? cs = some (scheme, authority, tail)) : CutInto cs scheme authority tail := by
  unfold absolute? at h
  split at h
  · cases h
  · rename_i found rest hscheme
    obtain ⟨⟨first, others, rfl, halpha⟩, hchars, hcs⟩ := eq_of_scheme? hscheme
    dsimp only at h
    split at h
    · cases h
    · simp only [Option.some.injEq, Prod.mk.injEq] at h
      obtain ⟨rfl, rfl, rfl⟩ := h
      constructor
      · rw [hcs, List.takeWhile_append_dropWhile]
      · exact ⟨first, others, rfl, halpha, fun c hc => hchars c (List.mem_cons_of_mem _ hc)⟩
      · intro c hc
        have hends := List.mem_takeWhile_imp hc
        simpa [endsAuthority, and_assoc] using hends
      · intro c hc
        rw [← List.find?_eq_head?_dropWhile_not] at hc
        exact List.find?_some hc

/-- A text that is cut into parts is absolute where its tail begins like a path or a query. -/
theorem CutInto.isAbsolute {raw : String} {scheme authority tail : List Char}
    (h : CutInto raw.toList scheme authority tail) (htail : ∀ c ∈ tail.head?, c = '/' ∨ c = '?') :
    IsAbsolute raw tail := by
  obtain ⟨hparts, ⟨first, others, rfl, halpha, hothers⟩, hauthority, -⟩ := h
  exact ⟨⟨first, others, authority, hparts, halpha, hothers, hauthority⟩, htail⟩

/-- A target that is read asks for what its text says. -/
theorem asksFor_of_parse {raw : String} {t : Target} (h : parse raw = .ok t) :
    AsksFor raw t.forwardedPath := by
  cases readAs_of_parse h with
  | path p hparse =>
      have hstart := PathAndQuery.startsPath_iff.1 (PathAndQuery.parse_eq_ok_iff.1 hparse).1
      rw [forwardedPath, Option.getD_some, PathAndQuery.text_of_parse hparse]
      refine .path (hstart.imp_left fun hstar => ?_)
      exact String.toList_injective hstar
  | absolute scheme authority habsolute hauthority =>
      exact .absolute ((cutInto_of_absolute? habsolute).isAbsolute (by simp))
  | absolutePath scheme authority tail p habsolute hauthority htail hparse =>
      have hcut := cutInto_of_absolute? habsolute
      have hstart := (PathAndQuery.parse_eq_ok_iff.1 hparse).1
      rw [forwardedPath, Option.getD_some, PathAndQuery.text_of_parse hparse]
      cases tail with
      | nil => exact absurd rfl htail
      | cons c rest =>
          have hends := hcut.tail c rfl
          simp only [endsAuthority, Bool.or_eq_true, beq_iff_eq] at hends
          rcases hends with (rfl | rfl) | rfl
          · exact .absolute (hcut.isAbsolute (by simp))
          · exact .absolute (hcut.isAbsolute (by simp))
          · -- Nothing that begins with a number sign is a path.
            simp [tailText, PathAndQuery.startsPath] at hstart
  | authority hstart hauthority =>
      refine .authority ?_ fun c hc => ?_
      · rintro rfl
        cases hstart
      · simp only [isAuthority, Bool.and_eq_true, List.all_eq_true] at hauthority
        exact (isAuthorityChar_iff.1 (hauthority.2 c hc)).2.2

end Target

end FaultInjection
