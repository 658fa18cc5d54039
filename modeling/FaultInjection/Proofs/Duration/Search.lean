import FaultInjection.Proofs.Duration.Grammar

/-!
# Durations - What the search finds

A search for the parts of a duration tries more ways than are needed.  A run that stops short of
its last character is followed by one of its own kind, which no part allows there, so that the
first way to read a part is the only place where the parts of the text can be cut; and a search
that leaves characters out has found no duration.

Main results:

- `Duration.head?_ways`: the way that is tried first is the part that is read.
- `Duration.search?_eq_parseDuration`: a search finds the durations, and what they stand for.
- `Duration.readsParts`: which texts are durations, and what they stand for.
-/

namespace FaultInjection

namespace Duration

/-! ## Ways to read -/

section Ways

variable {α : Type} {kind : Char → Bool} {cs : List Char}

/-- The longest run comes first, and each of the others is followed by a character of the kind. -/
theorem runs_cases (kind : Char → Bool) (cs : List Char) :
    cs.takeWhile kind = [] ∧ runs kind cs = [] ∨
      cs.takeWhile kind ≠ [] ∧ ∃ shorter,
        runs kind cs = (cs.takeWhile kind, cs.dropWhile kind) :: shorter ∧
          ∀ way ∈ shorter, ¬ StopsAt kind way.2 := by
  induction cs with
  | nil => exact .inl ⟨rfl, rfl⟩
  | cons c rest ih =>
      cases hkind : kind c with
      | false => exact .inl ⟨by rw [List.takeWhile_cons, hkind]; rfl, by rw [runs, hkind]; rfl⟩
      | true =>
          refine .inr ⟨by rw [List.takeWhile_cons, hkind]; exact List.cons_ne_nil _ _, ?_⟩
          rw [runs, if_pos hkind, List.takeWhile_cons, List.dropWhile_cons, if_pos hkind,
            if_pos hkind]
          rcases ih with ⟨hnone, hruns⟩ | ⟨hsome, shorter, hruns, hshorter⟩
          · refine ⟨[], ?_, List.forall_mem_nil _⟩
            have hrest : rest.dropWhile kind = rest := by
              simpa [hnone] using List.takeWhile_append_dropWhile (p := kind) (l := rest)
            rw [hruns, hnone, hrest]
            rfl
          · refine ⟨shorter.map (fun way => (c :: way.1, way.2)) ++ [([c], rest)], ?_, ?_⟩
            · rw [hruns]
              rfl
            · intro way hway
              rcases List.mem_append.1 hway with hlonger | hone
              · obtain ⟨way', hmem, rfl⟩ := List.mem_map.1 hlonger
                exact hshorter way' hmem
              · obtain rfl := List.mem_singleton.1 hone
                exact fun hstop => hsome (takeWhile_of_stopsAt hstop)

/-- Of the runs that are followed by what they leave, only the longest counts where nothing can
begin with a character of the kind. -/
theorem flatMap_runs {next : List Char × List Char → List α}
    (hnext : ∀ way, ¬ StopsAt kind way.2 → next way = []) (cs : List Char) :
    (runs kind cs).flatMap next =
      if (cs.takeWhile kind).isEmpty then [] else next (cs.takeWhile kind, cs.dropWhile kind) := by
  rcases runs_cases kind cs with ⟨hnone, hruns⟩ | ⟨hsome, shorter, hruns, hshorter⟩
  · rw [hruns, hnone]
    rfl
  · have hrest : shorter.flatMap next = [] :=
      List.flatMap_eq_nil_iff.2 fun way hway => hnext way (hshorter way hway)
    rw [hruns, List.flatMap_cons, hrest, List.append_nil,
      if_neg (mt List.isEmpty_iff.1 hsome)]

/-- Of the fractions only the longest counts where nothing can begin with a digit or a point. -/
theorem flatMap_fractions {next : List Char × List Char → List α}
    (hdigit : ∀ way, ¬ StopsAt isDigit way.2 → next way = [])
    (hpoint : ∀ fraction rest, next (fraction, '.' :: rest) = []) (cs : List Char) :
    (fractions cs).flatMap next = next (fraction cs) := by
  unfold fractions
  split
  · rw [List.flatMap_append, flatMap_runs hdigit, List.flatMap_singleton, hpoint, List.append_nil,
      fraction]
    split
    · exact (hpoint _ _).symm
    · rfl
  · rename_i hother
    rw [List.flatMap_singleton]
    cases cs with
    | nil => rfl
    | cons c rest => rw [fraction]; exact fun rest' heq => hother rest' heq

theorem stopsAt_isLetter_of_not_stopsAt_isDigit (h : ¬ StopsAt isDigit cs) :
    StopsAt isLetter cs := by
  intro c hc
  refine isLetter_of_isDigit ?_
  by_contra hdigit
  refine h fun d hd => ?_
  obtain rfl := Option.some.inj (hc.symm.trans hd)
  simpa using hdigit

/-- No fraction begins with a digit. -/
theorem fraction_of_not_stopsAt_isDigit (h : ¬ StopsAt isDigit cs) : fraction cs = ([], cs) := by
  rw [fraction]
  rintro rest rfl
  exact h (by intro c hc; obtain rfl := Option.some.inj hc; rfl)

/-- No unit begins with a character that is no letter. -/
theorem units_eq_nil (whole : List Char) {fraction : List Char × List Char}
    (h : StopsAt isLetter fraction.2) : units whole fraction = [] := by
  rcases runs_cases isLetter fraction.2 with ⟨-, hruns⟩ | ⟨hsome, -⟩
  · rw [units, hruns, List.map_nil]
  · exact absurd (takeWhile_of_stopsAt h) hsome

/-- The unit that is tried first is the longest. -/
theorem head?_units (whole : List Char) (fraction : List Char × List Char) :
    (units whole fraction).head? =
      if (fraction.2.takeWhile isLetter).isEmpty then none
      else some (⟨whole, fraction.1, fraction.2.takeWhile isLetter⟩,
        fraction.2.dropWhile isLetter) := by
  rcases runs_cases isLetter fraction.2 with ⟨hnone, hruns⟩ | ⟨hsome, shorter, hruns, -⟩
  · rw [units, hruns, hnone]
    rfl
  · rw [units, hruns, if_neg (mt List.isEmpty_iff.1 hsome)]
    rfl

/-- The whole number and the fraction of a part are the longest ones. -/
theorem ways_eq (cs : List Char) :
    ways cs = if (cs.takeWhile isDigit).isEmpty then []
      else units (cs.takeWhile isDigit) (fraction (cs.dropWhile isDigit)) := by
  have hfractions (whole rest : List Char) :
      (fractions rest).flatMap (units whole) = units whole (fraction rest) :=
    flatMap_fractions
      (fun way hway => units_eq_nil whole (stopsAt_isLetter_of_not_stopsAt_isDigit hway))
      (fun fraction rest => units_eq_nil whole
        (by intro c hc; obtain rfl := Option.some.inj hc; rfl)) rest
  rw [ways]
  simp only [hfractions]
  refine flatMap_runs (fun way hway => units_eq_nil way.1 ?_) cs
  rw [fraction_of_not_stopsAt_isDigit hway]
  exact stopsAt_isLetter_of_not_stopsAt_isDigit hway

/-- The way that is tried first is the part that is read. -/
theorem head?_ways (cs : List Char) : (ways cs).head? = part? cs := by
  rw [ways_eq, part?]
  cases cs.takeWhile isDigit with
  | nil => rfl
  | cons d digits => exact head?_units _ _

end Ways

/-! ## Searching -/

section Searching

variable {cs after : List Char} {part : Part}

/-- A part that is read at the start of a text is found there. -/
theorem nextPart?_of_part?_eq_some (h : part? cs = some (part, after)) :
    nextPart? cs = some (0, part, after) := by
  cases cs with
  | nil => cases h
  | cons c rest => rw [nextPart?, head?_ways, h]

/-- Where no part is read, characters are left out in front of the next one. -/
theorem pos_of_nextPart?_eq_some {skipped : Nat} (hnone : part? cs = none)
    (h : nextPart? cs = some (skipped, part, after)) : 0 < skipped := by
  cases cs with
  | nil => cases h
  | cons c rest =>
      rw [nextPart?, head?_ways, hnone] at h
      obtain ⟨next, -, heq⟩ := Option.map_eq_some_iff.1 h
      rw [← (Prod.mk.inj heq).1]
      exact Nat.succ_pos _

/-- A search that has come to a place and used up all in front of it finds the parts that are read
from there. -/
theorem searchFrom_eq {length place : Nat} (total : Number) (hlength : place + cs.length = length) :
    searchFrom length place place total cs = (parts? cs).bind (sum? total) := by
  induction hsize : cs.length using Nat.strong_induction_on generalizing cs place total with
  | _ size ih =>
  rw [searchFrom]
  cases hpart : part? cs with
  | none =>
      split
      · split
        · obtain rfl := List.eq_nil_of_length_eq_zero (l := cs) (by omega)
          rw [parts?_nil]
          rfl
        · have hne : cs ≠ [] := by rintro rfl; exact absurd hlength (by simpa)
          rw [parts?_of_part?_eq_none hpart hne]
          rfl
      · rename_i hnext
        have hpos := pos_of_nextPart?_eq_some hpart hnext
        rw [if_neg (by omega), parts?_of_part?_eq_none hpart (by rintro rfl; cases hnext)]
        rfl
  | some found =>
      obtain ⟨part, after⟩ := found
      have hnext := nextPart?_of_part?_eq_some hpart
      split
      · rename_i hnone
        rw [hnext] at hnone
        cases hnone
      · rename_i hsome
        obtain ⟨rfl, rfl, rfl⟩ : _ ∧ _ ∧ _ := by simpa using hnext.symm.trans hsome
        rw [parts?_of_part?_eq_some hpart, if_pos (Nat.add_zero _)]
        have hless := part?_length hpart
        obtain ⟨rfl, -⟩ := part?_eq_some_iff.1 hpart
        split
        · rename_i hvalue
          cases parts? after with
          | none => rfl
          | some parts => simp only [Option.map_some, Option.bind_some, sum?, hvalue]
        · rename_i value hvalue
          rw [List.length_append] at hlength
          rw [Nat.add_zero, ih after.length (by omega) (total + value) (by omega) rfl]
          cases parts? after with
          | none => rfl
          | some parts => simp only [Option.map_some, Option.bind_some, sum?, hvalue]

/-- A search finds the durations, and what they stand for. -/
theorem search?_eq_parseDuration (s : String) : search? s = parseDuration s := by
  rw [search?, parseDuration]
  rw [searchFrom_eq 0 (Nat.zero_add _)]

end Searching

/-! ## What a duration is -/

/-- How a text is read as a duration. -/
structure ReadAsParts (s : String) : Prop where
  /-- The durations are the sequences of parts, and stand for the sum of them. -/
  eq_some_iff : ∀ n, parseDuration s = some n ↔
    ∃ parts, IsMadeOf (compact s) parts ∧ n = sumFrom 0 parts
  /-- The parts can be cut in one way only. -/
  unique : ∀ parts parts', IsMadeOf (compact s) parts → IsMadeOf (compact s) parts' →
    parts = parts'
  /-- A unit is all the letters up to the next part. -/
  unit : ∀ before part after, IsMadeOf (compact s) (before ++ part :: after) →
    (part.unit ++ texts after).takeWhile isLetter = part.unit
  /-- A search for parts finds no other durations and no other sum. -/
  search : search? s = parseDuration s
  /-- Blanks and letter case do not count. -/
  congr : ∀ s', compact s' = compact s → parseDuration s' = parseDuration s

/-- Every text is read as a sequence of parts, with no character left out. -/
theorem readsParts (s : String) : ReadAsParts s where
  eq_some_iff _ := parseDuration_eq_some_iff
  unique _ _ h h' := h.unique h'
  unit _ _ _ h := h.takeWhile_unit
  search := search?_eq_parseDuration s
  congr s' h := by rw [parseDuration, parseDuration, h]

example : parseDuration " 1 M 0.5s" = some 60500 ∧ search? "1.5.5s" = none := by decide +kernel

end Duration

end FaultInjection
