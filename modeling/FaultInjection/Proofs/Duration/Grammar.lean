import FaultInjection.Duration.Search
import Mathlib.Data.List.TakeWhile

/-!
# Durations - The grammar

A duration is a sequence of parts, each of digits, of a point with digits or none, and of the name
of a unit.  A text is such a sequence in one way at most: digits and letters take turns, so that
each part ends where the next digit stands.

Main definitions:

- `Duration.Part.IsShaped`, a part as it can be written, with any letters for a unit.
- `Duration.IsMadeOf`, a text that is a sequence of parts with units that there are.
- `Duration.sumFrom`, the sum of parts from left to right.

Main results:

- `Duration.part?_eq_some_iff`: the part that is read at the start of a text.
- `Duration.parts?_eq_some_iff`: the parts that are read from a text.
- `Duration.parseDuration_eq_some_iff`: the texts that are durations, with what they stand for.
-/

namespace FaultInjection

namespace Duration

/-! ## Characters -/

theorem isDigit_of_isLetter {c : Char} (h : isLetter c = true) : isDigit c = false := by
  simp only [isLetter, Bool.and_eq_true, decide_eq_true_eq] at h
  simp only [isDigit, Bool.and_eq_false_iff, decide_eq_false_iff_not, Char.not_le]
  exact .inr (Std.lt_of_lt_of_le (by decide) h.1)

theorem isLetter_of_isDigit {c : Char} (h : isDigit c = true) : isLetter c = false := by
  cases hletter : isLetter c with
  | false => rfl
  | true => rw [isDigit_of_isLetter hletter] at h; cases h

/-- A text whose first character, if it has one, is not of a kind. -/
def StopsAt (kind : Char → Bool) (cs : List Char) : Prop := ∀ c ∈ cs.head?, kind c = false

section Runs

variable {kind : Char → Bool} {run rest cs : List Char}

theorem stopsAt_dropWhile (kind : Char → Bool) (cs : List Char) :
    StopsAt kind (cs.dropWhile kind) := by
  intro c hc
  have hnot := List.head?_dropWhile_not kind cs
  rw [hc] at hnot
  simpa using hnot

theorem takeWhile_of_stopsAt (h : StopsAt kind cs) : cs.takeWhile kind = [] := by
  cases cs with
  | nil => rfl
  | cons c rest => rw [List.takeWhile_cons, h c rfl]; rfl

theorem dropWhile_of_stopsAt (h : StopsAt kind cs) : cs.dropWhile kind = cs := by
  cases cs with
  | nil => rfl
  | cons c rest => rw [List.dropWhile_cons, h c rfl]; rfl

/-- A run of a kind ends where a character of another kind stands. -/
theorem takeWhile_append_of_stopsAt (hrun : ∀ c ∈ run, kind c = true) (hrest : StopsAt kind rest) :
    (run ++ rest).takeWhile kind = run := by
  rw [List.takeWhile_append_of_pos hrun, takeWhile_of_stopsAt hrest, List.append_nil]

theorem dropWhile_append_of_stopsAt (hrun : ∀ c ∈ run, kind c = true) (hrest : StopsAt kind rest) :
    (run ++ rest).dropWhile kind = rest := by
  rw [List.dropWhile_append_of_pos hrun, dropWhile_of_stopsAt hrest]

end Runs

/-! ## Parts -/

/-- A part of digits, with a point and digits or without, and of letters. -/
structure Part.IsShaped (part : Part) : Prop where
  whole_ne : part.whole ≠ []
  whole : ∀ c ∈ part.whole, isDigit c = true
  fraction : ∀ c ∈ part.fraction, isDigit c = true
  unit_ne : part.unit ≠ []
  unit : ∀ c ∈ part.unit, isLetter c = true

/-- The letters of a part stop at no digit and no point. -/
theorem Part.IsShaped.exists_letter {part : Part} (h : part.IsShaped) :
    ∃ c letters, part.unit = c :: letters ∧ isDigit c = false ∧ c ≠ '.' := by
  obtain ⟨c, letters, hunit⟩ := List.exists_cons_of_ne_nil h.unit_ne
  have hletter : isLetter c = true := h.unit c (by rw [hunit]; exact List.mem_cons_self)
  refine ⟨c, letters, hunit, isDigit_of_isLetter hletter, ?_⟩
  rintro rfl
  cases hletter

/-- What is read as a fraction is digits behind a point, or nothing. -/
theorem pointed_fraction (cs : List Char) :
    pointed (fraction cs).1 ++ (fraction cs).2 = cs ∧ ∀ c ∈ (fraction cs).1, isDigit c = true := by
  unfold fraction
  split
  · rename_i rest
    split
    · exact ⟨rfl, List.forall_mem_nil _⟩
    · rename_i hne
      refine ⟨?_, fun c hc => List.mem_takeWhile_imp hc⟩
      rw [pointed, if_neg hne, List.cons_append, List.takeWhile_append_dropWhile]
  · exact ⟨rfl, List.forall_mem_nil _⟩

/-- A fraction is read up to a character that is no digit and no point. -/
theorem fraction_pointed {digits rest : List Char} {c : Char}
    (hdigits : ∀ c ∈ digits, isDigit c = true) (hc : isDigit c = false) (hpoint : c ≠ '.') :
    fraction (pointed digits ++ c :: rest) = (digits, c :: rest) := by
  have hstop : StopsAt isDigit (c :: rest) := by
    intro d hd
    obtain rfl := Option.some.inj hd
    exact hc
  cases digits with
  | nil => simp [pointed, fraction, hpoint]
  | cons d digits =>
      have hrun := takeWhile_append_of_stopsAt hdigits hstop
      have hafter := dropWhile_append_of_stopsAt hdigits hstop
      rw [pointed, if_neg (by simp), List.cons_append, fraction, hrun, hafter, if_neg (by simp)]

/-- The part that is read at the start of a text is the one that is written there, as far as its
letters go. -/
theorem part?_eq_some_iff {cs rest : List Char} {part : Part} :
    part? cs = some (part, rest) ↔
      part.text ++ rest = cs ∧ part.IsShaped ∧ StopsAt isLetter rest := by
  constructor
  · intro h
    simp only [part?] at h
    split at h
    · cases h
    · rename_i hne
      obtain ⟨rfl, rfl⟩ := Prod.mk.inj (Option.some.inj h)
      simp only [Bool.or_eq_true, List.isEmpty_iff, not_or] at hne
      obtain ⟨happend, hfraction⟩ := pointed_fraction (cs.dropWhile isDigit)
      refine ⟨?_, ?_, stopsAt_dropWhile _ _⟩
      · rw [Part.text, List.append_assoc, List.takeWhile_append_dropWhile, List.append_assoc,
          happend, List.takeWhile_append_dropWhile]
      · exact ⟨hne.1, fun c hc => List.mem_takeWhile_imp hc, hfraction, hne.2,
          fun c hc => List.mem_takeWhile_imp hc⟩
  · rintro ⟨rfl, hshaped, hstop⟩
    obtain ⟨c, letters, hunit, hdigit, hpoint⟩ := hshaped.exists_letter
    have hwhole : StopsAt isDigit (pointed part.fraction ++ (part.unit ++ rest)) := by
      intro d hd
      rw [pointed, hunit] at hd
      split at hd
      · obtain rfl := Option.some.inj hd
        exact hdigit
      · obtain rfl := Option.some.inj hd
        rfl
    have hcs : part.text ++ rest =
        part.whole ++ (pointed part.fraction ++ (part.unit ++ rest)) := by
      rw [Part.text, List.append_assoc, List.append_assoc]
    have hfraction : fraction (pointed part.fraction ++ (part.unit ++ rest)) =
        (part.fraction, part.unit ++ rest) := by
      rw [hunit, List.cons_append]
      exact fraction_pointed hshaped.fraction hdigit hpoint
    simp only [part?, hcs, takeWhile_append_of_stopsAt hshaped.whole hwhole,
      dropWhile_append_of_stopsAt hshaped.whole hwhole, hfraction,
      takeWhile_append_of_stopsAt hshaped.unit hstop,
      dropWhile_append_of_stopsAt hshaped.unit hstop]
    simp [hshaped.whole_ne, hshaped.unit_ne]

/-! ## Sequences of parts -/

/-- The characters of parts one after the other. -/
def texts (parts : List Part) : List Char := parts.flatMap Part.text

/-- Parts begin with a digit. -/
theorem stopsAt_texts {parts : List Part} (h : ∀ part ∈ parts, part.IsShaped) :
    StopsAt isLetter (texts parts) := by
  cases parts with
  | nil => exact nofun
  | cons part rest =>
      have hshaped := h part List.mem_cons_self
      obtain ⟨d, digits, hwhole⟩ := List.exists_cons_of_ne_nil hshaped.whole_ne
      have hdigit : isDigit d = true := hshaped.whole d (by rw [hwhole]; exact List.mem_cons_self)
      intro c hc
      rw [texts, List.flatMap_cons, Part.text, hwhole] at hc
      obtain rfl := Option.some.inj hc
      exact isLetter_of_isDigit hdigit

section Reading

variable {cs after : List Char} {part : Part}

theorem parts?_nil : parts? [] = some [] := by
  rw [parts?]
  rfl

/-- A text that begins with no part has none. -/
theorem parts?_of_part?_eq_none (hnone : part? cs = none) (hne : cs ≠ []) : parts? cs = none := by
  rw [parts?, if_neg (mt List.isEmpty_iff.1 hne)]
  split
  · rfl
  · rename_i hsome
    rw [hnone] at hsome
    cases hsome

/-- The first part of a text is the one that is read at its start, and the others are those of what
follows it. -/
theorem parts?_of_part?_eq_some (h : part? cs = some (part, after)) :
    parts? cs = (parts? after).map (part :: ·) := by
  have hne : cs ≠ [] := by rintro rfl; cases h
  rw [parts?, if_neg (mt List.isEmpty_iff.1 hne)]
  split
  · rename_i hnone
    rw [h] at hnone
    cases hnone
  · rename_i hsome
    obtain ⟨rfl, rfl⟩ := Prod.mk.inj (Option.some.inj (h.symm.trans hsome))
    rfl

/-- A text without characters has no parts, and no other text. -/
theorem parts?_eq_some_nil_iff : parts? cs = some [] ↔ cs = [] := by
  by_cases hnil : cs = []
  · rw [hnil, parts?_nil]
    exact iff_of_true rfl rfl
  · cases hpart : part? cs with
    | none => simp [parts?_of_part?_eq_none hpart hnil, hnil]
    | some found => simp [parts?_of_part?_eq_some hpart, hnil]

/-- A text has a first part and others if the first is read at its start, and the others from what
follows. -/
theorem parts?_eq_some_cons_iff {others : List Part} :
    parts? cs = some (part :: others) ↔
      ∃ rest, part? cs = some (part, rest) ∧ parts? rest = some others := by
  cases hpart : part? cs with
  | none =>
      by_cases hnil : cs = []
      · simp [hnil, parts?_nil]
      · simp [parts?_of_part?_eq_none hpart hnil]
  | some found =>
      obtain ⟨first, after⟩ := found
      simp only [parts?_of_part?_eq_some hpart, Option.map_eq_some_iff, List.cons.injEq,
        Option.some.injEq, Prod.mk.injEq]
      constructor
      · rintro ⟨parts, hparts, rfl, rfl⟩
        exact ⟨after, ⟨rfl, rfl⟩, hparts⟩
      · rintro ⟨rest, ⟨rfl, rfl⟩, hparts⟩
        exact ⟨others, hparts, rfl, rfl⟩

end Reading

/-- The parts that are read from a text are those that it is a sequence of. -/
theorem parts?_eq_some_iff {cs : List Char} {parts : List Part} :
    parts? cs = some parts ↔ (∀ part ∈ parts, part.IsShaped) ∧ texts parts = cs := by
  induction parts generalizing cs with
  | nil =>
      rw [parts?_eq_some_nil_iff]
      exact ⟨fun h => ⟨List.forall_mem_nil _, h.symm⟩, fun h => h.2.symm⟩
  | cons part others ih =>
      rw [parts?_eq_some_cons_iff]
      constructor
      · rintro ⟨rest, hpart, hothers⟩
        obtain ⟨rfl, hshaped, -⟩ := part?_eq_some_iff.1 hpart
        obtain ⟨hall, rfl⟩ := ih.1 hothers
        exact ⟨List.forall_mem_cons.2 ⟨hshaped, hall⟩, List.flatMap_cons⟩
      · rintro ⟨hall, rfl⟩
        obtain ⟨hshaped, hothers⟩ := List.forall_mem_cons.1 hall
        have hpart : part.text ++ texts others = texts (part :: others) := List.flatMap_cons.symm
        exact ⟨texts others, part?_eq_some_iff.2 ⟨hpart, hshaped, stopsAt_texts hothers⟩,
          ih.2 ⟨hothers, rfl⟩⟩

/-! ## Units and sums -/

/-- The names of the units. -/
def unitNames : List String :=
  ["ns", "us", "ms", "s", "sec", "secs", "m", "min", "mins", "h", "hr", "hrs", "d"]

/-- The units are those of these names. -/
theorem isSome_unit?_iff {unit : List Char} :
    (unit? unit).isSome = true ↔ String.ofList unit ∈ unitNames := by
  unfold unit?
  split <;> simp_all [unitNames]

/-- The name of a unit is letters, one at least. -/
theorem letters_of_mem_unitNames {unit : List Char} (h : String.ofList unit ∈ unitNames) :
    unit ≠ [] ∧ ∀ c ∈ unit, isLetter c = true := by
  have hnames : ∀ name ∈ unitNames, name.toList ≠ [] ∧ ∀ c ∈ name.toList, isLetter c = true := by
    simp [unitNames, isLetter]
  simpa using hnames _ h

/-- A part as it is written: digits, a point with digits or none, and the name of a unit. -/
structure Part.IsWritten (part : Part) : Prop where
  whole_ne : part.whole ≠ []
  whole : ∀ c ∈ part.whole, isDigit c = true
  fraction : ∀ c ∈ part.fraction, isDigit c = true
  unit : String.ofList part.unit ∈ unitNames

/-- The parts that are written are those of the right shape with a unit that there is. -/
theorem Part.isWritten_iff {part : Part} :
    part.IsWritten ↔ part.IsShaped ∧ (unit? part.unit).isSome = true := by
  rw [isSome_unit?_iff]
  constructor
  · rintro ⟨hne, hwhole, hfraction, hunit⟩
    obtain ⟨hletters, hall⟩ := letters_of_mem_unitNames hunit
    exact ⟨⟨hne, hwhole, hfraction, hletters, hall⟩, hunit⟩
  · rintro ⟨hshaped, hunit⟩
    exact ⟨hshaped.whole_ne, hshaped.whole, hshaped.fraction, hunit⟩

/-- The number that the digits of a part stand for. -/
def Part.amount (part : Part) : Number := .ofParts false part.whole part.fraction 0

/-- The milliseconds of the unit of a part, zero for what is no unit. -/
def Part.factor (part : Part) : Number := (unit? part.unit).getD 0

/-- What parts add to a sum, from left to right. -/
def sumFrom (total : Number) (parts : List Part) : Number :=
  parts.foldl (fun total part => total + part.amount * part.factor) total

/-- Parts have a sum if each of them has a unit that there is. -/
theorem sum?_eq_some_iff {total n : Number} {parts : List Part} :
    sum? total parts = some n ↔
      (∀ part ∈ parts, (unit? part.unit).isSome = true) ∧ n = sumFrom total parts := by
  induction parts generalizing total with
  | nil =>
      rw [sum?, Option.some.injEq]
      exact ⟨fun h => ⟨List.forall_mem_nil _, h.symm⟩, fun h => h.2.symm⟩
  | cons part rest ih =>
      rw [sum?, Part.value?]
      cases hunit : unit? part.unit with
      | none => simp [hunit]
      | some factor =>
          simp only [Option.map_some, ih, List.forall_mem_cons, hunit, Option.isSome_some,
            true_and, sumFrom, List.foldl_cons]
          rw [show part.factor = factor from congrArg (Option.getD · 0) hunit]
          rfl

/-! ## Durations -/

/-- A text is a sequence of parts, one at least. -/
structure IsMadeOf (cs : List Char) (parts : List Part) : Prop where
  ne : parts ≠ []
  written : ∀ part ∈ parts, part.IsWritten
  text : texts parts = cs

/-- The texts that are durations, with what they stand for. -/
theorem parseDuration_eq_some_iff {s : String} {n : Number} :
    parseDuration s = some n ↔
      ∃ parts, IsMadeOf (compact s) parts ∧ n = sumFrom 0 parts := by
  have hwritten (parts : List Part) : (∀ part ∈ parts, part.IsWritten) ↔
      (∀ part ∈ parts, part.IsShaped) ∧ ∀ part ∈ parts, (unit? part.unit).isSome = true := by
    simp only [Part.isWritten_iff, forall_and]
  unfold parseDuration
  dsimp only
  split
  · rename_i hnil
    have hcs : compact s = [] := by simpa using hnil
    constructor
    · exact nofun
    · rintro ⟨parts, ⟨hne, hall, htext⟩, -⟩
      have hparts := parts?_eq_some_iff.2 ⟨((hwritten parts).1 hall).1, htext.trans hcs⟩
      rw [parts?_nil] at hparts
      exact absurd (Option.some.inj hparts).symm hne
  · rename_i hne
    simp only [Option.bind_eq_some_iff, parts?_eq_some_iff, sum?_eq_some_iff]
    constructor
    · rintro ⟨parts, ⟨hshaped, htext⟩, hunits, rfl⟩
      refine ⟨parts, ⟨?_, (hwritten parts).2 ⟨hshaped, hunits⟩, htext⟩, rfl⟩
      rintro rfl
      exact hne (by rw [← htext]; rfl)
    · rintro ⟨parts, ⟨-, hall, htext⟩, rfl⟩
      obtain ⟨hshaped, hunits⟩ := (hwritten parts).1 hall
      exact ⟨parts, ⟨hshaped, htext⟩, hunits, rfl⟩

/-- A text is a sequence of parts in one way at most. -/
theorem IsMadeOf.unique {cs : List Char} {parts parts' : List Part} (h : IsMadeOf cs parts)
    (h' : IsMadeOf cs parts') : parts = parts' := by
  have hread {parts : List Part} (h : IsMadeOf cs parts) : parts? cs = some parts :=
    parts?_eq_some_iff.2 ⟨fun part hpart => (Part.isWritten_iff.1 (h.written part hpart)).1, h.text⟩
  exact Option.some.inj ((hread h).symm.trans (hread h'))

/-- The unit of a part is the whole run of letters behind its digits. -/
theorem IsMadeOf.takeWhile_unit {cs : List Char} {before after : List Part} {part : Part}
    (h : IsMadeOf cs (before ++ part :: after)) :
    (part.unit ++ texts after).takeWhile isLetter = part.unit := by
  have hshaped : ∀ other ∈ before ++ part :: after, other.IsShaped := fun other hother =>
    (Part.isWritten_iff.1 (h.written other hother)).1
  have hafter : ∀ other ∈ after, other.IsShaped := fun other hother =>
    hshaped other (List.mem_append_right _ (List.mem_cons_of_mem _ hother))
  exact takeWhile_append_of_stopsAt
    (hshaped part (List.mem_append_right _ List.mem_cons_self)).unit (stopsAt_texts hafter)

end Duration

end FaultInjection
