import FaultInjection.Duration

/-!
# Durations - The search for parts

The parts of a duration can be found by a search.  It goes through the text from left to right and
tries at each place the ways to read a part there, those that take more characters first; where
there is none, it goes on at the next character.  The text is a duration if each part starts where
the one before it ends, and the last one ends with the text.

Main definitions:

- `Duration.ways`, the ways to read a part at the start of a text, in the order in which they are
  tried.
- `Duration.nextPart?`, the first part that a search comes to.
- `Duration.search?`, the milliseconds of a text whose parts are searched for.

Main results:

- `Duration.append_of_mem_ways`: a way reads what stands there.
- `Duration.length_lt_of_nextPart?`: a part takes characters away, so that the search ends.
-/

namespace FaultInjection

namespace Duration

/-- The point and the digits of a fraction, nothing where there are no digits. -/
def pointed (fraction : List Char) : List Char :=
  if fraction.isEmpty then [] else '.' :: fraction

/-- The characters of a part. -/
def Part.text (part : Part) : List Char := part.whole ++ pointed part.fraction ++ part.unit

/-! ## Ways to read -/

/-- The ways to read characters of a kind, one at least, each with what follows; the longest way
comes first. -/
def runs (kind : Char → Bool) : List Char → List (List Char × List Char)
  | [] => []
  | c :: rest =>
    if kind c then (runs kind rest).map (fun way => (c :: way.1, way.2)) ++ [([c], rest)]
    else []

/-- The ways to read a point with digits behind it, and then the way to read nothing. -/
def fractions : List Char → List (List Char × List Char)
  | '.' :: rest => runs isDigit rest ++ [([], '.' :: rest)]
  | rest => [([], rest)]

/-- The ways to read the unit of a part behind its whole number and its fraction. -/
def units (whole : List Char) (fraction : List Char × List Char) : List (Part × List Char) :=
  (runs isLetter fraction.2).map fun unit => (⟨whole, fraction.1, unit.1⟩, unit.2)

/-- The ways to read a part at the start of a text. -/
def ways (cs : List Char) : List (Part × List Char) :=
  (runs isDigit cs).flatMap fun whole => (fractions whole.2).flatMap (units whole.1)

/-- What is read as a run stands at the start, and is of the kind. -/
theorem append_of_mem_runs {kind : Char → Bool} {cs run after : List Char}
    (h : (run, after) ∈ runs kind cs) :
    run ++ after = cs ∧ run ≠ [] ∧ ∀ c ∈ run, kind c = true := by
  induction cs generalizing run after with
  | nil => cases h
  | cons c rest ih =>
      rw [runs] at h
      split at h
      · rename_i hkind
        rcases List.mem_append.1 h with hlonger | hone
        · obtain ⟨⟨run', after'⟩, hmem, heq⟩ := List.mem_map.1 hlonger
          obtain ⟨rfl, rfl⟩ := Prod.mk.inj heq
          obtain ⟨happend, -, hall⟩ := ih hmem
          exact ⟨congrArg (c :: ·) happend, List.cons_ne_nil _ _,
            List.forall_mem_cons.2 ⟨hkind, hall⟩⟩
        · obtain ⟨rfl, rfl⟩ := Prod.mk.inj (List.mem_singleton.1 hone)
          exact ⟨rfl, List.cons_ne_nil _ _, List.forall_mem_singleton.2 hkind⟩
      · cases h

/-- What is read as a fraction stands at the start, behind a point. -/
theorem append_of_mem_fractions {cs fraction after : List Char}
    (h : (fraction, after) ∈ fractions cs) :
    pointed fraction ++ after = cs := by
  unfold fractions at h
  split at h
  · rcases List.mem_append.1 h with hdigits | hnone
    · obtain ⟨rfl, hne, -⟩ := append_of_mem_runs hdigits
      rw [pointed, List.isEmpty_eq_false_iff.2 hne]
      rfl
    · obtain ⟨rfl, rfl⟩ := Prod.mk.inj (List.mem_singleton.1 hnone)
      rfl
  · obtain ⟨rfl, rfl⟩ := Prod.mk.inj (List.mem_singleton.1 h)
    rfl

/-- What is read as a part stands at the start. -/
theorem append_of_mem_ways {cs after : List Char} {part : Part} (h : (part, after) ∈ ways cs) :
    part.text ++ after = cs ∧ part.text ≠ [] := by
  obtain ⟨⟨whole, rest⟩, hwhole, h⟩ := List.mem_flatMap.1 h
  obtain ⟨⟨fraction, rest'⟩, hfraction, h⟩ := List.mem_flatMap.1 h
  obtain ⟨⟨unit, rest''⟩, hunit, heq⟩ := List.mem_map.1 h
  obtain ⟨rfl, rfl⟩ := Prod.mk.inj heq
  obtain ⟨rfl, hne, -⟩ := append_of_mem_runs hwhole
  obtain ⟨rfl, -, -⟩ := append_of_mem_runs hunit
  have hrest := append_of_mem_fractions hfraction
  refine ⟨?_, fun hnil => hne ?_⟩
  · simp only [Part.text, List.append_assoc]
    rw [hrest]
  · exact (List.append_eq_nil_iff.1 (List.append_eq_nil_iff.1 hnil).1).1

/-! ## Searching -/

/-- The first part that a search from left to right comes to: how many characters are in front of
it, the part, and what follows it. -/
def nextPart? : List Char → Option (Nat × Part × List Char)
  | [] => none
  | c :: rest =>
    match (ways (c :: rest)).head? with
    | some (part, after) => some (0, part, after)
    | none => (nextPart? rest).map fun (skipped, part, after) => (skipped + 1, part, after)

/-- A part takes characters away. -/
theorem length_lt_of_nextPart? {cs after : List Char} {part : Part} {skipped : Nat}
    (h : nextPart? cs = some (skipped, part, after)) : after.length < cs.length := by
  induction cs generalizing skipped with
  | nil => cases h
  | cons c rest ih =>
      rw [nextPart?] at h
      split at h
      · rename_i found after' hways
        obtain ⟨-, rfl, rfl⟩ : 0 = skipped ∧ found = part ∧ after' = after := by simpa using h
        obtain ⟨happend, hne⟩ := append_of_mem_ways (List.mem_of_mem_head? hways)
        have hpos : 0 < found.text.length := List.length_pos_iff.2 hne
        have hlength := congrArg List.length happend
        rw [List.length_append] at hlength
        omega
      · obtain ⟨⟨skipped', part', after'⟩, hnext, heq⟩ := Option.map_eq_some_iff.1 h
        simp only [Prod.mk.injEq] at heq
        obtain ⟨-, rfl, rfl⟩ := heq
        exact Nat.lt_succ_of_lt (ih hnext)

/-- The sum of the parts that are found from a place on, in a text of some length of which some
characters are used up. -/
def searchFrom (length place used : Nat) (total : Number) (cs : List Char) : Option Number :=
  match h : nextPart? cs with
  | none => if used = length then some total else none
  | some (skipped, part, after) =>
    have := length_lt_of_nextPart? h
    if place + skipped = used then
      match part.value? with
      | none => none
      | some value =>
        searchFrom length (place + skipped + part.text.length) (used + part.text.length)
          (total + value) after
    else none
termination_by cs.length

/-- The milliseconds of a text whose parts are searched for. -/
def search? (s : String) : Option Number :=
  let cs := compact s
  if cs.isEmpty then none else searchFrom cs.length 0 0 0 cs

end Duration

end FaultInjection
