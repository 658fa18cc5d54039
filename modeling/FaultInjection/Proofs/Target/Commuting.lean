import FaultInjection.Proofs.Target.Steps

/-!
# Request targets - The path apart from the query

Replacing the path and rewriting the query can be done in either order.  Whether a path can be
placed does not depend on the query behind it, and whether a query can be rewritten does not
depend on the path before it, as long as neither path is the asterisk, which takes no query.  Both
orders leave the new path before the new query, or fail.

Main definitions:

- `Target.EndAlike`, for two ways to rewrite a target that end alike.
- `Target.EditsQuery`, for a rewrite that looks at nothing but the query.

Main results:

- `Target.editsQuery_appendQuery` and `Target.editsQuery_replaceParameters`: these rewrites do so.
- `Target.EditsQuery.endAlike`: such a rewrite goes before or after the path.
- `Target.replacePath_independent`: the path and the query are changed independently.
-/

namespace FaultInjection

namespace Target

/-! ## Ends that are alike -/

/-- Two ways to rewrite a target make the same one, or both fail. -/
inductive EndAlike : Except TargetFault Target → Except TargetFault Target → Prop
  | made (u : Target) : EndAlike (.ok u) (.ok u)
  | failed (fault other : TargetFault) : EndAlike (.error fault) (.error other)

theorem EndAlike.refl (result : Except TargetFault Target) : EndAlike result result := by
  cases result with
  | error fault => exact .failed fault fault
  | ok u => exact .made u

/-- Two ways end alike where they make the same targets. -/
theorem endAlike_of_iff {first second : Except TargetFault Target}
    (h : ∀ u, first = .ok u ↔ second = .ok u) : EndAlike first second := by
  cases first with
  | ok u =>
      have hsecond : second = .ok u := (h u).1 rfl
      rw [hsecond]
      exact .made u
  | error fault =>
      cases second with
      | ok u => exact nomatch (h u).2 rfl
      | error other => exact .failed fault other

/-! ## Rewrites of the query -/

/-- A target with its path, or the root where it has none, before some query. -/
def withQuery (t : Target) (query : Option String) : Target :=
  { t with pathAndQuery := some ⟨t.path?.getD "/", query⟩ }

/-- A rewrite looks at nothing but the query of a target other than an authority alone, and puts
another one in its place; the asterisk is left aside. -/
structure EditsQuery (edit : Target → Except TargetFault Target)
    (becomes : Option String → Option String → Prop) : Prop where
  reachable : ∀ {t u}, Reachable t → edit t = .ok u → Reachable u
  eq_ok_iff : ∀ {t u}, t.IsWellFormed → t.path? ≠ some "*" →
    (edit t = .ok u ↔ t.isAuthorityForm = false ∧
      ∃ query, becomes t.query? query ∧ u = t.withQuery query)

/-- A fragment that is not empty is put behind the query, whatever the path is. -/
theorem editsQuery_appendQuery {fragment : String} (hfragment : fragment ≠ "") :
    EditsQuery (·.appendQuery (some fragment)) fun old new =>
      (∀ c ∈ fragment.toList, PathAndQuery.IsVisible c) ∧
        new = joinedQuery? old (some fragment) where
  reachable := Reachable.appended (some fragment)
  eq_ok_iff := by
    intro t u ht hpath
    rw [appendQuery_eq_ok_iff ht hfragment]
    constructor
    · rintro ⟨hvisible, hform, -, hu⟩
      exact ⟨hform, _, ⟨hvisible, rfl⟩, hu⟩
    · rintro ⟨hform, query, ⟨hvisible, rfl⟩, hu⟩
      exact ⟨hvisible, hform, hpath, hu⟩

/-- Parameters are written over those of the query, whatever the path is. -/
theorem editsQuery_replaceParameters (written : Parameters) :
    EditsQuery (·.replaceParameters (some written)) fun old new =>
      ∃ own, Parameters.decode (old.getD "") = .ok own ∧
        new = nonempty? (own.overlay written).encode where
  reachable := Reachable.parametersReplaced (some written)
  eq_ok_iff := by
    intro t u ht hpath
    rw [replaceParameters_eq_ok_iff ht]
    constructor
    · rintro ⟨own, hown, hform, -, hu⟩
      exact ⟨hform, _, ⟨own, hown, rfl⟩, hu⟩
    · rintro ⟨hform, query, ⟨own, hown, rfl⟩, hu⟩
      exact ⟨own, hown, hform, fun hstar => absurd hstar hpath, hu⟩

/-! ## Either order -/

/-- Any visible query may stand behind a path other than the asterisk. -/
theorem isWellFormed_of_other_query {path : String} {old new : Option String}
    (hpath : path ≠ "*") (hold : PathAndQuery.IsWellFormed ⟨path, old⟩)
    (hnew : ∀ c ∈ (new.getD "").toList, PathAndQuery.IsVisible c) :
    PathAndQuery.IsWellFormed ⟨path, new⟩ where
  shape := by
    rcases hold.shape with hstar | hslash
    · exact absurd (congrArg PathAndQuery.path hstar) hpath
    · exact .inr hslash
  visible := by
    intro c hc
    rcases List.mem_append.1 hc with hmem | hmem
    · exact hold.visible c (List.mem_append_left _ hmem)
    · exact hnew c hmem

/-- An empty path is the root, so that none but the asterisk becomes the asterisk. -/
theorem orRoot_ne {path : String} (hpath : path ≠ "*") : orRoot path ≠ "*" := by
  unfold orRoot
  split
  · decide
  · exact hpath

namespace EditsQuery

variable {edit : Target → Except TargetFault Target}
  {becomes : Option String → Option String → Prop} {t v : Target} {path : String}

/-- An authority alone stays as it is when a path is replaced, and no query is put into it. -/
theorem replacePath_iff_of_isAuthorityForm (h : EditsQuery edit becomes) (ht : Reachable t)
    (hstar : t.path? ≠ some "*") (hform : t.isAuthorityForm = true) :
    (∃ u, t.replacePath (some path) = .ok u ∧ edit u = .ok v) ↔
      ∃ u, edit t = .ok u ∧ u.replacePath (some path) = .ok v := by
  have hnone : ∀ u, edit t ≠ .ok u := by
    intro u hu
    obtain ⟨hother, -⟩ := (h.eq_ok_iff (isWellFormed_of_reachable ht) hstar).1 hu
    rw [hform] at hother
    cases hother
  rw [replacePath_of_isAuthorityForm ht hform]
  constructor
  · rintro ⟨u, hu, hv⟩
    obtain rfl := Except.ok.inj hu
    exact absurd hv (hnone v)
  · rintro ⟨u, hu, -⟩
    exact absurd hu (hnone u)

/-- The path is replaced before or after the query is rewritten, with the same result. -/
theorem replacePath_iff (h : EditsQuery edit becomes) (ht : Reachable t)
    (hstar : t.path? ≠ some "*") (hpath : path ≠ "*") :
    (∃ u, t.replacePath (some path) = .ok u ∧ edit u = .ok v) ↔
      ∃ u, edit t = .ok u ∧ u.replacePath (some path) = .ok v := by
  cases hform : t.isAuthorityForm with
  | true => exact h.replacePath_iff_of_isAuthorityForm ht hstar hform
  | false =>
      have hwell := isWellFormed_of_reachable ht
      have hnew : some (orRoot path) ≠ some "*" := by simpa using orRoot_ne hpath
      constructor
      · rintro ⟨u, hu, hv⟩
        have hureach := Reachable.pathReplaced (some path) ht hu
        have hvwell := isWellFormed_of_reachable (h.reachable hureach hv)
        obtain ⟨-, rfl⟩ := (replacePath_eq_ok_iff ht hform).1 hu
        obtain ⟨-, query, hquery, rfl⟩ :=
          (h.eq_ok_iff (isWellFormed_of_reachable hureach) hnew).1 hv
        have hedited : edit t = .ok (t.withQuery query) :=
          (h.eq_ok_iff hwell hstar).2 ⟨hform, query, hquery, rfl⟩
        have hedreach := h.reachable ht hedited
        refine ⟨_, hedited, (replacePath_eq_ok_iff hedreach hform).2 ⟨?_, rfl⟩⟩
        exact hvwell.pathAndQuery _ rfl
      · rintro ⟨u, hu, hv⟩
        have hureach := h.reachable ht hu
        obtain ⟨-, query, hquery, rfl⟩ := (h.eq_ok_iff hwell hstar).1 hu
        obtain ⟨hplace, rfl⟩ := (replacePath_eq_ok_iff hureach hform).1 hv
        have hplaced : t.replacePath (some path) =
            .ok { t with pathAndQuery := some ⟨orRoot path, t.query?⟩ } :=
          (replacePath_eq_ok_iff ht hform).2
            ⟨isWellFormed_of_other_query (orRoot_ne hpath) hplace hwell.visible_query?, rfl⟩
        have hpreach := Reachable.pathReplaced (some path) ht hplaced
        exact ⟨_, hplaced, (h.eq_ok_iff (isWellFormed_of_reachable hpreach) hnew).2
          ⟨hform, query, hquery, rfl⟩⟩

/-- A rewrite of the query goes before or after the replacement of the path. -/
theorem endAlike (h : EditsQuery edit becomes) (ht : Reachable t) (hstar : t.path? ≠ some "*")
    {path : Option String} (hpath : path ≠ some "*") :
    EndAlike (t.replacePath path >>= edit) (edit t >>= (·.replacePath path)) := by
  cases path with
  | none =>
      have hstays : edit t >>= (·.replacePath none) = edit t := by cases edit t <;> rfl
      rw [hstays]
      exact .refl _
  | some path =>
      have hpath' : path ≠ "*" := fun heq => hpath (congrArg some heq)
      refine endAlike_of_iff fun v => ?_
      rw [bind_eq_ok_iff, bind_eq_ok_iff]
      exact h.replacePath_iff ht hstar hpath'

end EditsQuery

/-- Doing nothing goes before or after any rewrite. -/
theorem endAlike_ok (t : Target) (rewrite : Target → Except TargetFault Target) :
    EndAlike (rewrite t >>= .ok) (.ok t >>= rewrite) := by
  have hstays : rewrite t >>= .ok = rewrite t := by cases rewrite t <;> rfl
  rw [hstays]
  exact .refl _

/-- The path of a target that was read is replaced before or after parameters are written or a
fragment is appended: both orders make the same target or fail, unless there is an asterisk.  On
its own the new path leaves all else as it is. -/
theorem replacePath_independent {raw : String} {t : Target} {path : Option String}
    (hparse : parse raw = .ok t) (hstar : t.path? ≠ some "*") (hpath : path ≠ some "*") :
    (∀ written, EndAlike (t.replacePath path >>= (·.replaceParameters written))
      (t.replaceParameters written >>= (·.replacePath path))) ∧
    (∀ fragment, EndAlike (t.replacePath path >>= (·.appendQuery fragment))
      (t.appendQuery fragment >>= (·.replacePath path))) ∧
    ∀ u, t.isAuthorityForm = false → t.replacePath path = .ok u →
      MovedTo t u ((path.map orRoot).or t.path?) t.query? := by
  have ht : Reachable t := .read hparse
  refine ⟨fun written => ?_, fun fragment => ?_, fun u hform hu => ?_⟩
  · cases written with
    | none => exact endAlike_ok t (·.replacePath path)
    | some written => exact (editsQuery_replaceParameters written).endAlike ht hstar hpath
  · cases fragment with
    | none => exact endAlike_ok t (·.replacePath path)
    | some fragment =>
        by_cases hempty : fragment = ""
        · subst hempty
          exact endAlike_ok t (·.replacePath path)
        · exact (editsQuery_appendQuery hempty).endAlike ht hstar hpath
  · exact movedTo_of_replacePath ht hform hu

/-- An empty path before an empty query, and a path that no request line takes. -/
theorem replacePath_independent_emptyQuery :
    let t : Target := ⟨some "http", some "h", some ⟨"/a", some ""⟩⟩
    parse "http://h/a?" = .ok t ∧ t.path? ≠ some "*" ∧ some "" ≠ some "*" ∧
      some "b c" ≠ some "*" ∧
      (t.replacePath (some "") >>= (·.replaceParameters (some [("k", "v")]))) =
        .ok ⟨some "http", some "h", some ⟨"/", some "k=v"⟩⟩ ∧
      (t.replaceParameters (some [("k", "v")]) >>= (·.replacePath (some ""))) =
        .ok ⟨some "http", some "h", some ⟨"/", some "k=v"⟩⟩ ∧
      EndAlike (t.replacePath (some "b c") >>= (·.appendQuery (some "x?y")))
        (t.appendQuery (some "x?y") >>= (·.replacePath (some "b c"))) ∧
      MovedTo t ⟨some "http", some "h", some ⟨"/", some ""⟩⟩ (some "/") (some "") := by
  intro t
  have hparse : parse "http://h/a?" = .ok t := by decide +kernel
  have hstar : t.path? ≠ some "*" := by decide
  have hroot : some "" ≠ some "*" := by decide
  have hblank : some "b c" ≠ some "*" := by decide
  obtain ⟨hwritten, -, hkept⟩ := replacePath_independent hparse hstar hroot
  obtain ⟨-, happended, -⟩ := replacePath_independent hparse hstar hblank
  have hplaced : (t.replacePath (some "") >>= (·.replaceParameters (some [("k", "v")]))) =
      .ok ⟨some "http", some "h", some ⟨"/", some "k=v"⟩⟩ := by decide +kernel
  have hother := hwritten (some [("k", "v")])
  rw [hplaced] at hother
  refine ⟨hparse, hstar, hroot, hblank, hplaced, ?_, happended (some "x?y"),
    hkept _ rfl (by decide +kernel)⟩
  generalize t.replaceParameters (some [("k", "v")]) >>= (·.replacePath (some "")) = second
    at hother
  cases hother
  rfl

end Target

end FaultInjection
