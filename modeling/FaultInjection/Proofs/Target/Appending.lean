import FaultInjection.Proofs.Target.Steps

/-!
# Request targets - Fragments at the end of a query

A fragment is put behind the query as it stands, and the whole text is read again.  As the
fragment is not decoded and the path ends at the first question mark, the pieces of the old
query stay as they are, in their places, and those of the fragment follow.

Main definitions:

- `Target.AppendsTo`, what becomes of a target when a fragment is appended.

Main results:

- `Target.exists_appendQuery_eq_error_iff`: when a fragment cannot be appended.
- `Target.appendsTo_of_appendQuery`: what is kept and what is added.
- `Target.appendQuery_appendQuery_iff`: appending two fragments.
- `Target.appendQuery_appends`: all of this together.
-/

namespace FaultInjection

namespace Target

/-! ## Queries with a fragment behind them -/

/-- The pieces of a query, of which there are none where there is no query. -/
def piecesOf (query : Option String) : List (List Char) :=
  (query.map fun query => piecesAt '&' query.toList).getD []

/-- A query with a fragment behind it has the pieces of the query and then those of the
fragment. -/
theorem piecesOf_joinedQuery? (query : Option String) (fragment : String) :
    piecesOf (joinedQuery? query (some fragment)) =
      piecesOf query ++ piecesAt '&' fragment.toList := by
  cases query with
  | none => rfl
  | some query =>
      simp only [joinedQuery?, piecesOf, Option.map_some, Option.getD_some, toList_ampersand,
        piecesAt_append_mark]

/-- Fragments behind a query are one fragment with an ampersand between them. -/
theorem joinedQuery?_joinedQuery? (query : Option String) (first second : String) :
    joinedQuery? (joinedQuery? query (some first)) (some second) =
      joinedQuery? query (some (first ++ "&" ++ second)) := by
  cases query with
  | none => rfl
  | some query => simp only [joinedQuery?, String.append_assoc]

/-! ## Failures -/

/-- A fragment cannot be appended where it is not visible, to an authority alone and to the
asterisk. -/
theorem exists_appendQuery_eq_error_iff {t : Target} {fragment : String} (ht : t.IsWellFormed)
    (hfragment : fragment ≠ "") :
    (∃ fault, t.appendQuery (some fragment) = .error fault) ↔
      (∃ c ∈ fragment.toList, ¬ PathAndQuery.IsVisible c) ∨ t.isAuthorityForm = true ∨
        t.path? = some "*" := by
  have hmade : (∃ u, t.appendQuery (some fragment) = .ok u) ↔
      (∀ c ∈ fragment.toList, PathAndQuery.IsVisible c) ∧ t.isAuthorityForm = false ∧
        t.path? ≠ some "*" := by
    simp only [appendQuery_eq_ok_iff ht hfragment, exists_and_left, exists_eq, and_true]
  rw [exists_error_iff, hmade, not_and_or, not_and_or, Bool.not_eq_false, not_not]
  simp only [not_forall, exists_prop]

/-! ## What is kept and what is added -/

/-- What becomes of a target when a fragment is appended. -/
structure AppendsTo (t u : Target) (fragment : String) : Prop where
  scheme : u.scheme = t.scheme
  authority : u.authority = t.authority
  /-- The path is kept, and is the root where there was none. -/
  path : u.path? = some (t.path?.getD "/")
  hasQuery : u.query?.isSome = true
  /-- The pieces of the old query stay, and those of the fragment follow. -/
  pieces : piecesOf u.query? = piecesOf t.query? ++ piecesAt '&' fragment.toList
  /-- The parameters are those of the fragment written over those of the old query. -/
  parameters : ∀ p, Parameters.decode (u.query?.getD "") = .ok p ↔
    ∃ own, Parameters.decode (t.query?.getD "") = .ok own ∧
      ∃ added, Parameters.decode fragment = .ok added ∧ own.overlay added = p

/-- When a fragment is appended, all else is kept. -/
theorem appendsTo_of_appendQuery {t u : Target} {fragment : String} (ht : t.IsWellFormed)
    (hfragment : fragment ≠ "") (h : t.appendQuery (some fragment) = .ok u) :
    AppendsTo t u fragment := by
  obtain ⟨-, -, -, rfl⟩ := (appendQuery_eq_ok_iff ht hfragment).1 h
  constructor
  · rfl
  · rfl
  · rfl
  · change (joinedQuery? t.query? (some fragment)).isSome = true
    cases t.query? <;> rfl
  · exact piecesOf_joinedQuery? t.query? fragment
  · exact fun p => decode_joinedQuery?_eq_ok_iff

/-! ## Appending twice -/

/-- A fragment is appended to a path other than the asterisk, and it stays another one. -/
theorem AppendsTo.path_ne {t u : Target} {fragment : String} (h : AppendsTo t u fragment)
    (hpath : t.path? ≠ some "*") : u.path? ≠ some "*" := by
  rw [h.path]
  cases hold : t.path? with
  | none => decide
  | some path => rwa [hold] at hpath

/-- Appending two fragments is appending one with an ampersand between them. -/
theorem appendQuery_appendQuery_iff {t v : Target} {first second : String} (ht : t.IsWellFormed)
    (hfirst : first ≠ "") (hsecond : second ≠ "") :
    (∃ u, t.appendQuery (some first) = .ok u ∧ u.appendQuery (some second) = .ok v) ↔
      t.appendQuery (some (first ++ "&" ++ second)) = .ok v := by
  have hboth : first ++ "&" ++ second ≠ "" := by simp
  have hmark : PathAndQuery.IsVisible '&' := by decide
  rw [appendQuery_eq_ok_iff ht hboth, toList_ampersand, List.forall_mem_append,
    List.forall_mem_cons, ← joinedQuery?_joinedQuery?]
  constructor
  · rintro ⟨u, hu, hv⟩
    have hwell := ht.appendQuery hu
    obtain ⟨hvisible, hform, hpath, rfl⟩ := (appendQuery_eq_ok_iff ht hfirst).1 hu
    obtain ⟨hothers, -, -, rfl⟩ := (appendQuery_eq_ok_iff hwell hsecond).1 hv
    exact ⟨⟨hvisible, hmark, hothers⟩, hform, hpath, rfl⟩
  · rintro ⟨⟨hvisible, -, hothers⟩, hform, hpath, rfl⟩
    have hu := (appendQuery_eq_ok_iff ht hfirst).2 ⟨hvisible, hform, hpath, rfl⟩
    refine ⟨_, hu, (appendQuery_eq_ok_iff (ht.appendQuery hu) hsecond).2 ?_⟩
    exact ⟨hothers, hform, (appendsTo_of_appendQuery ht hfirst hu).path_ne hpath, rfl⟩

/-- A fragment that is appended leaves all that a target has, with its pieces behind those of the
query.  It cannot be appended only where it is not visible, to an authority alone and to the
asterisk.  So appending two fragments is appending one with an ampersand between them. -/
theorem appendQuery_appends {raw : String} {t : Target} {fragment : String}
    (hparse : parse raw = .ok t) (hfragment : fragment ≠ "") :
    ((∃ fault, t.appendQuery (some fragment) = .error fault) ↔
      (∃ c ∈ fragment.toList, ¬ PathAndQuery.IsVisible c) ∨ t.isAuthorityForm = true ∨
        t.path? = some "*") ∧
    (∀ u, t.appendQuery (some fragment) = .ok u → AppendsTo t u fragment) ∧
    ∀ second, second ≠ "" → ∀ v,
      (∃ u, t.appendQuery (some fragment) = .ok u ∧ u.appendQuery (some second) = .ok v) ↔
        t.appendQuery (some (fragment ++ "&" ++ second)) = .ok v := by
  have ht := isWellFormed_of_parse hparse
  refine ⟨exists_appendQuery_eq_error_iff ht hfragment, fun u hu => ?_, fun second hsecond v => ?_⟩
  · exact appendsTo_of_appendQuery ht hfragment hu
  · exact appendQuery_appendQuery_iff ht hfragment hsecond

/-- Separators at the ends of a fragment make empty pieces, behind an empty query as well. -/
theorem appendQuery_appends_separators :
    let t : Target := ⟨some "http", some "h", some ⟨"/a", some ""⟩⟩
    let u : Target := ⟨some "http", some "h", some ⟨"/a", some "&&x=?y&"⟩⟩
    parse "http://h/a?" = .ok t ∧ "&x=?y&" ≠ "" ∧ t.appendQuery (some "&x=?y&") = .ok u ∧
      ((∃ fault, t.appendQuery (some "&x=?y&") = .error fault) ↔
        (∃ c ∈ "&x=?y&".toList, ¬ PathAndQuery.IsVisible c) ∨ t.isAuthorityForm = true ∨
          t.path? = some "*") ∧
      AppendsTo t u "&x=?y&" ∧ "z" ≠ "" ∧
      t.appendQuery (some ("&x=?y&" ++ "&" ++ "z")) =
        .ok ⟨some "http", some "h", some ⟨"/a", some "&&x=?y&&z"⟩⟩ := by
  intro t u
  have hparse : parse "http://h/a?" = .ok t := by decide +kernel
  have hfragment : "&x=?y&" ≠ "" := by decide
  have hsecond : "z" ≠ "" := by decide
  have hu : t.appendQuery (some "&x=?y&") = .ok u := by decide +kernel
  have hv : u.appendQuery (some "z") =
      .ok ⟨some "http", some "h", some ⟨"/a", some "&&x=?y&&z"⟩⟩ := by decide +kernel
  obtain ⟨hfault, hkept, htwice⟩ := appendQuery_appends hparse hfragment
  exact ⟨hparse, hfragment, hu, hfault, hkept u hu, hsecond, (htwice "z" hsecond _).1 ⟨u, hu, hv⟩⟩

end Target

end FaultInjection
