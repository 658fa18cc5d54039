import FaultInjection.Proofs.Target.QueryCodec
import FaultInjection.Proofs.Target.RoundTrip

/-!
# Request targets - The rewrites one by one

Each rewrite that changes a target builds one text of a path and a query and reads it again.
The path holds no question mark, so that it is cut from the query where the two were joined:
the target that is read has just the path and the query that were meant for it, and can be
rewritten again.

Main definitions:

- `Target.path?` and `Target.query?`, the parts that rewrites change.
- `Target.joinedQuery?`, a query with a fragment behind it.
- `Target.MovedTo`, for a target with another path and query.

Main results:

- `Target.movedTo_of_appendQuery`, `Target.movedTo_of_replacePath` and
  `Target.movedTo_of_replaceParameters`: the path and query after each rewrite.
- `Target.appendQuery_eq_ok_iff`, `Target.replacePath_eq_ok_iff` and
  `Target.replaceParameters_eq_ok_iff`: when a rewrite is made.
- `Target.decode_joinedQuery?_eq_ok_iff`: the parameters of a query with a fragment behind it.
-/

namespace FaultInjection

/-- The path of a well-formed path and query holds no question mark. -/
theorem PathAndQuery.IsWellFormed.not_mem_path {p : PathAndQuery} (hp : p.IsWellFormed) :
    '?' ∉ p.path.toList := by
  rcases hp.shape with rfl | ⟨-, hmark⟩
  · simp
  · exact hmark

namespace Target

/-! ## Paths and queries -/

/-- The path of a target, if it has one. -/
def path? (t : Target) : Option String := t.pathAndQuery.map PathAndQuery.path

/-- The query of a target, if it has one. -/
def query? (t : Target) : Option String := t.pathAndQuery.bind PathAndQuery.query

/-- A query with a fragment behind it, where there is one of them. -/
def joinedQuery? : Option String → Option String → Option String
  | some query, some fragment => some (query ++ "&" ++ fragment)
  | query, fragment => query.or fragment

/-- The characters of a query with a fragment behind it. -/
theorem toList_ampersand (query fragment : String) :
    (query ++ "&" ++ fragment).toList = query.toList ++ '&' :: fragment.toList := by
  simp

/-- Without a fragment a query stays as it is. -/
@[simp] theorem joinedQuery?_none (query : Option String) : joinedQuery? query none = query := by
  cases query <;> rfl

/-- A text that is not empty. -/
def nonempty? (s : String) : Option String := if s = "" then none else some s

/-- A text is empty where there is none that is not. -/
@[simp] theorem getD_nonempty? (s : String) : (nonempty? s).getD "" = s := by
  rw [nonempty?]
  split <;> simp_all

/-- A path, or the root in place of an empty one. -/
def orRoot (path : String) : String := if path = "" then "/" else path

/-- A target differs from another in nothing but its path and query, which are given. -/
structure MovedTo (t u : Target) (path query : Option String) : Prop where
  scheme : u.scheme = t.scheme
  authority : u.authority = t.authority
  path : u.path? = path
  query : u.query? = query

/-- A target is where it is. -/
theorem MovedTo.refl (t : Target) : MovedTo t t t.path? t.query? := ⟨rfl, rfl, rfl, rfl⟩

/-- An authority alone stays one, and nothing else becomes one. -/
theorem MovedTo.isAuthorityForm_eq {t u : Target} {path query : Option String}
    (h : MovedTo t u path query) : u.isAuthorityForm = t.isAuthorityForm := by
  rw [isAuthorityForm, isAuthorityForm, h.scheme, h.authority]

/-- The text of a path and a query is read as these where they are well formed, and put into a
target other than an authority alone. -/
theorem withPathAndQuery_text_eq_ok_iff {t u : Target} {path : String} {query : Option String}
    (hpath : '?' ∉ path.toList) :
    t.withPathAndQuery (PathAndQuery.text ⟨path, query⟩) = .ok u ↔
      PathAndQuery.IsWellFormed ⟨path, query⟩ ∧ t.isAuthorityForm = false ∧
        u = { t with pathAndQuery := some ⟨path, query⟩ } := by
  rw [withPathAndQuery_eq_ok_iff]
  constructor
  · rintro ⟨p, hparse, hform, hu⟩
    -- The first question mark of the text is the one that the two are joined by.
    have hread : p = ⟨path, query⟩ :=
      (PathAndQuery.parse_eq_ok_iff.1 hparse).2.2.trans (PathAndQuery.ofChars_text hpath)
    subst hread
    exact ⟨PathAndQuery.isWellFormed_of_parse hparse, hform, hu⟩
  · rintro ⟨hp, hform, hu⟩
    exact ⟨_, PathAndQuery.parse_text hp, hform, hu⟩

/-- The text of a path and a query is read as these. -/
theorem movedTo_of_withPathAndQuery {t u : Target} {path : String} {query : Option String}
    (hpath : '?' ∉ path.toList) (h : t.withPathAndQuery (PathAndQuery.text ⟨path, query⟩) = .ok u) :
    MovedTo t u (some path) query := by
  obtain ⟨-, -, rfl⟩ := (withPathAndQuery_text_eq_ok_iff hpath).1 h
  exact ⟨rfl, rfl, rfl, rfl⟩

/-- Which path and query a target has is of no account where others are put into it. -/
theorem MovedTo.withPathAndQuery_eq {t u : Target} {path query : Option String}
    (h : MovedTo t u path query) (raw : String) :
    u.withPathAndQuery raw = t.withPathAndQuery raw := by
  unfold withPathAndQuery
  rw [h.isAuthorityForm_eq, h.scheme, h.authority]

/-- A rewrite leaves an authority alone as it is. -/
theorem eq_of_isAuthorityForm {t u : Target} (hform : t.isAuthorityForm = true)
    (h : u = t ∨ ∃ raw, t.withPathAndQuery raw = .ok u) : u = t := by
  rcases h with hsame | ⟨raw, hraw⟩
  · exact hsame
  · obtain ⟨-, -, hother, -⟩ := withPathAndQuery_eq_ok_iff.1 hraw
    rw [hform] at hother
    cases hother

/-- A target that can come about, unless it is an authority alone, has a path or a scheme. -/
theorem Reachable.hasPathOrScheme {t : Target} (ht : Reachable t)
    (hform : t.isAuthorityForm = false) : (t.pathAndQuery.isNone && t.scheme.isNone) = false := by
  cases form_of_reachable ht with
  | path => rfl
  | absolute => simp
  | authority => cases hform

/-- The path of a well-formed target, or the root, holds no question mark. -/
theorem IsWellFormed.not_mem_path {t : Target} (ht : t.IsWellFormed) :
    '?' ∉ (t.path?.getD "/").toList := by
  unfold path?
  cases hp : t.pathAndQuery with
  | none => simp
  | some p => exact (ht.pathAndQuery p hp).not_mem_path

/-- The query of a well-formed target is visible. -/
theorem IsWellFormed.visible_query? {t : Target} (ht : t.IsWellFormed) :
    ∀ c ∈ (t.query?.getD "").toList, PathAndQuery.IsVisible c := by
  unfold query?
  cases hp : t.pathAndQuery with
  | none => simp
  | some p => exact fun c hc => (ht.pathAndQuery p hp).visible c (List.mem_append_right _ hc)

/-- A query goes behind the path of a well-formed target, or the root, where it is visible; behind
the asterisk there is none. -/
theorem IsWellFormed.place_iff {t : Target} (ht : t.IsWellFormed) {query : Option String} :
    PathAndQuery.IsWellFormed ⟨t.path?.getD "/", query⟩ ↔
      (t.path? = some "*" → query = none) ∧
        ∀ c ∈ (query.getD "").toList, PathAndQuery.IsVisible c := by
  have hpath : ∀ c ∈ (t.path?.getD "/").toList, PathAndQuery.IsVisible c := by
    unfold path?
    cases hp : t.pathAndQuery with
    | none =>
        intro c hc
        obtain rfl : c = '/' := by simpa using hc
        decide
    | some p => exact fun c hc => (ht.pathAndQuery p hp).visible c (List.mem_append_left _ hc)
  constructor
  · intro h
    refine ⟨fun hstar => ?_, fun c hc => h.visible c (List.mem_append_right _ hc)⟩
    rcases h.shape with hshape | ⟨⟨rest, hrest⟩, -⟩
    · exact congrArg PathAndQuery.query hshape
    · simp [hstar] at hrest
  · rintro ⟨hstar, hquery⟩
    refine ⟨?_, fun c hc => (List.mem_append.1 hc).elim (hpath c) (hquery c)⟩
    by_cases hcase : t.path? = some "*"
    · exact .inl (by rw [hcase, hstar hcase]; rfl)
    · refine .inr ⟨?_, ht.not_mem_path⟩
      revert hcase
      unfold path?
      cases hp : t.pathAndQuery with
      | none => exact fun _ => ⟨[], by simp⟩
      | some p =>
          intro hcase
          rcases (ht.pathAndQuery p hp).shape with rfl | ⟨hslash, -⟩
          · exact absurd rfl hcase
          · exact hslash

/-! ## Appending a fragment -/

/-- A fragment that is not empty is appended by reading the path with the query and the fragment
behind it. -/
theorem appendQuery_eq (t : Target) (fragment : Option String) :
    t.appendQuery fragment =
      match fragment.bind nonempty? with
      | none => .ok t
      | some fragment => t.withPathAndQuery
          (PathAndQuery.text ⟨t.path?.getD "/", joinedQuery? t.query? (some fragment)⟩) := by
  cases fragment with
  | none => rfl
  | some fragment =>
      rw [appendQuery, Option.bind_some, nonempty?]
      split
      · rfl
      · obtain ⟨scheme, authority, pathAndQuery⟩ := t
        cases pathAndQuery with
        | none => rfl
        | some p =>
            obtain ⟨path, query⟩ := p
            cases query with
            | none => rfl
            | some query =>
                have hjoined : path ++ "?" ++ query ++ "&" ++ fragment =
                    path ++ "?" ++ (query ++ "&" ++ fragment) := by
                  simp only [String.append_assoc]
                exact congrArg (withPathAndQuery _) hjoined

/-- The characters of a query with a fragment behind it are visible where those of the fragment
are. -/
theorem IsWellFormed.visible_joinedQuery?_iff {t : Target} (ht : t.IsWellFormed)
    {fragment : String} :
    (∀ c ∈ ((joinedQuery? t.query? (some fragment)).getD "").toList, PathAndQuery.IsVisible c) ↔
      ∀ c ∈ fragment.toList, PathAndQuery.IsVisible c := by
  have hown := ht.visible_query?
  cases hquery : t.query? with
  | none => rfl
  | some query =>
      have hmark : PathAndQuery.IsVisible '&' := by decide
      rw [hquery, Option.getD_some] at hown
      rw [joinedQuery?, Option.getD_some, toList_ampersand, List.forall_mem_append,
        List.forall_mem_cons]
      exact ⟨fun h => h.2.2, fun h => ⟨hown, hmark, h⟩⟩

/-- When a fragment that is not empty is appended, and what the target is then. -/
theorem appendQuery_eq_ok_iff {t u : Target} {fragment : String} (ht : t.IsWellFormed)
    (hfragment : fragment ≠ "") :
    t.appendQuery (some fragment) = .ok u ↔
      (∀ c ∈ fragment.toList, PathAndQuery.IsVisible c) ∧ t.isAuthorityForm = false ∧
        t.path? ≠ some "*" ∧ u = { t with
          pathAndQuery := some ⟨t.path?.getD "/", joinedQuery? t.query? (some fragment)⟩ } := by
  have hjoined : joinedQuery? t.query? (some fragment) ≠ none := by
    cases t.query? <;> simp [joinedQuery?]
  rw [appendQuery_eq, Option.bind_some, nonempty?, if_neg hfragment]
  dsimp only
  rw [withPathAndQuery_text_eq_ok_iff ht.not_mem_path, ht.place_iff, ht.visible_joinedQuery?_iff]
  constructor
  · rintro ⟨⟨hstar, hvisible⟩, hform, hu⟩
    exact ⟨hvisible, hform, fun hpath => hjoined (hstar hpath), hu⟩
  · rintro ⟨hvisible, hform, hpath, hu⟩
    exact ⟨⟨fun hstar => absurd hstar hpath, hvisible⟩, hform, hu⟩

/-- A fragment that is not empty goes to the end of the query, and there is a path then. -/
theorem movedTo_of_appendQuery {t u : Target} {fragment : Option String} (ht : t.IsWellFormed)
    (h : t.appendQuery fragment = .ok u) :
    MovedTo t u (t.path?.or ((fragment.bind nonempty?).map fun _ => "/"))
      (joinedQuery? t.query? (fragment.bind nonempty?)) := by
  rw [appendQuery_eq] at h
  cases hfragment : fragment.bind nonempty? with
  | none =>
      rw [hfragment] at h
      obtain rfl := Except.ok.inj h
      rw [Option.map_none, Option.or_none, joinedQuery?_none]
      exact MovedTo.refl t
  | some fragment =>
      rw [hfragment] at h
      have hmoved := movedTo_of_withPathAndQuery ht.not_mem_path h
      cases hpath : t.path? <;> simpa [hpath] using hmoved

/-! ## Replacing the path -/

/-- An authority alone stays as it is where a path is replaced. -/
theorem replacePath_of_isAuthorityForm {t : Target} (ht : Reachable t)
    (hform : t.isAuthorityForm = true) (path : Option String) : t.replacePath path = .ok t := by
  cases form_of_reachable ht with
  | path => cases hform
  | absolute => cases hform
  | authority => cases path <;> rfl

/-- When the path is replaced in a target other than an authority alone, and what the target is
then. -/
theorem replacePath_eq_ok_iff {t u : Target} {path : String} (ht : Reachable t)
    (hform : t.isAuthorityForm = false) :
    t.replacePath (some path) = .ok u ↔ PathAndQuery.IsWellFormed ⟨orRoot path, t.query?⟩ ∧
      u = { t with pathAndQuery := some ⟨orRoot path, t.query?⟩ } := by
  rw [replacePath, ht.hasPathOrScheme hform]
  change (if (orRoot path).toList.contains '?' = true then _ else _) = _ ↔ _
  split
  · rename_i hmark
    have hpath : '?' ∈ (orRoot path).toList := by simpa using hmark
    constructor
    · intro h
      cases h
    · rintro ⟨hwell, -⟩
      exact absurd hpath hwell.not_mem_path
  · rename_i hmark
    have hpath : '?' ∉ (orRoot path).toList := by simpa using hmark
    have hread : t.withPathAndQuery (PathAndQuery.text ⟨orRoot path, t.query?⟩) = .ok u ↔ _ :=
      withPathAndQuery_text_eq_ok_iff hpath
    rw [and_iff_right hform] at hread
    rw [← hread]
    change (match t.query? with | none => _ | some query => _) = _ ↔ _
    cases t.query? <;> rfl

/-- The path is replaced in all targets that can come about but an authority alone, and the query
stays. -/
theorem movedTo_of_replacePath {t u : Target} {path : Option String} (ht : Reachable t)
    (hform : t.isAuthorityForm = false) (h : t.replacePath path = .ok u) :
    MovedTo t u ((path.map orRoot).or t.path?) t.query? := by
  cases path with
  | none =>
      obtain rfl := Except.ok.inj h
      exact MovedTo.refl t
  | some path =>
      obtain ⟨-, rfl⟩ := (replacePath_eq_ok_iff ht hform).1 h
      exact ⟨rfl, rfl, rfl, rfl⟩

/-! ## Replacing parameters -/

/-- Parameters are replaced by reading the path with the query that is written of all. -/
theorem replaceParameters_eq (t : Target) (written : Parameters) :
    t.replaceParameters (some written) =
      (Parameters.decode (t.query?.getD "")).bind fun own => t.withPathAndQuery
        (PathAndQuery.text ⟨t.path?.getD "/", nonempty? (own.overlay written).encode⟩) := by
  have htext : ∀ path query : String, (if query = "" then path else path ++ "?" ++ query) =
      PathAndQuery.text ⟨path, nonempty? query⟩ := by
    intro path query
    rw [nonempty?]
    split <;> rfl
  simp only [← htext]
  rfl

/-- A query that is written is visible. -/
theorem visible_nonempty?_encode (p : Parameters) :
    ∀ c ∈ ((nonempty? p.encode).getD "").toList, PathAndQuery.IsVisible c := by
  rw [getD_nonempty?]
  intro c hc
  exact PathAndQuery.isAllowed_iff.1
    (Parameters.isAllowed_of_isWritten (Parameters.isWritten_of_mem_encode hc))

/-- When parameters are replaced, and what the target is then. -/
theorem replaceParameters_eq_ok_iff {t u : Target} {written : Parameters} (ht : t.IsWellFormed) :
    t.replaceParameters (some written) = .ok u ↔
      ∃ own, Parameters.decode (t.query?.getD "") = .ok own ∧ t.isAuthorityForm = false ∧
        (t.path? = some "*" → own.overlay written = []) ∧ u = { t with
          pathAndQuery := some ⟨t.path?.getD "/", nonempty? (own.overlay written).encode⟩ } := by
  have hempty : ∀ p : Parameters, nonempty? p.encode = none ↔ p = [] := by
    intro p
    rw [nonempty?, ← Parameters.encode_eq_empty_iff]
    split <;> simp_all
  rw [replaceParameters_eq]
  cases hown : Parameters.decode (t.query?.getD "") with
  | error fault => simp [Except.bind]
  | ok own =>
      have hplace : PathAndQuery.IsWellFormed
            ⟨t.path?.getD "/", nonempty? (own.overlay written).encode⟩ ↔
          (t.path? = some "*" → own.overlay written = []) := by
        rw [ht.place_iff, hempty]
        exact and_iff_left (visible_nonempty?_encode _)
      change t.withPathAndQuery _ = .ok u ↔ _
      rw [withPathAndQuery_text_eq_ok_iff ht.not_mem_path, hplace]
      constructor
      · rintro ⟨hstar, hform, hu⟩
        exact ⟨own, rfl, hform, hstar, hu⟩
      · rintro ⟨other, hother, hform, hstar, hu⟩
        obtain rfl := Except.ok.inj hother
        exact ⟨hstar, hform, hu⟩

/-- Parameters are replaced by writing them over those of the query, and there is a path then. -/
theorem movedTo_of_replaceParameters {t u : Target} {written : Parameters} (ht : t.IsWellFormed)
    (h : t.replaceParameters (some written) = .ok u) :
    ∃ own, Parameters.decode (t.query?.getD "") = .ok own ∧
      MovedTo t u (some (t.path?.getD "/")) (nonempty? (own.overlay written).encode) := by
  obtain ⟨own, hown, -, -, rfl⟩ := (replaceParameters_eq_ok_iff ht).1 h
  exact ⟨own, hown, rfl, rfl, rfl, rfl⟩

/-! ## Parameters of a query in two parts -/

/-- A query with a fragment behind it has the pieces of both. -/
theorem pieces_joinedQuery? (query fragment : Option String) :
    Parameters.pieces ((joinedQuery? query fragment).getD "").toList =
      Parameters.pieces (query.getD "").toList ++ Parameters.pieces (fragment.getD "").toList := by
  have hnone : Parameters.pieces [] = [] := rfl
  cases query with
  | none => cases fragment <;> simp [joinedQuery?, hnone]
  | some query =>
      cases fragment with
      | none => simp [hnone]
      | some fragment =>
          simp only [joinedQuery?, Option.getD_some, Parameters.pieces, toList_ampersand,
            piecesAt_append_mark, List.filter_append]

/-- A query with a fragment behind it can be decoded where both can, to the parameters of the
fragment written over those of the query. -/
theorem decode_joinedQuery?_eq_ok_iff {query fragment : Option String} {p : Parameters} :
    Parameters.decode ((joinedQuery? query fragment).getD "") = .ok p ↔
      ∃ own, Parameters.decode (query.getD "") = .ok own ∧
        ∃ added, Parameters.decode (fragment.getD "") = .ok added ∧ own.overlay added = p := by
  simp only [Parameters.decode_eq_ok_iff,
    Parameters.decode?_of_pieces (pieces_joinedQuery? query fragment), Option.bind_eq_some_iff,
    Option.map_eq_some_iff]

end Target

end FaultInjection
