import FaultInjection.Target.Parameters

/-!
# Request targets - Well-formed targets

However a target came about, by reading a text or by rewrites of one that was read, its
path and query are made of visible characters and stand where a path and query may
stand.  A rewrite can build any text it likes, since the text is read as a whole again.

Main definitions:

- `PathAndQuery.IsVisible`, for the characters of a path and query.
- `PathAndQuery.IsWellFormed` and `Target.IsWellFormed`.
- `Target.Reachable`, the targets that reading and rewriting make.
- `PathAndQuery.IsSafe`, for a text that may stand on a request line.

Main results:

- `PathAndQuery.parse_eq_ok_iff`: which texts are read, and as what.
- `Target.Reachable.induction`: what holds of every target that can come about.
- `Target.isWellFormed_of_reachable`: the targets that can come about are well formed.
- `PathAndQuery.isSafe_text`: the text of a well-formed path and query is safe.
-/

namespace FaultInjection

/-- Letters and digits by their code points. -/
theorem toNat_of_isAlphanum {c : Char} (h : c.isAlphanum = true) :
    (0x30 ≤ c.toNat ∧ c.toNat ≤ 0x39) ∨ (0x41 ≤ c.toNat ∧ c.toNat ≤ 0x5a) ∨
      (0x61 ≤ c.toNat ∧ c.toNat ≤ 0x7a) := by
  have hranges : (decide ('A'.val ≤ c.val ∧ c.val ≤ 'Z'.val) ||
      ('a'.val ≤ c.val && c.val ≤ 'z'.val) || ('0'.val ≤ c.val && c.val ≤ '9'.val)) = true := h
  have hcode : c.val.toNat = c.toNat := rfl
  simp only [Bool.or_eq_true, Bool.and_eq_true, decide_eq_true_eq, UInt32.le_iff_toNat_le, hcode,
    Char.reduceVal, UInt32.reduceToNat] at hranges
  omega

/-! ## Steps that may fail -/

section Steps

variable {α β ε : Type} {first : Except ε α} {next : α → Except ε β}

/-- There is a fault where there is no result. -/
theorem exists_error_iff {r : Except ε α} : (∃ fault, r = .error fault) ↔ ¬ ∃ a, r = .ok a := by
  cases r <;> simp

/-- Two steps succeed where the first does and the second after it. -/
theorem bind_eq_ok_iff {b : β} :
    first >>= next = .ok b ↔ ∃ a, first = .ok a ∧ next a = .ok b := by
  cases first with
  | error fault => simp [bind, Except.bind]
  | ok a => simp [bind, Except.bind]

/-- Two steps fail where the first does, or the second after it. -/
theorem bind_eq_error_iff {fault : ε} :
    first >>= next = .error fault ↔
      first = .error fault ∨ ∃ a, first = .ok a ∧ next a = .error fault := by
  cases first with
  | error found => simp [bind, Except.bind]
  | ok a => simp [bind, Except.bind]

end Steps

namespace PathAndQuery

/-! ## Reading a path and query -/

/-- The characters of a path and query: visible ones up to U+00FF, without the number sign. -/
def IsVisible (c : Char) : Prop :=
  c.toNat = 0x21 ∨ c.toNat = 0x22 ∨ (0x24 ≤ c.toNat ∧ c.toNat ≤ 0x7e) ∨
    (0x80 ≤ c.toNat ∧ c.toNat ≤ 0xff)

instance (c : Char) : Decidable (IsVisible c) := inferInstanceAs (Decidable (_ ∨ _))

/-- The characters of a path and query by their code points. -/
theorem isAllowed_iff {c : Char} :
    isAllowed c = true ↔ c.toNat = 0x21 ∨ c.toNat = 0x22 ∨ (0x24 ≤ c.toNat ∧ c.toNat ≤ 0x7e) ∨
      (0x80 ≤ c.toNat ∧ c.toNat ≤ 0xff) := by
  simp only [isAllowed, Bool.or_eq_true, Bool.and_eq_true, beq_iff_eq, decide_eq_true_eq, or_assoc]

/-- A text is the asterisk or begins with a slash. -/
theorem startsPath_iff {cs : List Char} :
    startsPath cs = true ↔ cs = ['*'] ∨ ∃ rest, cs = '/' :: rest := by
  unfold startsPath
  split
  · simp
  · rename_i hslash
    simp only [beq_iff_eq]
    refine ⟨.inl, ?_⟩
    rintro (hstar | ⟨rest, hrest⟩)
    · exact hstar
    · exact absurd hrest (hslash rest)

/-- A text is read as a path and query exactly where it begins like one and is made of the
characters of one, and then it is cut at its first question mark. -/
theorem parse_eq_ok_iff {raw : String} {p : PathAndQuery} :
    parse raw = .ok p ↔ startsPath raw.toList = true ∧
      (∀ c ∈ raw.toList, isAllowed c = true) ∧ p = ofChars raw.toList := by
  unfold parse
  cases hstart : startsPath raw.toList with
  | false => simp
  | true =>
      simp only [← List.all_eq_true]
      cases raw.toList.all isAllowed with
      | false => simp
      | true => simpa using eq_comm

/-- A path and query that is cut from characters has these characters as its text. -/
theorem text_ofChars (cs : List Char) : (ofChars cs).text.toList = cs := by
  rcases hcut : cutAtFirst '?' cs with ⟨path, query⟩
  cases query with
  | none =>
      obtain ⟨rfl, -⟩ := (cutAtFirst_eq_none_iff '?' cs path).1 hcut
      simp [ofChars, text, hcut]
  | some query =>
      obtain ⟨rfl, -⟩ := (cutAtFirst_eq_some_iff '?' cs path query).1 hcut
      simp [ofChars, text, hcut]

/-- A path without a question mark has no query. -/
theorem ofChars_of_not_mem {path : List Char} (h : '?' ∉ path) :
    ofChars path = ⟨String.ofList path, none⟩ := by
  rw [ofChars, (cutAtFirst_eq_none_iff '?' path path).2 ⟨rfl, h⟩]
  rfl

/-- What stands behind the first question mark is the query. -/
theorem ofChars_append_cons {path : List Char} (h : '?' ∉ path) (query : List Char) :
    ofChars (path ++ '?' :: query) = ⟨String.ofList path, some (String.ofList query)⟩ := by
  rw [ofChars, (cutAtFirst_eq_some_iff '?' _ path query).2 ⟨rfl, h⟩]
  rfl

/-- A path without a question mark is cut off from the query behind it. -/
theorem ofChars_text {p : PathAndQuery} (h : '?' ∉ p.path.toList) : ofChars p.text.toList = p := by
  obtain ⟨path, query⟩ := p
  cases query with
  | none => rw [text, ofChars_of_not_mem h, String.ofList_toList]
  | some query =>
      have hchars : (path ++ "?" ++ query).toList = path.toList ++ '?' :: query.toList := by simp
      rw [text, hchars, ofChars_append_cons h, String.ofList_toList, String.ofList_toList]

/-! ## Well-formed paths and queries -/

/-- A path and query as it may stand on a request line. -/
structure IsWellFormed (p : PathAndQuery) : Prop where
  /-- It is the asterisk alone, or its path begins with a slash and holds no question mark. -/
  shape : p = ⟨"*", none⟩ ∨ (∃ rest, p.path.toList = '/' :: rest) ∧ '?' ∉ p.path.toList
  /-- Its characters are visible ones up to U+00FF, without the number sign. -/
  visible : ∀ c ∈ p.path.toList ++ (p.query.getD "").toList,
    c.toNat = 0x21 ∨ c.toNat = 0x22 ∨ (0x24 ≤ c.toNat ∧ c.toNat ≤ 0x7e) ∨
      (0x80 ≤ c.toNat ∧ c.toNat ≤ 0xff)

/-- The characters of path and query are among those of the text. -/
theorem mem_text {p : PathAndQuery} {c : Char}
    (hc : c ∈ p.path.toList ++ (p.query.getD "").toList) : c ∈ p.text.toList := by
  unfold text
  cases hquery : p.query with
  | none => simpa [hquery] using hc
  | some query =>
      simp only [hquery, Option.getD_some, List.mem_append] at hc
      simp only [String.toList_append, List.mem_append]
      rcases hc with hpath | hquery
      · exact .inl (.inl hpath)
      · exact .inr hquery

/-- What is read as a path and query is well formed. -/
theorem isWellFormed_of_parse {raw : String} {p : PathAndQuery} (h : parse raw = .ok p) :
    p.IsWellFormed := by
  obtain ⟨hstart, hall, rfl⟩ := parse_eq_ok_iff.1 h
  constructor
  · rcases startsPath_iff.1 hstart with hstar | ⟨rest, hslash⟩
    · rw [hstar]
      exact .inl rfl
    · refine .inr ⟨⟨(cutAtFirst '?' rest).1, ?_⟩, ?_⟩
      · simp [ofChars, hslash, cutAtFirst]
      · simpa [ofChars] using not_mem_cutAtFirst '?' raw.toList
  · intro c hc
    have hmem := mem_text hc
    rw [text_ofChars] at hmem
    exact isAllowed_iff.1 (hall c hmem)

/-! ## Safe texts -/

/-- A text that may stand on a request line: it is the asterisk or begins with a slash, and it
holds no space, no control and no number sign. -/
structure IsSafe (s : String) : Prop where
  start : s = "*" ∨ ∃ rest, s.toList = '/' :: rest
  visible : ∀ c ∈ s.toList, 0x20 < c.toNat ∧ c.toNat ≠ 0x7f ∧ c ≠ '#'

/-- The characters of the text are those of path and query and the question mark. -/
theorem mem_or_of_mem_text {p : PathAndQuery} {c : Char} (hc : c ∈ p.text.toList) :
    c ∈ p.path.toList ++ (p.query.getD "").toList ∨ c = '?' := by
  unfold text at hc
  cases hquery : p.query with
  | none =>
      rw [hquery] at hc
      exact .inl (List.mem_append_left _ hc)
  | some query =>
      simp only [hquery, String.toList_append, List.mem_append] at hc
      rcases hc with (hpath | hmark) | htail
      · exact .inl (List.mem_append_left _ hpath)
      · exact .inr (by simpa using hmark)
      · exact .inl (List.mem_append_right _ htail)

/-- The text of a well-formed path and query may stand on a request line. -/
theorem isSafe_text {p : PathAndQuery} (hp : p.IsWellFormed) : IsSafe p.text := by
  constructor
  · rcases hp.shape with rfl | ⟨⟨rest, hrest⟩, -⟩
    · exact .inl rfl
    · right
      unfold text
      cases p.query with
      | none => exact ⟨rest, hrest⟩
      | some query => exact ⟨rest ++ '?' :: query.toList, by simp [hrest]⟩
  · intro c hc
    have hcode : c.toNat = 0x21 ∨ c.toNat = 0x22 ∨ (0x24 ≤ c.toNat ∧ c.toNat ≤ 0x7e) ∨
        (0x80 ≤ c.toNat ∧ c.toNat ≤ 0xff) := by
      rcases mem_or_of_mem_text hc with hmem | rfl
      · exact hp.visible c hmem
      · decide
    refine ⟨by omega, by omega, ?_⟩
    rintro rfl
    revert hcode
    decide

end PathAndQuery

/-! ## Well-formed targets -/

namespace Target

/-- A target as it may stand on a request line. -/
structure IsWellFormed (t : Target) : Prop where
  pathAndQuery : ∀ p, t.pathAndQuery = some p → p.IsWellFormed
  /-- A scheme comes with an authority, without characters that end one and without controls. -/
  authority : t.scheme.isSome = true → ∃ authority, t.authority = some authority ∧
    authority ≠ "" ∧ ∀ c ∈ authority.toList,
      0x20 < c.toNat ∧ c.toNat ≠ 0x7f ∧ c ≠ '/' ∧ c ≠ '?' ∧ c ≠ '#'
  /-- An authority alone has no path. -/
  authorityAlone : t.authority.isSome = true → t.scheme = none → t.pathAndQuery = none

/-- The targets that can come about: those that are read, and those that rewrites make of them. -/
inductive Reachable : Target → Prop
  | read {raw : String} {t : Target} : Target.parse raw = .ok t → Reachable t
  | appended {t u : Target} (fragment : Option String) : Reachable t →
      t.appendQuery fragment = .ok u → Reachable u
  | pathReplaced {t u : Target} (path : Option String) : Reachable t →
      t.replacePath path = .ok u → Reachable u
  | parametersReplaced {t u : Target} (parameters : Option Parameters) : Reachable t →
      t.replaceParameters parameters = .ok u → Reachable u
  | replaced {t u : Target} (raw : String) : Reachable t →
      t.withPathAndQuery raw = .ok u → Reachable u

/-! ## Reading -/

/-- The characters of an authority by their code points. -/
theorem isAuthorityChar_iff {c : Char} :
    isAuthorityChar c = true ↔
      0x20 < c.toNat ∧ c.toNat ≠ 0x7f ∧ c ≠ '/' ∧ c ≠ '?' ∧ c ≠ '#' := by
  simp [isAuthorityChar, endsAuthority, and_assoc]

/-- What a target is read as: a path and query, an absolute target with or without one, or an
authority alone. -/
inductive ReadAs (raw : String) : Target → Prop
  | path (p : PathAndQuery) (hparse : PathAndQuery.parse raw = .ok p) :
      ReadAs raw { pathAndQuery := some p }
  | absolute (scheme authority : List Char) (habsolute : absolute? raw.toList =
      some (scheme, authority, [])) (hauthority : isAuthority authority = true) :
      ReadAs raw {
        scheme := some (String.ofList scheme)
        authority := some (String.ofList authority) }
  | absolutePath (scheme authority tail : List Char) (p : PathAndQuery)
      (habsolute : absolute? raw.toList = some (scheme, authority, tail))
      (hauthority : isAuthority authority = true) (htail : tail ≠ [])
      (hparse : PathAndQuery.parse (tailText tail) = .ok p) :
      ReadAs raw {
        scheme := some (String.ofList scheme)
        authority := some (String.ofList authority)
        pathAndQuery := some p }
  | authority (hstart : PathAndQuery.startsPath raw.toList = false)
      (hauthority : isAuthority raw.toList = true) : ReadAs raw { authority := some raw }

/-- A text that is read as a target is read in one of these ways. -/
theorem readAs_of_parse {raw : String} {t : Target} (h : parse raw = .ok t) : ReadAs raw t := by
  unfold parse at h
  dsimp only at h
  cases hstart : PathAndQuery.startsPath raw.toList with
  | true =>
      rw [hstart] at h
      cases hparse : PathAndQuery.parse raw with
      | error fault => simp [hparse, Except.map] at h
      | ok p =>
          simp only [hparse, Except.map, if_true, Except.ok.injEq] at h
          exact h ▸ .path p hparse
  | false =>
      simp only [hstart, Bool.false_eq_true, if_false] at h
      cases habsolute : absolute? raw.toList with
      | none =>
          cases hauthority : isAuthority raw.toList with
          | false => simp [habsolute, hauthority] at h
          | true =>
              simp only [habsolute, hauthority, if_true, Except.ok.injEq] at h
              exact h ▸ .authority hstart hauthority
      | some parts =>
          obtain ⟨scheme, authority, tail⟩ := parts
          cases hauthority : isAuthority authority with
          | false => simp [habsolute, hauthority] at h
          | true =>
              cases tail with
              | nil =>
                  simp only [habsolute, hauthority, Bool.not_true, Bool.false_eq_true, if_false,
                    List.isEmpty_nil, if_true, Except.ok.injEq] at h
                  exact h ▸ .absolute scheme authority habsolute hauthority
              | cons first rest =>
                  cases hparse : PathAndQuery.parse (tailText (first :: rest)) with
                  | error fault => simp [habsolute, hauthority, hparse, Except.map] at h
                  | ok p =>
                      simp only [habsolute, hauthority, hparse, Except.map, Bool.not_true,
                        Bool.false_eq_true, if_false, List.isEmpty_cons, Except.ok.injEq] at h
                      exact h ▸ .absolutePath scheme authority _ p habsolute hauthority
                        (List.cons_ne_nil _ _) hparse

/-- An authority that was read has no character that ends one. -/
theorem authority_of_isAuthority {cs : List Char} (h : isAuthority cs = true) :
    String.ofList cs ≠ "" ∧ ∀ c ∈ (String.ofList cs).toList,
      0x20 < c.toNat ∧ c.toNat ≠ 0x7f ∧ c ≠ '/' ∧ c ≠ '?' ∧ c ≠ '#' := by
  simp only [isAuthority, Bool.and_eq_true, Bool.not_eq_true', List.all_eq_true] at h
  obtain ⟨hne, hall⟩ := h
  constructor
  · intro hempty
    have hnil : cs = [] := by simpa using congrArg String.toList hempty
    simp [hnil] at hne
  · intro c hc
    rw [String.toList_ofList] at hc
    exact isAuthorityChar_iff.1 (hall c hc)

/-- A target that is read is well formed. -/
theorem isWellFormed_of_parse {raw : String} {t : Target} (h : parse raw = .ok t) :
    t.IsWellFormed := by
  cases readAs_of_parse h with
  | path p hparse =>
      refine ⟨fun q hq => ?_, by simp, by simp⟩
      cases hq
      exact PathAndQuery.isWellFormed_of_parse hparse
  | absolute scheme authority habsolute hauthority =>
      exact ⟨by simp, fun _ => ⟨_, rfl, authority_of_isAuthority hauthority⟩, by simp⟩
  | absolutePath scheme authority tail p habsolute hauthority htail hparse =>
      refine ⟨fun q hq => ?_, fun _ => ⟨_, rfl, authority_of_isAuthority hauthority⟩, by simp⟩
      cases hq
      exact PathAndQuery.isWellFormed_of_parse hparse
  | authority hstart hauthority => exact ⟨by simp, by simp, by simp⟩

/-! ## Rewriting -/

/-- A path and query is put into a target other than an authority alone. -/
theorem withPathAndQuery_eq_ok_iff {t u : Target} {raw : String} :
    t.withPathAndQuery raw = .ok u ↔ ∃ p, PathAndQuery.parse raw = .ok p ∧
      t.isAuthorityForm = false ∧ u = { t with pathAndQuery := some p } := by
  unfold withPathAndQuery
  cases hparse : PathAndQuery.parse raw with
  | error fault => simp [bind, Except.bind]
  | ok p =>
      cases hform : t.isAuthorityForm with
      | true => simp [bind, Except.bind]
      | false => simpa [bind, Except.bind] using eq_comm

/-- A fragment that is appended leaves the target, or makes one with another path and query. -/
theorem eq_or_of_appendQuery {t u : Target} {fragment : Option String}
    (h : t.appendQuery fragment = .ok u) : u = t ∨ ∃ raw, t.withPathAndQuery raw = .ok u := by
  unfold appendQuery at h
  split at h
  · exact .inl (Except.ok.inj h).symm
  · split at h
    · exact .inl (Except.ok.inj h).symm
    · split at h
      · exact .inr ⟨_, h⟩
      · exact .inr ⟨_, h⟩

/-- A path that is replaced leaves the target, or makes one with another path and query. -/
theorem eq_or_of_replacePath {t u : Target} {path : Option String}
    (h : t.replacePath path = .ok u) : u = t ∨ ∃ raw, t.withPathAndQuery raw = .ok u := by
  unfold replacePath at h
  split at h
  · exact .inl (Except.ok.inj h).symm
  · rename_i path
    split at h
    · exact .inl (Except.ok.inj h).symm
    · dsimp only at h
      -- Which path is read in the end is of no account.
      generalize (if path = "" then "/" else path) = next at h
      split at h
      · cases h
      · split at h
        · exact .inr ⟨_, h⟩
        · exact .inr ⟨_, h⟩

/-- Parameters that are replaced leave the target, or make one with another path and query. -/
theorem eq_or_of_replaceParameters {t u : Target} {parameters : Option Parameters}
    (h : t.replaceParameters parameters = .ok u) :
    u = t ∨ ∃ raw, t.withPathAndQuery raw = .ok u := by
  unfold replaceParameters at h
  split at h
  · exact .inl (Except.ok.inj h).symm
  · rename_i parameters
    cases hown : Parameters.decode ((t.pathAndQuery.bind PathAndQuery.query).getD "") with
    | error fault => simp [hown, bind, Except.bind] at h
    | ok own =>
        simp only [hown, bind, Except.bind] at h
        exact .inr ⟨_, h⟩

/-- What holds of every target that is read, and stays true with another path and query, holds of
every target that can come about. -/
theorem Reachable.induction {P : Target → Prop}
    (hread : ∀ {raw : String} {t : Target}, parse raw = .ok t → P t)
    (hwrite : ∀ {t u : Target} {raw : String}, P t → t.withPathAndQuery raw = .ok u → P u)
    {t : Target} (h : Reachable t) : P t := by
  have hrewrite : ∀ {t u : Target}, P t → (u = t ∨ ∃ raw, t.withPathAndQuery raw = .ok u) →
      P u := by
    rintro t u ht (rfl | ⟨raw, hraw⟩)
    · exact ht
    · exact hwrite ht hraw
  induction h with
  | read hparse => exact hread hparse
  | appended fragment _ hrewritten ih => exact hrewrite ih (eq_or_of_appendQuery hrewritten)
  | pathReplaced path _ hrewritten ih => exact hrewrite ih (eq_or_of_replacePath hrewritten)
  | parametersReplaced parameters _ hrewritten ih =>
      exact hrewrite ih (eq_or_of_replaceParameters hrewritten)
  | replaced raw _ hrewritten ih => exact hwrite ih hrewritten

/-- A well-formed target stays so with another path and query. -/
theorem IsWellFormed.withPathAndQuery {t u : Target} {raw : String} (ht : t.IsWellFormed)
    (h : t.withPathAndQuery raw = .ok u) : u.IsWellFormed := by
  obtain ⟨p, hparse, hform, rfl⟩ := withPathAndQuery_eq_ok_iff.1 h
  refine ⟨fun q hq => ?_, ht.authority, fun hauthority hscheme => ?_⟩
  · cases hq
    exact PathAndQuery.isWellFormed_of_parse hparse
  · simp only [isAuthorityForm, Bool.and_eq_false_iff] at hform
    simp_all

/-- A well-formed target stays so with a fragment behind its query. -/
theorem IsWellFormed.appendQuery {t u : Target} {fragment : Option String} (ht : t.IsWellFormed)
    (h : t.appendQuery fragment = .ok u) : u.IsWellFormed := by
  rcases eq_or_of_appendQuery h with rfl | ⟨raw, hraw⟩
  · exact ht
  · exact ht.withPathAndQuery hraw

/-- The targets that can come about are well formed. -/
theorem isWellFormed_of_reachable {t : Target} (h : Reachable t) : t.IsWellFormed :=
  h.induction isWellFormed_of_parse IsWellFormed.withPathAndQuery

end Target

end FaultInjection
