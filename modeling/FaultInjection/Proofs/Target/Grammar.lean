import FaultInjection.Proofs.Target.RoundTrip

/-!
# Request targets - The grammar of targets

A text is a target in three ways: as a path with an optional query, as a scheme and an
authority with an optional path and query behind them, and as an authority alone.  The
grammar says so without the reader; it is unambiguous, and the reader takes the texts of
the grammar and no others.  The text of a target that was read is the text it was read
from, but for the slash that a query without a path gets.

Main definitions:

- `PathAndQuery.CutAs`, a text as a path and a query.
- `Target.IsPathText`, `Target.IsAbsoluteText` and `Target.IsAuthorityAlone`, the three
  forms of texts.
- `Target.Denotes`, the target that a text of the grammar stands for.

Main results:

- `Target.parse_eq_ok_iff_denotes`: what is read is what the text stands for.
- `Target.readsGrammar`: the grammar is unambiguous, and nothing else is read.
- `Target.printsBack`: the texts of targets that were read.
-/

namespace FaultInjection

/-! ## Paths and queries -/

namespace PathAndQuery

/-- A text is a path, or a path and a query with the first question mark between them. -/
inductive CutAs : List Char → PathAndQuery → Prop
  | bare {path : List Char} (hmark : '?' ∉ path) : CutAs path ⟨String.ofList path, none⟩
  | query {path query : List Char} (hmark : '?' ∉ path) :
      CutAs (path ++ '?' :: query) ⟨String.ofList path, some (String.ofList query)⟩

/-- The path and query of a text are those that it is cut into. -/
theorem cutAs_iff {cs : List Char} {p : PathAndQuery} : CutAs cs p ↔ p = ofChars cs := by
  constructor
  · intro hcut
    cases hcut with
    | bare hmark => exact (ofChars_of_not_mem hmark).symm
    | query hmark => exact (ofChars_append_cons hmark _).symm
  · rintro rfl
    rcases hcut : cutAtFirst '?' cs with ⟨path, query⟩
    cases query with
    | none =>
        obtain ⟨rfl, hmark⟩ := (cutAtFirst_eq_none_iff '?' cs path).1 hcut
        rw [ofChars_of_not_mem hmark]
        exact .bare hmark
    | some query =>
        obtain ⟨rfl, hmark⟩ := (cutAtFirst_eq_some_iff '?' cs path query).1 hcut
        rw [ofChars_append_cons hmark]
        exact .query hmark

/-- The text of a path and query is the one that they are cut from. -/
theorem CutAs.text_eq {cs : List Char} {p : PathAndQuery} (h : CutAs cs p) :
    p.text = String.ofList cs := by
  rw [cutAs_iff.1 h]
  apply String.toList_injective
  rw [text_ofChars, String.toList_ofList]

end PathAndQuery

namespace Target

open PathAndQuery (IsVisible CutAs)

/-! ## Forms of texts -/

/-- The asterisk, or a slash and visible characters. -/
def IsPathText (cs : List Char) : Prop :=
  cs = ['*'] ∨ ∃ rest, cs = '/' :: rest ∧ ∀ c ∈ rest, IsVisible c

/-- Characters that an authority is made of, at least one. -/
structure IsAuthorityText (cs : List Char) : Prop where
  ne_nil : cs ≠ []
  chars : ∀ c ∈ cs, 0x20 < c.toNat ∧ c.toNat ≠ 0x7f ∧ c ≠ '/' ∧ c ≠ '?' ∧ c ≠ '#'

/-- A text is a scheme, a colon, two slashes and an authority, with a rest behind them that is
nothing or begins like a path or a query. -/
structure AbsoluteParts (cs scheme authority rest : List Char) : Prop where
  parts : cs = scheme ++ ':' :: '/' :: '/' :: (authority ++ rest)
  scheme : ∃ first others, scheme = first :: others ∧ first.isAlpha = true ∧
    ∀ c ∈ others, c.isAlphanum = true ∨ c = '+' ∨ c = '.' ∨ c = '-'
  authority : IsAuthorityText authority
  start : ∀ c ∈ rest.head?, c = '/' ∨ c = '?'
  visible : ∀ c ∈ rest, IsVisible c

/-- A text with a scheme. -/
def IsAbsoluteText (cs : List Char) : Prop :=
  ∃ scheme authority rest, AbsoluteParts cs scheme authority rest

/-- An authority other than the asterisk, which is a path. -/
def IsAuthorityAlone (cs : List Char) : Prop := IsAuthorityText cs ∧ cs ≠ ['*']

/-- The target that a text of the grammar stands for. -/
inductive Denotes : List Char → Target → Prop
  | path {cs : List Char} {p : PathAndQuery} (htext : IsPathText cs) (hcut : CutAs cs p) :
      Denotes cs { pathAndQuery := some p }
  | absolute {cs scheme authority : List Char} (htext : AbsoluteParts cs scheme authority []) :
      Denotes cs {
        scheme := some (String.ofList scheme)
        authority := some (String.ofList authority) }
  /-- A slash is put before a query that has no path. -/
  | absolutePath {cs scheme authority rest : List Char} {p : PathAndQuery}
      (htext : AbsoluteParts cs scheme authority rest) (hrest : rest ≠ [])
      (hcut : CutAs (rooted rest) p) :
      Denotes cs {
        scheme := some (String.ofList scheme)
        authority := some (String.ofList authority)
        pathAndQuery := some p }
  | authority {cs : List Char} (htext : IsAuthorityAlone cs) :
      Denotes cs { authority := some (String.ofList cs) }

/-! ## The forms exclude each other -/

/-- A path has no scheme, since it does not begin with a letter. -/
theorem IsPathText.not_absolute {cs : List Char} (h : IsPathText cs) : ¬ IsAbsoluteText cs := by
  rintro ⟨scheme, authority, tail, hparts, ⟨first, others, rfl, hfirst, -⟩, -⟩
  rcases h with rfl | ⟨tail, rfl, -⟩
  · simp at hparts
  · obtain rfl : '/' = first := (List.cons.inj hparts).1
    exact absurd hfirst (by decide)

/-- An authority holds no slash. -/
theorem IsAuthorityText.not_mem {cs : List Char} (h : IsAuthorityText cs) : '/' ∉ cs :=
  fun hmem => (h.chars '/' hmem).2.2.1 rfl

/-- A path is no authority. -/
theorem IsPathText.not_authority {cs : List Char} (h : IsPathText cs) : ¬ IsAuthorityAlone cs := by
  rintro ⟨hauthority, hstar⟩
  rcases h with rfl | ⟨rest, rfl, -⟩
  · exact hstar rfl
  · exact hauthority.not_mem List.mem_cons_self

/-- What has a scheme is no authority. -/
theorem IsAbsoluteText.not_authority {cs : List Char} (h : IsAbsoluteText cs) :
    ¬ IsAuthorityAlone cs := by
  obtain ⟨scheme, authority, rest, hparts⟩ := h
  intro halone
  exact halone.1.not_mem (by simp [hparts.parts])

/-! ## The forms and the reader -/

/-- The characters that the reader allows are those of the grammar. -/
theorem isPathText_iff {cs : List Char} :
    IsPathText cs ↔
      PathAndQuery.startsPath cs = true ∧ ∀ c ∈ cs, PathAndQuery.isAllowed c = true := by
  rw [PathAndQuery.startsPath_iff]
  constructor
  · rintro (rfl | ⟨rest, rfl, hrest⟩)
    · exact ⟨.inl rfl, List.forall_mem_singleton.2 rfl⟩
    · refine ⟨.inr ⟨rest, rfl⟩, List.forall_mem_cons.2 ⟨by decide, fun c hc => ?_⟩⟩
      exact PathAndQuery.isAllowed_iff.2 (hrest c hc)
  · rintro ⟨rfl | ⟨rest, rfl⟩, hall⟩
    · exact .inl rfl
    · refine .inr ⟨rest, rfl, fun c hc => ?_⟩
      exact PathAndQuery.isAllowed_iff.1 (hall c (List.mem_cons_of_mem _ hc))

/-- A path and query is read from a path, cut at its first question mark. -/
theorem parsePath_eq_ok_iff {raw : String} {p : PathAndQuery} :
    PathAndQuery.parse raw = .ok p ↔ IsPathText raw.toList ∧ CutAs raw.toList p := by
  rw [PathAndQuery.parse_eq_ok_iff, isPathText_iff, PathAndQuery.cutAs_iff, and_assoc]

/-- The authorities of the reader are those of the grammar. -/
theorem isAuthorityText_iff {cs : List Char} : IsAuthorityText cs ↔ isAuthority cs = true := by
  simp only [isAuthority, Bool.and_eq_true, List.all_eq_true, isAuthorityChar_iff]
  constructor
  · intro h
    exact ⟨by simpa using h.ne_nil, h.chars⟩
  · rintro ⟨hne, hchars⟩
    exact ⟨by simpa using hne, hchars⟩

/-- The schemes of the reader are those of the grammar. -/
theorem isScheme_iff {cs : List Char} :
    IsScheme cs ↔ ∃ first others, cs = first :: others ∧ first.isAlpha = true ∧
      ∀ c ∈ others, c.isAlphanum = true ∨ c = '+' ∨ c = '.' ∨ c = '-' := by
  simp only [IsScheme, isSchemeChar, Bool.or_eq_true, beq_iff_eq, or_assoc]

/-- A rest that begins like a path or a query is read with a slash before it. -/
theorem tailText_eq {c : Char} {rest : List Char} (h : c = '/' ∨ c = '?') :
    tailText (c :: rest) = String.ofList (rooted (c :: rest)) := by
  rcases h with rfl | rfl <;> rfl

/-- A rest that begins like a path or a query makes a path where it is visible. -/
theorem isPathText_rooted_iff {c : Char} {rest : List Char} (h : c = '/' ∨ c = '?') :
    IsPathText (rooted (c :: rest)) ↔ ∀ d ∈ c :: rest, IsVisible d := by
  have hslash : IsVisible '/' := by decide
  rcases h with rfl | rfl
  · simp [IsPathText, rooted, hslash]
  · simp [IsPathText, rooted]

/-- The characters of a rest are among those that it is read from. -/
theorem mem_rooted {c : Char} {rest : List Char} (h : c ∈ rest) : c ∈ rooted rest := by
  unfold rooted
  split
  · exact h
  · exact List.mem_cons_of_mem _ h

/-- The parts of an absolute text are those that it is cut into, where its authority and its rest
are good. -/
theorem absoluteParts_of_absolute? {cs scheme authority rest : List Char}
    (h : absolute? cs = some (scheme, authority, rest)) (hauthority : isAuthority authority = true)
    (hstart : ∀ c ∈ rest.head?, c = '/' ∨ c = '?') (hvisible : ∀ c ∈ rest, IsVisible c) :
    AbsoluteParts cs scheme authority rest where
  parts := (cutInto_of_absolute? h).parts
  scheme := isScheme_iff.1 (isScheme_of_absolute? h)
  authority := isAuthorityText_iff.2 hauthority
  start := hstart
  visible := hvisible

/-- What is read is what the text stands for. -/
theorem denotes_of_parse {raw : String} {t : Target} (h : parse raw = .ok t) :
    Denotes raw.toList t := by
  cases readAs_of_parse h with
  | path p hparse =>
      obtain ⟨htext, hcut⟩ := parsePath_eq_ok_iff.1 hparse
      exact .path htext hcut
  | absolute scheme authority habsolute hauthority =>
      exact .absolute (absoluteParts_of_absolute? habsolute hauthority (by simp) (by simp))
  | absolutePath scheme authority tail p habsolute hauthority htail hparse =>
      cases tail with
      | nil => exact absurd rfl htail
      | cons c rest =>
          have hends := (cutInto_of_absolute? habsolute).tail c rfl
          simp only [endsAuthority, Bool.or_eq_true, beq_iff_eq] at hends
          rcases hends with hhead | rfl
          · rw [tailText_eq hhead, parsePath_eq_ok_iff, String.toList_ofList,
              isPathText_rooted_iff hhead] at hparse
            have htext := absoluteParts_of_absolute? habsolute hauthority (by simpa using hhead)
              hparse.1
            exact .absolutePath htext htail hparse.2
          · -- Nothing that begins with a number sign is a path.
            have hstart := (PathAndQuery.parse_eq_ok_iff.1 hparse).1
            simp [tailText, PathAndQuery.startsPath] at hstart
  | authority hstart hauthority =>
      have hstar : raw.toList ≠ ['*'] := by
        intro hraw
        rw [hraw] at hstart
        cases hstart
      have halone := Denotes.authority ⟨isAuthorityText_iff.2 hauthority, hstar⟩
      rwa [String.ofList_toList] at halone

/-- What a text stands for is read from it. -/
theorem parse_of_denotes {raw : String} {t : Target} (h : Denotes raw.toList t) :
    parse raw = .ok t := by
  generalize hraw : raw.toList = cs at h
  cases h with
  | path htext hcut =>
      have hparse := parsePath_eq_ok_iff.2 ⟨hraw ▸ htext, hraw ▸ hcut⟩
      rw [← PathAndQuery.text_of_parse hparse]
      exact parse_path (PathAndQuery.isWellFormed_of_parse hparse)
  | absolute htext =>
      rw [parse_absolute (isScheme_iff.2 htext.scheme) (isAuthorityText_iff.1 htext.authority)
        (by simp) (by simp) (hraw.trans htext.parts)]
      rfl
  | @absolutePath scheme authority rest p htext hrest hcut =>
      cases rest with
      | nil => exact absurd rfl hrest
      | cons c rest =>
          have hhead : c = '/' ∨ c = '?' := htext.start c rfl
          have hparse : PathAndQuery.parse (tailText (c :: rest)) = .ok p := by
            rw [tailText_eq hhead, parsePath_eq_ok_iff, String.toList_ofList]
            exact ⟨(isPathText_rooted_iff hhead).2 htext.visible, hcut⟩
          have hends : endsAuthority c = true := by
            rcases hhead with rfl | rfl <;> rfl
          have hline : ∀ d ∈ c :: rest, isLineEnd d = false := by
            intro d hd
            have hmem : d ∈ p.text.toList := by
              rw [hcut.text_eq, String.toList_ofList]
              exact mem_rooted hd
            exact isLineEnd_of_mem_text (PathAndQuery.isWellFormed_of_parse hparse) d hmem
          rw [parse_absolute (isScheme_iff.2 htext.scheme) (isAuthorityText_iff.1 htext.authority)
            (by simpa using hends) hline (hraw.trans htext.parts), hparse]
          rfl
  | authority htext =>
      obtain ⟨hauthority, hstar⟩ := htext
      have hstart : PathAndQuery.startsPath raw.toList = false := by
        refine Bool.eq_false_iff.2 fun hstart => ?_
        rcases PathAndQuery.startsPath_iff.1 hstart with heq | ⟨rest, heq⟩
        · exact hstar (hraw ▸ heq)
        · exact hauthority.not_mem (hraw ▸ heq ▸ List.mem_cons_self)
      rw [← hraw, String.ofList_toList]
      exact parse_authority hstart (isAuthorityText_iff.1 (hraw ▸ hauthority))

/-- A text is read as the target that it stands for, and as no other. -/
theorem parse_eq_ok_iff_denotes {raw : String} {t : Target} :
    parse raw = .ok t ↔ Denotes raw.toList t :=
  ⟨denotes_of_parse, parse_of_denotes⟩

/-- A text of one of the three forms stands for a target, and no other text does. -/
theorem exists_denotes_iff {cs : List Char} :
    (∃ t, Denotes cs t) ↔ IsPathText cs ∨ IsAbsoluteText cs ∨ IsAuthorityAlone cs := by
  constructor
  · rintro ⟨t, h⟩
    cases h with
    | path htext => exact .inl htext
    | absolute htext => exact .inr (.inl ⟨_, _, _, htext⟩)
    | absolutePath htext => exact .inr (.inl ⟨_, _, _, htext⟩)
    | authority htext => exact .inr (.inr htext)
  · rintro (htext | ⟨scheme, authority, rest, htext⟩ | htext)
    · exact ⟨_, .path htext (PathAndQuery.cutAs_iff.2 rfl)⟩
    · by_cases hrest : rest = []
      · subst hrest
        exact ⟨_, .absolute htext⟩
      · exact ⟨_, .absolutePath htext hrest (PathAndQuery.cutAs_iff.2 rfl)⟩
    · exact ⟨_, .authority htext⟩

/-- The texts that are targets are those of three forms, of which a text has one at most, and each
is read as the target that it stands for.  All other texts are refused. -/
theorem readsGrammar (raw : String) :
    (∀ t, parse raw = .ok t ↔ Denotes raw.toList t) ∧
    ((∃ t, parse raw = .ok t) ↔
      IsPathText raw.toList ∨ IsAbsoluteText raw.toList ∨ IsAuthorityAlone raw.toList) ∧
    ((∃ fault, parse raw = .error fault) ↔
      ¬ (IsPathText raw.toList ∨ IsAbsoluteText raw.toList ∨ IsAuthorityAlone raw.toList)) ∧
    ¬ (IsPathText raw.toList ∧ IsAbsoluteText raw.toList) ∧
    ¬ (IsPathText raw.toList ∧ IsAuthorityAlone raw.toList) ∧
    ¬ (IsAbsoluteText raw.toList ∧ IsAuthorityAlone raw.toList) := by
  have haccepts : (∃ t, parse raw = .ok t) ↔
      IsPathText raw.toList ∨ IsAbsoluteText raw.toList ∨ IsAuthorityAlone raw.toList := by
    simp only [parse_eq_ok_iff_denotes, exists_denotes_iff]
  refine ⟨fun t => parse_eq_ok_iff_denotes, haccepts, ?_, ?_, ?_, ?_⟩
  · rw [exists_error_iff, haccepts]
  · exact fun h => h.1.not_absolute h.2
  · exact fun h => h.1.not_authority h.2
  · exact fun h => h.1.not_authority h.2

/-! ## The text of what was read -/

/-- With a slash before it a rest begins with a slash. -/
theorem exists_rooted_eq (rest : List Char) : ∃ tail, rooted rest = '/' :: tail := by
  unfold rooted
  split
  · exact ⟨_, rfl⟩
  · exact ⟨_, rfl⟩

/-- A target that is read has not the asterisk behind a scheme. -/
theorem Denotes.not_asterisk {cs : List Char} {t : Target} (h : Denotes cs t) :
    ¬ (t.scheme.isSome = true ∧ t.pathAndQuery = some ⟨"*", none⟩) := by
  rintro ⟨hscheme, hstar⟩
  cases h with
  | path => cases hscheme
  | absolute => cases hstar
  | @absolutePath scheme authority rest p htext hrest hcut =>
      obtain rfl := Option.some.inj hstar
      obtain ⟨tail, htail⟩ := exists_rooted_eq rest
      have htext := hcut.text_eq
      rw [htail, ← String.toList_inj] at htext
      simp [PathAndQuery.text] at htext
  | authority => cases hstar

/-- The text of an absolute target with a path and query. -/
theorem toList_text_absolutePath {scheme authority rest : List Char} {p : PathAndQuery}
    (hcut : CutAs rest p) :
    (text {
      scheme := some (String.ofList scheme)
      authority := some (String.ofList authority)
      pathAndQuery := some p }).toList = scheme ++ ':' :: '/' :: '/' :: (authority ++ rest) := by
  simp [text, hcut.text_eq]

/-- A slash is put between an authority and a query. -/
theorem toList_text_of_query {raw : String} {t : Target} {scheme authority query : List Char}
    (hparse : parse raw = .ok t)
    (hparts : AbsoluteParts raw.toList scheme authority ('?' :: query)) :
    t.text.toList = scheme ++ ':' :: '/' :: '/' :: (authority ++ '/' :: '?' :: query) := by
  have hcut : CutAs ('/' :: '?' :: query) (PathAndQuery.ofChars ('/' :: '?' :: query)) :=
    PathAndQuery.cutAs_iff.2 rfl
  have hdenotes := parse_of_denotes (.absolutePath hparts (by simp) hcut)
  rw [hdenotes] at hparse
  obtain rfl := Except.ok.inj hparse
  exact toList_text_absolutePath hcut

/-- All other texts are kept. -/
theorem Denotes.text_eq {cs : List Char} {t : Target} (h : Denotes cs t)
    (hquery : ∀ scheme authority query, ¬ AbsoluteParts cs scheme authority ('?' :: query)) :
    t.text.toList = cs := by
  cases h with
  | path htext hcut => simp [text, hcut.text_eq]
  | absolute htext => simp [text, htext.parts]
  | @absolutePath scheme authority rest p htext hrest hcut =>
      cases rest with
      | nil => exact absurd rfl hrest
      | cons c rest =>
          rcases htext.start c rfl with rfl | rfl
          · rw [toList_text_absolutePath hcut]
            exact htext.parts.symm
          · exact absurd htext (hquery scheme authority rest)
  | authority htext => simp [text]

/-- A target that was read has the text that it was read from, with a slash more where a query
stands right behind an authority, and is read again from its text.  A path and query has the text
that it was read from. -/
theorem printsBack :
    (∀ raw t, parse raw = .ok t →
      (∀ scheme authority query, AbsoluteParts raw.toList scheme authority ('?' :: query) →
        t.text.toList = scheme ++ ':' :: '/' :: '/' :: (authority ++ '/' :: '?' :: query)) ∧
      ((∀ scheme authority query, ¬ AbsoluteParts raw.toList scheme authority ('?' :: query)) →
        t.text = raw) ∧
      parse t.text = .ok t) ∧
    ∀ raw p, PathAndQuery.parse raw = .ok p → p.text = raw := by
  refine ⟨fun raw t hparse => ⟨?_, fun hquery => ?_, ?_⟩, fun raw p => PathAndQuery.text_of_parse⟩
  · exact fun scheme authority query => toList_text_of_query hparse
  · exact String.toList_injective ((denotes_of_parse hparse).text_eq hquery)
  · exact (parse_text_iff (.read hparse)).2 (denotes_of_parse hparse).not_asterisk

/-- What a test finds of all members holds of each. -/
theorem forall_mem_of_all {P : Char → Prop} [DecidablePred P] {cs : List Char}
    (h : cs.all (decide <| P ·) = true) : ∀ c ∈ cs, P c :=
  fun c hc => of_decide_eq_true (List.all_eq_true.1 h c hc)

/-- A query right behind an authority gets a slash, and a query with question marks of its own
keeps them. -/
theorem printsBack_bareQuery :
    let t : Target := ⟨some "http", some "h:8", some ⟨"/", some "a=?b"⟩⟩
    parse "http://h:8?a=?b" = .ok t ∧
      AbsoluteParts "http://h:8?a=?b".toList "http".toList "h:8".toList ('?' :: "a=?b".toList) ∧
      t.text.toList = "http://h:8/?a=?b".toList ∧ parse t.text = .ok t ∧
      (∀ scheme authority query,
        ¬ AbsoluteParts "/a??".toList scheme authority ('?' :: query)) ∧
      parse "/a??" = .ok { pathAndQuery := some ⟨"/a", some "?"⟩ } ∧
      text { pathAndQuery := some ⟨"/a", some "?"⟩ } = "/a??" ∧
      PathAndQuery.text ⟨"/a", some "?"⟩ = "/a??" := by
  intro t
  obtain ⟨htargets, hpaths⟩ := printsBack
  have hparse : parse "http://h:8?a=?b" = .ok t := by decide +kernel
  have hparts :
      AbsoluteParts "http://h:8?a=?b".toList "http".toList "h:8".toList ('?' :: "a=?b".toList) :=
    ⟨by decide, ⟨'h', "ttp".toList, by decide, by decide, forall_mem_of_all (by decide)⟩,
      ⟨by decide, forall_mem_of_all (by decide)⟩, by simp, forall_mem_of_all (by decide)⟩
  have hpath : parse "/a??" = .ok { pathAndQuery := some ⟨"/a", some "?"⟩ } := by decide +kernel
  have htext : IsPathText "/a??".toList :=
    .inr ⟨"a??".toList, by decide, forall_mem_of_all (by decide)⟩
  have hnone : ∀ scheme authority query,
      ¬ AbsoluteParts "/a??".toList scheme authority ('?' :: query) :=
    fun scheme authority query hparts => htext.not_absolute ⟨scheme, authority, _, hparts⟩
  obtain ⟨hquery, -, hagain⟩ := htargets _ _ hparse
  exact ⟨hparse, hparts, hquery _ _ _ hparts, hagain, hnone, hpath,
    (htargets _ _ hpath).2.1 hnone, hpaths "/a??" _ (by decide +kernel)⟩

end Target

end FaultInjection
