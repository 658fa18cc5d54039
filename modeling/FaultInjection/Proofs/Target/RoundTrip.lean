import FaultInjection.Proofs.Target.Forms
import Mathlib.Control.Monad.Basic

/-!
# Request targets - Reading the text of a target

The text of a target that was read and rewritten is read as the same target: scheme,
authority, path and query, the last of them absent or empty, are cut at the places where
they were joined.  One kind of target is not read again.  A rewrite may give an absolute
target the asterisk for its path, and behind an authority nothing but a slash or a
question mark begins a path, so that the asterisk is read as part of the authority.

Main definitions:

- `Target.Form`, the forms of the targets that can come about.

Main results:

- `PathAndQuery.parse_text`: the text of a well-formed path and query is read as it.
- `Target.form_of_reachable`: the targets that can come about have one of the forms.
- `Target.parse_text_iff`: which of them are read again from their texts.
-/

namespace FaultInjection

namespace PathAndQuery

/-- The text of a well-formed path and query is read as this path and query. -/
theorem parse_text {p : PathAndQuery} (hp : p.IsWellFormed) : parse p.text = .ok p := by
  refine parse_eq_ok_iff.2 ⟨?_, ?_, ?_⟩
  · refine startsPath_iff.2 ((isSafe_text hp).start.imp_left fun hstar => ?_)
    rw [hstar]
    rfl
  · intro c hc
    rcases mem_or_of_mem_text hc with hmem | rfl
    · exact isAllowed_iff.2 (hp.visible c hmem)
    · rfl
  · rcases hp.shape with rfl | ⟨-, hmark⟩
    · rfl
    · exact (ofChars_text hmark).symm

end PathAndQuery

namespace Target

/-! ## Forms of targets -/

/-- A letter and characters that may follow it in a scheme. -/
def IsScheme (cs : List Char) : Prop :=
  ∃ first rest, cs = first :: rest ∧ first.isAlpha = true ∧ ∀ c ∈ rest, isSchemeChar c = true

/-- The forms of the targets that can come about. -/
inductive Form : Target → Prop
  | path {p : PathAndQuery} (hp : p.IsWellFormed) : Form { pathAndQuery := some p }
  | absolute {scheme authority : List Char} {p : Option PathAndQuery} (hscheme : IsScheme scheme)
      (hauthority : isAuthority authority = true) (hp : ∀ q, p = some q → q.IsWellFormed) :
      Form {
        scheme := some (String.ofList scheme)
        authority := some (String.ofList authority)
        pathAndQuery := p }
  | authority {raw : String} (hstart : PathAndQuery.startsPath raw.toList = false)
      (hauthority : isAuthority raw.toList = true) : Form { authority := some raw }

/-- What stands before the colon and the slashes of an absolute text is a scheme. -/
theorem isScheme_of_absolute? {cs scheme authority tail : List Char}
    (h : absolute? cs = some (scheme, authority, tail)) : IsScheme scheme :=
  (cutInto_of_absolute? h).scheme

/-- A target that is read has one of the forms. -/
theorem form_of_parse {raw : String} {t : Target} (h : parse raw = .ok t) : Form t := by
  cases readAs_of_parse h with
  | path p hparse => exact .path (PathAndQuery.isWellFormed_of_parse hparse)
  | absolute scheme authority habsolute hauthority =>
      exact .absolute (isScheme_of_absolute? habsolute) hauthority nofun
  | absolutePath scheme authority tail p habsolute hauthority htail hparse =>
      refine .absolute (isScheme_of_absolute? habsolute) hauthority fun q hq => ?_
      cases hq
      exact PathAndQuery.isWellFormed_of_parse hparse
  | authority hstart hauthority => exact .authority hstart hauthority

/-- A target of one of the forms has one of them with another path and query. -/
theorem Form.withPathAndQuery {t u : Target} {raw : String} (ht : Form t)
    (h : t.withPathAndQuery raw = .ok u) : Form u := by
  obtain ⟨p, hparse, hform, rfl⟩ := withPathAndQuery_eq_ok_iff.1 h
  have hp := PathAndQuery.isWellFormed_of_parse hparse
  cases ht with
  | path => exact .path hp
  | absolute hscheme hauthority =>
      refine .absolute hscheme hauthority fun q hq => ?_
      cases hq
      exact hp
  | authority => cases hform

/-- The targets that can come about have one of the forms. -/
theorem form_of_reachable {t : Target} (h : Reachable t) : Form t :=
  h.induction form_of_parse Form.withPathAndQuery

/-! ## Texts of the forms -/

/-- A scheme is cut off at the colon and the slashes behind it. -/
theorem scheme?_append {scheme : List Char} (h : IsScheme scheme) (rest : List Char) :
    scheme? (scheme ++ ':' :: '/' :: '/' :: rest) = some (scheme, rest) := by
  obtain ⟨first, others, rfl, halpha, hothers⟩ := h
  have hchars : ∀ c ∈ first :: others, isSchemeChar c = true :=
    List.forall_mem_cons.2 ⟨isSchemeChar_of_isAlpha halpha, hothers⟩
  have hcolon : isSchemeChar ':' = false := by decide
  rw [List.cons_append, scheme?, if_pos halpha, ← List.cons_append,
    List.dropWhile_append_of_pos hchars, List.takeWhile_append_of_pos hchars,
    List.dropWhile_cons_of_neg (by simp [hcolon]), List.takeWhile_cons_of_neg (by simp [hcolon]),
    List.append_nil]
  rfl

/-- An authority is cut off at what ends it. -/
theorem absolute?_append {scheme authority tail : List Char} (hscheme : IsScheme scheme)
    (hauthority : isAuthority authority = true)
    (hhead : ∀ c ∈ tail.head?, endsAuthority c = true)
    (hline : ∀ c ∈ tail, isLineEnd c = false) :
    absolute? (scheme ++ ':' :: '/' :: '/' :: (authority ++ tail)) =
      some (scheme, authority, tail) := by
  have hinside : ∀ c ∈ authority, (!endsAuthority c) = true := by
    simp only [isAuthority, Bool.and_eq_true, List.all_eq_true, isAuthorityChar] at hauthority
    exact fun c hc => (hauthority.2 c hc).2
  have hcut : (authority ++ tail).takeWhile (!endsAuthority ·) = authority ∧
      (authority ++ tail).dropWhile (!endsAuthority ·) = tail := by
    rw [List.takeWhile_append_of_pos hinside, List.dropWhile_append_of_pos hinside]
    cases tail with
    | nil => simp
    | cons c rest =>
        have hends : endsAuthority c = true := hhead c rfl
        simp [hends]
  have hnone : tail.any isLineEnd = false := List.any_eq_false.2 fun c hc => by simp [hline c hc]
  rw [absolute?, scheme?_append hscheme]
  simp only [hcut.1, hcut.2, hnone, Bool.false_eq_true, if_false]

/-- A text without a slash has no scheme. -/
theorem absolute?_eq_none {cs : List Char} (h : '/' ∉ cs) : absolute? cs = none := by
  have hscheme : scheme? cs = none := by
    cases hcut : scheme? cs with
    | none => rfl
    | some parts =>
        obtain ⟨-, -, hcs⟩ := eq_of_scheme? hcut
        simp [hcs] at h
  rw [absolute?, hscheme]

/-- The text of an authority alone is read as this authority. -/
theorem parse_authority {raw : String} (hstart : PathAndQuery.startsPath raw.toList = false)
    (hauthority : isAuthority raw.toList = true) : parse raw = .ok { authority := some raw } := by
  have hslash : '/' ∉ raw.toList := by
    simp only [isAuthority, Bool.and_eq_true, List.all_eq_true] at hauthority
    intro hmem
    exact (isAuthorityChar_iff.1 (hauthority.2 '/' hmem)).2.2.1 rfl
  unfold parse
  simp only [hstart, absolute?_eq_none hslash, hauthority, Bool.false_eq_true, if_false, if_true]

/-- The text of a path and query is read as a target with nothing else. -/
theorem parse_path {p : PathAndQuery} (hp : p.IsWellFormed) :
    parse p.text = .ok { pathAndQuery := some p } := by
  have hparse := PathAndQuery.parse_text hp
  have hstart := (PathAndQuery.parse_eq_ok_iff.1 hparse).1
  unfold parse
  simp only [hstart, if_true, hparse, Except.map]

/-- A text that begins with a scheme and a colon is no path. -/
theorem startsPath_scheme {scheme : List Char} (h : IsScheme scheme) (rest : List Char) :
    PathAndQuery.startsPath (scheme ++ ':' :: rest) = false := by
  obtain ⟨first, others, rfl, halpha, -⟩ := h
  refine Bool.eq_false_iff.2 fun hstart => ?_
  rcases PathAndQuery.startsPath_iff.1 hstart with hstar | ⟨tail, hslash⟩
  · simp at hstar
  · obtain rfl : first = '/' := (List.cons.inj hslash).1
    exact absurd halpha (by decide)

/-- The text of an absolute target is read as the target of its parts, of which the tail is read as
a path and query where there is one. -/
theorem parse_absolute {scheme authority tail : List Char} (hscheme : IsScheme scheme)
    (hauthority : isAuthority authority = true)
    (hhead : ∀ c ∈ tail.head?, endsAuthority c = true)
    (hline : ∀ c ∈ tail, isLineEnd c = false) {raw : String}
    (hraw : raw.toList = scheme ++ ':' :: '/' :: '/' :: (authority ++ tail)) :
    parse raw =
      let target : Target := {
        scheme := some (String.ofList scheme)
        authority := some (String.ofList authority) }
      if tail.isEmpty then .ok target
      else
        (PathAndQuery.parse (tailText tail)).map fun p =>
          { target with pathAndQuery := some p } := by
  have hstart : PathAndQuery.startsPath raw.toList = false := by
    rw [hraw]
    exact startsPath_scheme hscheme _
  have habsolute : absolute? raw.toList = some (scheme, authority, tail) := by
    rw [hraw]
    exact absolute?_append hscheme hauthority hhead hline
  unfold parse
  simp only [hstart, habsolute, hauthority, Bool.false_eq_true, if_false, Bool.not_true]

/-! ## Targets that are read again -/

/-- The path and query of a well-formed target that is not the asterisk begins with a slash. -/
theorem exists_slash_text {p : PathAndQuery} (hp : p.IsWellFormed) (hstar : p ≠ ⟨"*", none⟩) :
    ∃ rest, p.text.toList = '/' :: rest := by
  obtain ⟨⟨rest, hpath⟩, -⟩ := hp.shape.resolve_left hstar
  unfold PathAndQuery.text
  cases p.query with
  | none => exact ⟨rest, hpath⟩
  | some query => exact ⟨rest ++ '?' :: query.toList, by simp [hpath]⟩

/-- No character of a path and query ends a line. -/
theorem isLineEnd_of_mem_text {p : PathAndQuery} (hp : p.IsWellFormed) :
    ∀ c ∈ p.text.toList, isLineEnd c = false := by
  intro c hc
  have hcode : 0x20 < c.toNat ∧ c.toNat ≤ 0xff := by
    rcases PathAndQuery.mem_or_of_mem_text hc with hmem | rfl
    · have hvisible := hp.visible c hmem
      omega
    · decide
  have hfeed : c ≠ '\n' := by
    rintro rfl
    exact absurd hcode (by decide)
  have hreturn : c ≠ '\r' := by
    rintro rfl
    exact absurd hcode (by decide)
  have hline : c.toNat ≠ 0x2028 := by omega
  have hparagraph : c.toNat ≠ 0x2029 := by omega
  simp [isLineEnd, hfeed, hreturn, hline, hparagraph]

/-- An absolute target is read again from its text, unless its path is the asterisk. -/
theorem parse_text_absolute {scheme authority : List Char} {p : Option PathAndQuery}
    (hscheme : IsScheme scheme) (hauthority : isAuthority authority = true)
    (hp : ∀ q, p = some q → q.IsWellFormed) (hstar : p ≠ some ⟨"*", none⟩) :
    let t : Target := {
      scheme := some (String.ofList scheme)
      authority := some (String.ofList authority)
      pathAndQuery := p }
    parse t.text = .ok t := by
  intro t
  cases p with
  | none =>
      have hraw : t.text.toList = scheme ++ ':' :: '/' :: '/' :: (authority ++ []) := by
        simp [t, text]
      rw [parse_absolute hscheme hauthority (by simp) (by simp) hraw]
      rfl
  | some q =>
      have hq := hp q rfl
      obtain ⟨rest, hrest⟩ := exists_slash_text hq fun h => hstar (h ▸ rfl)
      have hraw : t.text.toList = scheme ++ ':' :: '/' :: '/' :: (authority ++ q.text.toList) := by
        simp [t, text]
      have hhead : ∀ c ∈ q.text.toList.head?, endsAuthority c = true := by
        simp [hrest, endsAuthority]
      have htail : tailText q.text.toList = q.text := by
        rw [← String.ofList_toList (s := q.text), String.toList_ofList, hrest]
        rfl
      rw [parse_absolute hscheme hauthority hhead (isLineEnd_of_mem_text hq) hraw, htail,
        PathAndQuery.parse_text hq]
      simp [hrest, Except.map, t]

/-- An absolute target whose path is the asterisk is read with it at the end of its authority. -/
theorem parse_text_asterisk {scheme authority : List Char} (hscheme : IsScheme scheme)
    (hauthority : isAuthority authority = true) :
    let t : Target := {
      scheme := some (String.ofList scheme)
      authority := some (String.ofList authority)
      pathAndQuery := some ⟨"*", none⟩ }
    parse t.text = .ok {
      scheme := some (String.ofList scheme)
      authority := some (String.ofList (authority ++ ['*'])) } := by
  intro t
  have hlonger : isAuthority (authority ++ ['*']) = true := by
    simp only [isAuthority, Bool.and_eq_true, List.all_append] at hauthority ⊢
    exact ⟨by simp, hauthority.2, by decide⟩
  have hraw : t.text.toList =
      scheme ++ ':' :: '/' :: '/' :: ((authority ++ ['*']) ++ []) := by
    simp [t, text, PathAndQuery.text]
  rw [parse_absolute hscheme hlonger (by simp) (by simp) hraw]
  rfl

/-- A target that can come about is read again from its text exactly when it is not an absolute one
whose path is the asterisk. -/
theorem parse_text_iff {t : Target} (h : Reachable t) :
    parse t.text = .ok t ↔
      ¬ (t.scheme.isSome = true ∧ t.pathAndQuery = some ⟨"*", none⟩) := by
  cases form_of_reachable h with
  | path hp =>
      constructor
      · intro _
        simp
      · intro _
        exact parse_path hp
  | @absolute scheme authority p hscheme hauthority hp =>
      by_cases hstar : p = some ⟨"*", none⟩
      · subst hstar
        constructor
        · intro hparse
          have hsame := hparse.symm.trans (parse_text_asterisk hscheme hauthority)
          cases (Target.mk.inj (Except.ok.inj hsame)).2.2
        · intro hnone
          exact absurd ⟨rfl, rfl⟩ hnone
      · constructor
        · intro _ hboth
          exact hstar hboth.2
        · intro _
          exact parse_text_absolute hscheme hauthority hp hstar
  | authority hstart hauthority =>
      constructor
      · intro _
        simp
      · intro _
        exact parse_authority hstart hauthority

/-- A target is rewritten in all four ways and read again from its text. -/
theorem parse_text_iff_rewritten :
    ∃ t, Reachable t ∧ t.text = "http://h:81/b?x=1&p=%3F&r=" ∧
      (parse t.text = .ok t ↔
        ¬ (t.scheme.isSome = true ∧ t.pathAndQuery = some ⟨"*", none⟩)) ∧
      parse t.text = .ok t := by
  let first : Target := ⟨some "http", some "h:81", none⟩
  let second : Target := ⟨some "http", some "h:81", some ⟨"/", some "x=1"⟩⟩
  let third : Target := ⟨some "http", some "h:81", some ⟨"/b", some "x=1"⟩⟩
  let fourth : Target := ⟨some "http", some "h:81", some ⟨"/b", some "x=1&p=%3F&r="⟩⟩
  have hparse : parse "http://h:81" = .ok first := by decide +kernel
  have hread : Reachable first := .read hparse
  have hreplaced : Reachable second := .replaced "/?x=1" hread (by decide +kernel)
  have hpath : Reachable third := .pathReplaced (some "/b") hreplaced (by decide +kernel)
  have hreachable : Reachable fourth :=
    .parametersReplaced (some [("p", "?"), ("r", "")]) hpath (by decide +kernel)
  have hiff := parse_text_iff hreachable
  exact ⟨fourth, hreachable, by decide +kernel, hiff, hiff.2 (by decide +kernel)⟩

/-- An absolute target with the asterisk for its path is read as another target. -/
theorem not_forall_parse_text : ¬ ∀ t, Reachable t → parse t.text = .ok t := by
  intro h
  let t : Target := ⟨some "http", some "h", some ⟨"/a", none⟩⟩
  let u : Target := ⟨some "http", some "h", some ⟨"*", none⟩⟩
  have hparse : parse "http://h/a" = .ok t := by decide +kernel
  have hread : Reachable t := .read hparse
  have hreachable : Reachable u := .pathReplaced (some "*") hread (by decide +kernel)
  exact absurd (h u hreachable) (by decide +kernel)

end Target

end FaultInjection
