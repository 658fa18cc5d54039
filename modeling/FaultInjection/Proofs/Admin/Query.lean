import FaultInjection.Admin

/-!
# Administration - Numbers in a query

A page is asked for by numbers in the query of a locator.  They are decimal numerals there, with a
sign or without, and where the query leaves one out the usual one counts.

Main definitions:

- `IsNumeral`, a text that is the decimal numeral of an integer.
- `Admin.AsksFor`, a locator that asks for an integer under a name, and `Admin.AsksForPage`.
- `Admin.pagePath`, the locator that asks for an offset and a limit in the plainest way.

Main results:

- `leadingInteger_of_isNumeral`: a numeral is read as the number nearest to its integer.
- `Admin.bound_of_asksFor`: so is what a locator asks for.
- `Admin.asksForPage_pagePath`: integers of any size can be asked for.
-/

namespace FaultInjection

/-! ## Numerals -/

/-- A decimal numeral of an integer: digits, and a sign before them or none. -/
inductive IsNumeral : List Char → Int → Prop
  | unsigned {digits : List Char} (ne : digits ≠ []) (all : ∀ c ∈ digits, c.isDigit = true) :
      IsNumeral digits (Nat.ofDigitChars 10 digits 0)
  | positive {digits : List Char} (ne : digits ≠ []) (all : ∀ c ∈ digits, c.isDigit = true) :
      IsNumeral ('+' :: digits) (Nat.ofDigitChars 10 digits 0)
  | negative {digits : List Char} (ne : digits ≠ []) (all : ∀ c ∈ digits, c.isDigit = true) :
      IsNumeral ('-' :: digits) (-(Nat.ofDigitChars 10 digits 0 : Nat))

/-- No digit is a blank. -/
theorem Blank.isBlank_eq_false_of_isDigit {c : Char} (h : c.isDigit = true) :
    isBlank c = false := by
  obtain ⟨hlower, hupper⟩ : 48 ≤ c.toNat ∧ c.toNat ≤ 57 := Char.isDigit_iff_toNat.1 h
  simp only [isBlank, ranges, List.any_cons, List.any_nil, Bool.or_false, Bool.or_eq_false_iff,
    Bool.and_eq_false_iff, decide_eq_false_iff_not]
  omega

namespace LeadingInteger

/-- The value of a decimal digit. -/
theorem digit?_of_isDigit {c : Char} (h : c.isDigit = true) :
    digit? 10 c = some (c.toNat - '0'.toNat) := by
  obtain ⟨hlower, hupper⟩ : '0'.toNat ≤ c.toNat ∧ c.toNat ≤ '9'.toNat := Char.isDigit_iff_toNat.1 h
  have hrange : ('0' ≤ c && c ≤ '9') = true := by
    rw [Bool.and_eq_true, decide_eq_true_eq, decide_eq_true_eq]
    exact ⟨hlower, hupper⟩
  have hvalue : c.toNat - '0'.toNat < 10 := by
    have hnine : '9'.toNat = '0'.toNat + 9 := rfl
    omega
  rw [digit?, if_pos hrange, Option.filter_some, if_pos (decide_eq_true hvalue)]

theorem digitsFrom_eq {digits : List Char} (h : ∀ c ∈ digits, c.isDigit = true) (value : Nat) :
    digitsFrom 10 value digits = Nat.ofDigitChars 10 digits value := by
  induction digits generalizing value with
  | nil => rfl
  | cons c rest ih =>
      obtain ⟨hc, hrest⟩ := List.forall_mem_cons.1 h
      rw [digitsFrom, digit?_of_isDigit hc, Nat.ofDigitChars_cons, Nat.mul_comm]
      exact ih hrest _

/-- Digits are read as the number nearest to their value. -/
theorem unsigned_eq {digits : List Char} (hne : digits ≠ [])
    (h : ∀ c ∈ digits, c.isDigit = true) (negative : Bool) :
    unsigned negative digits = Number.ofInt
      (if negative then -(Nat.ofDigitChars 10 digits 0 : Nat)
      else Nat.ofDigitChars 10 digits 0) := by
  have hunsigned : unsigned negative digits = LeadingInteger.digits 10 negative digits := by
    rw [unsigned]
    · rintro rest rfl
      exact absurd (h 'x' (by simp)) (by decide)
    · rintro rest rfl
      exact absurd (h 'X' (by simp)) (by decide)
  obtain ⟨c, rest, rfl⟩ := List.exists_cons_of_ne_nil hne
  obtain ⟨hc, hrest⟩ := List.forall_mem_cons.1 h
  rw [hunsigned, digits, digit?_of_isDigit hc]
  simp only [digitsFrom_eq hrest, Nat.ofDigitChars_cons, Nat.mul_zero, Nat.zero_add]

/-- A text that begins with a digit has no sign. -/
theorem signed_of_isDigit {c : Char} (h : c.isDigit = true) (rest : List Char) :
    signed (c :: rest) = unsigned false (c :: rest) := by
  have hsign {sign : Char} {rest' : List Char} (hnot : sign.isDigit = false)
      (heq : c :: rest = sign :: rest') : False := by
    rw [(List.cons.inj heq).1, hnot] at h
    cases h
  rw [signed]
  · exact fun rest' => hsign (by decide)
  · exact fun rest' => hsign (by decide)

end LeadingInteger

/-- A numeral is read as the number nearest to its integer. -/
theorem leadingInteger_of_isNumeral {text : String} {i : Int} (h : IsNumeral text.toList i) :
    leadingInteger text = .ofInt i := by
  rw [leadingInteger]
  generalize text.toList = cs at h
  cases h with
  | unsigned hne hall =>
      obtain ⟨c, rest, rfl⟩ := List.exists_cons_of_ne_nil hne
      have hdigit : c.isDigit = true := hall c List.mem_cons_self
      rw [List.dropWhile_cons, Blank.isBlank_eq_false_of_isDigit hdigit, if_neg Bool.false_ne_true,
        LeadingInteger.signed_of_isDigit hdigit]
      exact LeadingInteger.unsigned_eq hne hall false
  | positive hne hall =>
      exact LeadingInteger.unsigned_eq hne hall false
  | negative hne hall =>
      exact LeadingInteger.unsigned_eq hne hall true

/-- An integer is written as a numeral. -/
theorem isNumeral_toString (i : Int) : IsNumeral (toString i).toList i := by
  have hall (n : Nat) : ∀ c ∈ Nat.toDigits 10 n, c.isDigit = true := fun c hc =>
    Nat.isDigit_of_mem_toDigits (by decide) (by decide) hc
  rw [Int.toString_eq_repr, Int.repr_eq_if]
  split
  · rename_i hnonneg
    have hnumeral := IsNumeral.unsigned Nat.toDigits_ne_nil (hall i.toNat)
    rwa [Nat.ofDigitChars_ten_toDigits, Int.toNat_of_nonneg hnonneg, ← Nat.toList_repr] at hnumeral
  · rename_i hnegative
    have hnumeral := IsNumeral.negative Nat.toDigits_ne_nil (hall (-i).toNat)
    rw [Nat.ofDigitChars_ten_toDigits, Int.toNat_of_nonneg (by omega), Int.neg_neg] at hnumeral
    rwa [String.toList_append, Nat.toList_repr]

/-- An integer is written with digits and a minus sign. -/
theorem isDigit_or_eq_of_mem_toString {i : Int} {c : Char} (hc : c ∈ (toString i).toList) :
    c.isDigit = true ∨ c = '-' := by
  have hdigits {n : Nat} (hc : c ∈ n.repr.toList) : c.isDigit = true := by
    rw [Nat.toList_repr] at hc
    exact Nat.isDigit_of_mem_toDigits (by decide) (by decide) hc
  rw [Int.toString_eq_repr, Int.repr_eq_if] at hc
  split at hc
  · exact .inl (hdigits hc)
  · rw [String.toList_append] at hc
    rcases List.mem_append.1 hc with hminus | hrest
    · exact .inr (List.mem_singleton.1 hminus)
    · exact .inl (hdigits hrest)

theorem not_mem_toString {i : Int} {c : Char} (hdigit : c.isDigit = false) (hminus : c ≠ '-') :
    c ∉ (toString i).toList := by
  intro hc
  rcases isDigit_or_eq_of_mem_toString hc with h | h
  · rw [hdigit] at h
    cases h
  · exact hminus h

/-! ## Locators -/

namespace Locator

/-- A text without blanks and control characters is not trimmed. -/
theorem trimmed_eq_self {cs : List Char} (h : ∀ c ∈ cs, 0x20 < c.toNat) :
    trimmed cs = cs := by
  have hfilter : cs.filter (!isLineBreak ·) = cs := by
    refine List.filter_eq_self.2 fun c hc => ?_
    have hlarge := h c hc
    rw [Bool.not_eq_true', isLineBreak, Bool.or_eq_false_iff, Bool.or_eq_false_iff,
      beq_eq_false_iff_ne, beq_eq_false_iff_ne, beq_eq_false_iff_ne]
    refine ⟨⟨?_, ?_⟩, ?_⟩ <;> (rintro rfl; exact absurd hlarge (by decide))
  have hdrop : cs.reverse.dropWhile (fun c => decide (c.toNat ≤ 0x20)) = cs.reverse := by
    cases hreverse : cs.reverse with
    | nil => rfl
    | cons c rest =>
        have hlarge := h c (List.mem_reverse.1 (by rw [hreverse]; exact List.mem_cons_self))
        rw [List.dropWhile_cons, if_neg (by simpa using hlarge)]
  rw [trimmed, hfilter, hdrop, List.reverse_reverse]

/-- An integer needs no escapes. -/
theorem decode_toString (i : Int) : decode (toString i).toList = toString i := by
  have hmap : (toString i).toList.map (fun c => if c = '+' then ' ' else c) =
      (toString i).toList.map id := by
    refine List.map_congr_left fun c hc => if_neg ?_
    rintro rfl
    exact not_mem_toString (by decide) (by decide) hc
  rw [decode, hmap, List.map_id, decodeRuns_plain _ (not_mem_toString (by decide) (by decide)),
    String.ofList_toList]

/-- A piece with a name is cut behind the name. -/
theorem cutPiece_eq {name : List Char} (hname : '=' ∉ name) (value : List Char) :
    Parameters.cutPiece (name ++ '=' :: value) = (name, value) := by
  rw [Parameters.cutPiece, (cutAtFirst_eq_some_iff '=' _ name value).2 ⟨rfl, hname⟩]
  rfl

/-- A value stands behind the first piece of its name. -/
theorem value?_of_find? {path name : String} {query : List Char}
    (pair : List Char × List Char)
    (h : ((piecesAt '&' query).map Parameters.cutPiece).find? (fun pair => pair.1 = name.toList) =
      some pair) :
    value? { path, query := some query } name = some (decode pair.2) := by
  change ((((piecesAt '&' query).map Parameters.cutPiece).find?
    (fun pair => pair.1 = name.toList)).orElse _).bind _ = _
  rw [h]
  rfl

end Locator

namespace Admin

/-! ## What is asked for -/

/-- A locator asks for an integer under a name: by a numeral, or, where the usual one is meant, by
nothing. -/
def AsksFor (l : Locator) (name : String) (usual i : Int) : Prop :=
  (∃ text, l.value? name = some text ∧ IsNumeral text.toList i) ∨
    (l.value? name).getD "" = "" ∧ i = usual

/-- What a locator asks for is read as the number nearest to it. -/
theorem bound_of_asksFor {l : Locator} {name : String} {usual i : Int}
    (h : AsksFor l name usual i) : bound l name (.ofInt usual) = .ofInt i := by
  rcases h with ⟨text, hvalue, hnumeral⟩ | ⟨hnone, rfl⟩
  · have hne : text ≠ "" := by
      rintro rfl
      generalize hempty : "".toList = cs at hnumeral
      cases hnumeral with
      | unsigned hne hall => exact hne hempty.symm
      | positive hne hall => cases hempty
      | negative hne hall => cases hempty
    rw [bound, hvalue]
    exact (if_neg hne).trans (leadingInteger_of_isNumeral hnumeral)
  · rw [bound]
    cases hvalue : l.value? name with
    | none => rfl
    | some text =>
        rw [hvalue, Option.getD_some] at hnone
        exact if_pos hnone

/-- The locator that asks for a page by an offset and a limit. -/
def pagePath (offset limit : Int) : String :=
  "/api/exchanges?limit=" ++ toString limit ++ "&offset=" ++ toString offset

/-- The query of that locator. -/
def pageQuery (offset limit : Int) : List Char :=
  ("limit".toList ++ '=' :: (toString limit).toList) ++
    '&' :: ("offset".toList ++ '=' :: (toString offset).toList)

theorem pageQuery_eq (offset limit : Int) :
    pageQuery offset limit = ("limit".toList ++ '=' :: (toString limit).toList) ++
      '&' :: ("offset".toList ++ '=' :: (toString offset).toList) := rfl

theorem toList_pagePath (offset limit : Int) :
    (pagePath offset limit).toList =
      '/' :: ("api/exchanges".toList ++ '?' :: pageQuery offset limit) := by
  have hstart : "/api/exchanges?limit=".toList =
      '/' :: ("api/exchanges".toList ++ '?' :: ("limit".toList ++ ['='])) := by decide
  have hnext : "&offset=".toList = '&' :: ("offset".toList ++ ['=']) := by decide
  unfold pagePath
  rw [pageQuery_eq, String.toList_append, String.toList_append, String.toList_append, hstart, hnext]
  simp only [List.cons_append, List.append_assoc, List.nil_append]

/-- The query of a page has no blanks, control characters and number signs. -/
theorem plain_of_mem_pageQuery {offset limit : Int} {c : Char} (hc : c ∈ pageQuery offset limit) :
    0x20 < c.toNat ∧ c ≠ '#' := by
  have hnumeral {i : Int} (hc : c ∈ (toString i).toList) : 0x20 < c.toNat ∧ c ≠ '#' := by
    rcases isDigit_or_eq_of_mem_toString hc with hdigit | rfl
    · refine ⟨Nat.lt_of_lt_of_le (by decide) (Char.isDigit_iff_toNat.1 hdigit).1, ?_⟩
      rintro rfl
      cases hdigit
    · decide
  have hnames : ∀ c ∈ "limit".toList ++ '=' :: '&' :: "offset".toList,
      0x20 < c.toNat ∧ c ≠ '#' := by
    simp
  simp only [pageQuery_eq, List.mem_append, List.mem_cons] at hc hnames
  rcases hc with (hname | hsign | hlimit) | hmark | hname | hsign | hoffset
  · exact hnames c (.inl hname)
  · exact hnames c (.inr (.inl hsign))
  · exact hnumeral hlimit
  · exact hnames c (.inr (.inr (.inl hmark)))
  · exact hnames c (.inr (.inr (.inr hname)))
  · exact hnames c (.inr (.inl hsign))
  · exact hnumeral hoffset

/-- What the plainest locator of a page is read as. -/
theorem parse_pagePath (offset limit : Int) :
    Locator.parse (pagePath offset limit) =
      { path := "/api/exchanges", query := some (pageQuery offset limit) } := by
  have hplain : ∀ c ∈ "api/exchanges".toList ++ '?' :: pageQuery offset limit,
      0x20 < c.toNat ∧ c ≠ '#' := by
    intro c hc
    have hpath : ∀ c ∈ "api/exchanges".toList ++ ['?'], 0x20 < c.toNat ∧ c ≠ '#' := by simp
    rw [List.append_cons] at hc
    rcases List.mem_append.1 hc with hmem | hmem
    · exact hpath c hmem
    · exact plain_of_mem_pageQuery hmem
  have hpath : Locator.normalPath "api/exchanges".toList = "/api/exchanges" := by decide +kernel
  have hscheme (rest : List Char) : Locator.afterScheme? ('/' :: rest) = none := rfl
  have hfragment := (cutAtFirst_eq_none_iff '#' _ _).2 ⟨rfl, fun hmark => (hplain '#' hmark).2 rfl⟩
  have hquery : cutAtFirst '?' ("api/exchanges".toList ++ '?' :: pageQuery offset limit) =
      ("api/exchanges".toList, some (pageQuery offset limit)) :=
    (cutAtFirst_eq_some_iff '?' _ _ _).2 ⟨rfl, by decide⟩
  have hfirst (rest : List Char) : Locator.withoutFirst (· == '/') ('/' :: rest) = rest := rfl
  rw [Locator.parse, toList_pagePath, hscheme]
  simp only
  rw [hfirst, Locator.trimmed_eq_self fun c hc => (hplain c hc).1, Locator.ofChars,
    Locator.withoutFragment, hfragment, hquery]
  exact congrArg (Locator.mk · _) hpath

/-- The values of the plainest locator of a page are its offset and its limit. -/
theorem value?_pagePath (offset limit : Int) :
    (Locator.parse (pagePath offset limit)).value? "offset" = some (toString offset) ∧
      (Locator.parse (pagePath offset limit)).value? "limit" = some (toString limit) := by
  have hpieces : (piecesAt '&' (pageQuery offset limit)).map Parameters.cutPiece =
      [("limit".toList, (toString limit).toList), ("offset".toList, (toString offset).toList)] := by
    have hmark {name : List Char} (hname : '&' ∉ name) (i : Int) :
        '&' ∉ name ++ '=' :: (toString i).toList := by
      rw [List.mem_append, List.mem_cons, not_or, not_or]
      exact ⟨hname, by decide, not_mem_toString (by decide) (by decide)⟩
    rw [pageQuery_eq, piecesAt_append_cons (hmark (by decide) limit),
      piecesAt_of_not_mem (hmark (by decide) offset), List.map_cons, List.map_cons, List.map_nil,
      Locator.cutPiece_eq (by decide), Locator.cutPiece_eq (by decide)]
  rw [parse_pagePath, ← Locator.decode_toString offset, ← Locator.decode_toString limit]
  constructor
  · refine Locator.value?_of_find? ("offset".toList, (toString offset).toList) ?_
    rw [hpieces]
    rfl
  · refine Locator.value?_of_find? ("limit".toList, (toString limit).toList) ?_
    rw [hpieces]
    rfl

/-- A locator that asks for the page of an offset and a limit. -/
structure AsksForPage (l : Locator) (offset limit : Int) : Prop where
  path : l.path = "/api/exchanges"
  offset : AsksFor l "offset" 0 offset
  limit : AsksFor l "limit" 100 limit

/-- Any offset and any limit can be asked for. -/
theorem asksForPage_pagePath (offset limit : Int) :
    AsksForPage (Locator.parse (pagePath offset limit)) offset limit := by
  obtain ⟨hoffset, hlimit⟩ := value?_pagePath offset limit
  exact ⟨by rw [parse_pagePath], .inl ⟨_, hoffset, isNumeral_toString offset⟩,
    .inl ⟨_, hlimit, isNumeral_toString limit⟩⟩

end Admin

end FaultInjection
