import FaultInjection.Proofs.Target.Parameters
import Mathlib.Data.List.Forall2

/-!
# Request targets - Queries that can be read

A key or a value is read where its escapes are the UTF-8 of characters, each of them
escaped as a whole; a character in the open stands for itself, and a plus for a space.
The reader collects a run of escaped bytes before it decodes them.  Here the same texts are
told character by character.

Main definitions:

- `Parameters.Escapes`, bytes as they are escaped one by one.
- `Parameters.Encodes`, characters in the open or with all their bytes escaped.
- `Parameters.Spells`, the keys and values of a query, piece by piece.
- `Parameters.IsReadableQuery`, for a query of good keys and values.

Main results:

- `Parameters.decodeComponent?_eq_some_iff`: a key or value is read as what it encodes.
- `Parameters.decode_eq_ok_iff_spells` and `Parameters.exists_decode_eq_ok_iff`: which
  queries are read, and as what.
-/

namespace FaultInjection

namespace Parameters

/-! ## Keys and values -/

/-- Bytes as they are escaped, each by a percent sign and two hexadecimal digits. -/
inductive Escapes : List Char → Bytes → Prop
  | nil : Escapes [] []
  | cons {a b : Char} {high low : Nat} {cs : List Char} {bytes : Bytes}
      (hhigh : hexDigit? a = some high) (hlow : hexDigit? b = some low)
      (hrest : Escapes cs bytes) :
      Escapes ('%' :: a :: b :: cs) (UInt8.ofNat (high * 16 + low) :: bytes)

/-- Characters as they are encoded, each in the open or by escapes of its UTF-8. -/
inductive Encodes : List Char → List Char → Prop
  | nil : Encodes [] []
  /-- A character stands for itself, and a plus for a space. -/
  | plain {c : Char} {cs text : List Char} (hpercent : c ≠ '%') (hrest : Encodes cs text) :
      Encodes (c :: cs) ((if c = '+' then ' ' else c) :: text)
  | escaped {c : Char} {escapes cs text : List Char}
      (hescapes : Escapes escapes (String.utf8EncodeChar c)) (hrest : Encodes cs text) :
      Encodes (escapes ++ cs) (c :: text)

/-- Escapes one after the other are those of the bytes of both. -/
theorem Escapes.append {first second : List Char} {bytes others : Bytes}
    (h : Escapes first bytes) (h' : Escapes second others) :
    Escapes (first ++ second) (bytes ++ others) := by
  induction h with
  | nil => exact h'
  | cons hhigh hlow _ ih => exact .cons hhigh hlow ih

/-- The escapes of bytes in two parts are those of each part. -/
theorem Escapes.exists_append {cs : List Char} {bytes others : Bytes}
    (h : Escapes cs (bytes ++ others)) :
    ∃ first second, cs = first ++ second ∧ Escapes first bytes ∧ Escapes second others := by
  induction bytes generalizing cs with
  | nil => exact ⟨[], cs, rfl, .nil, h⟩
  | cons byte bytes ih =>
      cases h with
      | cons hhigh hlow hrest =>
          obtain ⟨first, second, rfl, hfirst, hsecond⟩ := ih hrest
          exact ⟨_, second, rfl, .cons hhigh hlow hfirst, hsecond⟩

/-- The escapes of the UTF-8 of characters encode these. -/
theorem Escapes.encodes {escapes cs before text : List Char}
    (h : Escapes escapes (Utf8.encode before)) (hrest : Encodes cs text) :
    Encodes (escapes ++ cs) (before ++ text) := by
  induction before generalizing escapes with
  | nil =>
      cases h
      exact hrest
  | cons c before ih =>
      rw [Utf8.encode, List.flatMap_cons] at h
      obtain ⟨first, second, rfl, hfirst, hsecond⟩ := h.exists_append
      rw [List.append_assoc]
      exact .escaped hfirst (ih hsecond)

/-- Escapes are read as the bytes that they stand for. -/
theorem Escapes.symbols?_append {escapes : List Char} {bytes : Bytes} (h : Escapes escapes bytes)
    (cs : List Char) :
    symbols? (escapes ++ cs) = (symbols? cs).map (bytes.map .byte ++ ·) := by
  induction h with
  | nil => simp
  | cons hhigh hlow _ ih =>
      simp only [List.cons_append, symbols?, hhigh, hlow, ih, Option.bind_eq_bind,
        Option.bind_some]
      cases symbols? cs <;> rfl

/-- Symbols that are assembled, after a run of bytes, encode what they are assembled to. -/
theorem encodes_of_assemble? {cs escapes text : List Char} {symbols : List Symbol} {run : Bytes}
    (hsymbols : symbols? cs = some symbols) (hescapes : Escapes escapes run.reverse)
    (htext : assemble? run symbols = some text) : Encodes (escapes ++ cs) text := by
  fun_induction symbols? cs generalizing symbols run escapes text with
  | case1 =>
      cases hsymbols
      rw [← Utf8.encode_of_decode? htext] at hescapes
      simpa using hescapes.encodes .nil
  | case2 a b rest ih =>
      simp only [Option.bind_eq_bind, Option.bind_eq_some_iff, Option.pure_def,
        Option.some.injEq] at hsymbols
      obtain ⟨high, hhigh, low, hlow, others, hothers, rfl⟩ := hsymbols
      -- The byte joins the run, and its escape the escapes that are open.
      have hbyte := hescapes.append (.cons hhigh hlow .nil)
      rw [← List.reverse_cons] at hbyte
      have hrest := ih hothers hbyte htext
      rwa [List.append_assoc] at hrest
  | case3 => cases hsymbols
  | case4 c rest _ hpercent ih =>
      simp only [Option.bind_eq_bind, Option.bind_eq_some_iff, Option.pure_def,
        Option.some.injEq] at hsymbols
      obtain ⟨others, hothers, rfl⟩ := hsymbols
      simp only [assemble?, Option.bind_eq_bind, Option.bind_eq_some_iff, Option.pure_def,
        Option.some.injEq] at htext
      obtain ⟨before, hbefore, after, hafter, rfl⟩ := htext
      rw [← Utf8.encode_of_decode? hbefore] at hescapes
      -- After a character in the open no escape is pending.
      have hnone : Escapes [] ([] : Bytes).reverse := .nil
      exact hescapes.encodes (.plain hpercent (ih hothers hnone hafter))

/-- What encodes characters is read as these, after any other characters. -/
theorem Encodes.exists_symbols {cs text : List Char} (h : Encodes cs text) :
    ∃ symbols, symbols? cs = some symbols ∧
      ∀ before, assemble? (Utf8.encode before).reverse symbols = some (before ++ text) := by
  induction h with
  | nil =>
      refine ⟨[], rfl, fun before => ?_⟩
      rw [assemble?, List.reverse_reverse, Utf8.decode?_encode, List.append_nil]
  | @plain c cs text hpercent _ ih =>
      obtain ⟨symbols, hsymbols, hassembled⟩ := ih
      refine ⟨.char (if c = '+' then ' ' else c) :: symbols, ?_, fun before => ?_⟩
      · rw [symbols?, if_neg hpercent, hsymbols]
        · rfl
        · exact fun a b others hc => absurd hc hpercent
      · have hrest : assemble? [] symbols = some text := hassembled []
        rw [assemble?, List.reverse_reverse, Utf8.decode?_encode, hrest]
        rfl
  | @escaped c escapes cs text hescapes _ ih =>
      obtain ⟨symbols, hsymbols, hassembled⟩ := ih
      refine ⟨(String.utf8EncodeChar c).map .byte ++ symbols, ?_, fun before => ?_⟩
      · rw [hescapes.symbols?_append, hsymbols, Option.map_some]
      · have hrun : (String.utf8EncodeChar c).reverse ++ (Utf8.encode before).reverse =
            (Utf8.encode (before ++ [c])).reverse := by
          simp [Utf8.encode]
        rw [assemble?_bytes, hrun, hassembled, List.append_assoc, List.singleton_append]

/-- A key or value is read as the text that it encodes. -/
theorem decodeComponent?_eq_some_iff {cs : List Char} {s : String} :
    decodeComponent? cs = some s ↔ Encodes cs s.toList := by
  simp only [decodeComponent?, Option.bind_eq_bind, Option.bind_eq_some_iff, Option.pure_def,
    Option.some.injEq]
  constructor
  · rintro ⟨symbols, hsymbols, text, htext, rfl⟩
    rw [String.toList_ofList]
    exact encodes_of_assemble? hsymbols .nil htext
  · intro h
    obtain ⟨symbols, hsymbols, hassembled⟩ := h.exists_symbols
    exact ⟨symbols, hsymbols, s.toList, hassembled [], String.ofList_toList⟩

/-- The bytes of a character are all escaped or none of them is. -/
example :
    decodeComponent? "%C3%A9+é".toList = some "é é" ∧
      decodeComponent? "%C3é".toList = none := by
  decide +kernel

/-! ## Queries -/

/-- A piece of a query spells a key and a value. -/
def PieceSpells (piece : List Char) (pair : String × String) : Prop :=
  Encodes (cutPiece piece).1 pair.1.toList ∧ Encodes (cutPiece piece).2 pair.2.toList

/-- A query spells keys and values, one after the other in its pieces. -/
def Spells (query : String) (pairs : List (String × String)) : Prop :=
  List.Forall₂ PieceSpells (pieces query.toList) pairs

/-- A text is good as a key or a value where it encodes characters. -/
def IsReadable (cs : List Char) : Prop := ∃ text, Encodes cs text

/-- A query is good where all its keys and values are. -/
def IsReadableQuery (query : String) : Prop :=
  ∀ piece ∈ pieces query.toList,
    IsReadable (cutPiece piece).1 ∧ IsReadable (cutPiece piece).2

/-- A piece is decoded to what it spells. -/
theorem decodePiece?_eq_some_iff {piece : List Char} {pair : String × String} :
    decodePiece? piece = some pair ↔ PieceSpells piece pair := by
  obtain ⟨key, value⟩ := pair
  simp [decodePiece?, PieceSpells, decodeComponent?_eq_some_iff, Option.bind_eq_some_iff]

/-- A list is mapped where each of its members is, in order. -/
theorem mapM_eq_some_iff {α β : Type} {f : α → Option β} {xs : List α} {ys : List β} :
    xs.mapM f = some ys ↔ List.Forall₂ (fun x y => f x = some y) xs ys := by
  induction xs generalizing ys with
  | nil => simp [eq_comm]
  | cons x xs ih =>
      simp only [List.mapM_cons, Option.bind_eq_bind, Option.bind_eq_some_iff, Option.pure_def,
        Option.some.injEq, List.forall₂_cons_left_iff, ih]
      constructor
      · rintro ⟨y, hy, rest, hrest, rfl⟩
        exact ⟨y, rest, hy, hrest, rfl⟩
      · rintro ⟨y, rest, hy, hrest, rfl⟩
        exact ⟨y, hy, rest, hrest, rfl⟩

/-- A query is decoded to what is left of the keys and values that it spells. -/
theorem decode_eq_ok_iff_spells {query : String} {p : Parameters} :
    decode query = .ok p ↔ ∃ pairs, Spells query pairs ∧ ofPairs pairs = p := by
  have hpiece : (fun piece pair => decodePiece? piece = some pair) = PieceSpells := by
    ext piece pair
    exact decodePiece?_eq_some_iff
  simp only [decode_eq_ok_iff, decode?, Option.bind_eq_bind, Option.bind_eq_some_iff,
    Option.pure_def, Option.some.injEq, mapM_eq_some_iff, hpiece, Spells]

/-- A piece spells a key and a value where both of its parts are good. -/
theorem exists_pieceSpells_iff {piece : List Char} :
    (∃ pair, PieceSpells piece pair) ↔
      IsReadable (cutPiece piece).1 ∧ IsReadable (cutPiece piece).2 := by
  constructor
  · rintro ⟨pair, hkey, hvalue⟩
    exact ⟨⟨_, hkey⟩, ⟨_, hvalue⟩⟩
  · rintro ⟨⟨key, hkey⟩, ⟨value, hvalue⟩⟩
    refine ⟨(String.ofList key, String.ofList value), ?_, ?_⟩
    · rwa [String.toList_ofList]
    · rwa [String.toList_ofList]

/-- A query spells keys and values where all its pieces are good. -/
theorem exists_spells_iff {query : String} :
    (∃ pairs, Spells query pairs) ↔ IsReadableQuery query := by
  unfold Spells IsReadableQuery
  simp only [← exists_pieceSpells_iff]
  induction pieces query.toList with
  | nil => simp
  | cons piece rest ih =>
      simp only [List.forall₂_cons_left_iff, List.forall_mem_cons, ← ih]
      constructor
      · rintro ⟨_, pair, pairs, hpair, hpairs, -⟩
        exact ⟨⟨pair, hpair⟩, pairs, hpairs⟩
      · rintro ⟨⟨pair, hpair⟩, pairs, hpairs⟩
        exact ⟨_, pair, pairs, hpair, hpairs, rfl⟩

/-- A query can be decoded where it is good. -/
theorem exists_decode_eq_ok_iff {query : String} :
    (∃ p, decode query = .ok p) ↔ IsReadableQuery query := by
  simp only [decode_eq_ok_iff_spells, ← exists_spells_iff]
  exact ⟨fun ⟨_, pairs, hpairs, _⟩ => ⟨pairs, hpairs⟩,
    fun ⟨pairs, hpairs⟩ => ⟨_, pairs, hpairs, rfl⟩⟩

end Parameters

end FaultInjection
