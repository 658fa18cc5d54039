import FaultInjection.Proofs.Text.Utf8
import FaultInjection.Target.Parameters

/-!
# Request targets - Queries read as bytes

A query stands for keys and values that are bytes: a plus is a space, a percent sign
with two hexadecimal digits a byte, and any other character stands for bytes of its own.
A raw character of a request line is one byte; decoding takes it for its UTF-8 instead,
and encoding writes that.  The two agree up to U+007F.

Main definitions:

- `QueryBytes.read`, the bytes of an encoded text, and `QueryBytes.pairs`, those of the
  keys and values of a query.
- `QueryBytes.lastValue?`, the last value of a key.

Main results:

- `QueryBytes.lastValue?_overlay`: parameters that are written over others come last.
- `QueryBytes.lastValue?_of_decode?`: the last values of a query that is decoded.
- `QueryBytes.pairs_encode`: what a query that is encoded stands for.
- `QueryBytes.pairs_congr`: queries that read the same in two ways.
-/

namespace FaultInjection

namespace QueryBytes

/-! ## Readings -/

/-- A key with a value. -/
abbrev Pair := Bytes × Bytes

/-- The byte of a raw character, which is up to U+00FF. -/
def rawByte (c : Char) : Bytes := [UInt8.ofNat c.toNat]

/-- The bytes of an encoded text whose other characters stand for given bytes. -/
def read (plain : Char → Bytes) : List Char → Bytes
  | [] => []
  | '%' :: a :: b :: rest =>
    match Parameters.hexDigit? a, Parameters.hexDigit? b with
    | some high, some low => UInt8.ofNat (high * 16 + low) :: read plain rest
    | _, _ => plain '%' ++ read plain (a :: b :: rest)
  | c :: rest => (if c = '+' then [0x20] else plain c) ++ read plain rest

/-- The keys and values of a query. -/
def pairs (plain : Char → Bytes) (query : List Char) : List Pair :=
  (Parameters.pieces query).map fun piece =>
    let (key, value) := Parameters.cutPiece piece
    (read plain key, read plain value)

/-- The last value of a key. -/
def lastValue? (key : Bytes) : List Pair → Option Bytes
  | [] => none
  | (k, value) :: rest => (lastValue? key rest).or (if k = key then some value else none)

/-- The UTF-8 of parameters. -/
def ofParameters (p : Parameters) : List Pair :=
  p.map fun (key, value) => (utf8Bytes key, utf8Bytes value)

@[simp] theorem ofParameters_cons (key value : String) (rest : Parameters) :
    ofParameters ((key, value) :: rest) =
      (utf8Bytes key, utf8Bytes value) :: ofParameters rest := rfl

/-- A character that is not a percent sign stands for itself, or for a space. -/
theorem read_cons_of_ne {plain : Char → Bytes} {c : Char} (hc : c ≠ '%') (rest : List Char) :
    read plain (c :: rest) = (if c = '+' then [0x20] else plain c) ++ read plain rest := by
  rw [read]
  intro a b others hpercent
  exact absurd hpercent hc

/-! ## Last values -/

/-- The last value is that of the pairs that come after, or else of those that come before. -/
theorem lastValue?_append (key : Bytes) (before after : List Pair) :
    lastValue? key (before ++ after) = (lastValue? key after).or (lastValue? key before) := by
  induction before with
  | nil => simp [lastValue?]
  | cons pair rest ih => rw [List.cons_append, lastValue?, ih, Option.or_assoc, lastValue?]

/-- A key that does not occur has no last value. -/
theorem lastValue?_eq_none {key : Bytes} {pairs : List Pair} (h : ∀ pair ∈ pairs, pair.1 ≠ key) :
    lastValue? key pairs = none := by
  induction pairs with
  | nil => rfl
  | cons pair rest ih =>
      rw [lastValue?, ih fun other hother => h other (List.mem_cons_of_mem _ hother),
        if_neg (h pair List.mem_cons_self)]
      rfl

/-! ## Parameters that are written over others -/

/-- Texts with the same UTF-8 are the same. -/
theorem utf8Bytes_inj {s t : String} : utf8Bytes s = utf8Bytes t ↔ s = t := by
  constructor
  · intro h
    have hbytes : s.toByteArray = t.toByteArray := by
      rw [← String.utf8Encode_toList, ← String.utf8Encode_toList]
      exact congrArg List.toByteArray h
    exact String.toByteArray_inj.1 hbytes
  · rintro rfl
    rfl

/-- The last value of a key of parameters that are written once each is the only one. -/
theorem lastValue?_of_not_mem {p : Parameters} {name : String} (hname : name ∉ p.keys) :
    lastValue? (utf8Bytes name) (ofParameters p) = none := by
  refine lastValue?_eq_none fun pair hpair => ?_
  obtain ⟨⟨k, v⟩, hmem, rfl⟩ := List.mem_map.1 hpair
  intro hkey
  obtain rfl := utf8Bytes_inj.1 hkey
  exact hname (List.mem_map_of_mem hmem)

/-- A parameter that is written has the last value, and the others keep theirs. -/
theorem lastValue?_set {p : Parameters} (hp : p.keys.Nodup) (key : Bytes) (name value : String) :
    lastValue? key (ofParameters (p.set name value)) =
      lastValue? key (ofParameters p ++ [(utf8Bytes name, utf8Bytes value)]) := by
  induction p with
  | nil => rfl
  | cons pair rest ih =>
      obtain ⟨k, v⟩ := pair
      rw [Parameters.keys, List.map_cons, List.nodup_cons] at hp
      by_cases hk : k = name
      · subst hk
        have hrest := lastValue?_of_not_mem hp.1
        simp only [Parameters.set, if_true, ofParameters_cons, lastValue?_append, lastValue?,
          Option.none_or]
        by_cases hkey : utf8Bytes k = key
        · subst hkey
          simp only [hrest, if_true, Option.none_or, Option.some_or]
        · simp only [if_neg hkey, Option.none_or]
      · simp only [Parameters.set, if_neg hk, ofParameters_cons, List.cons_append]
        rw [lastValue?, lastValue?, ih hp.2]

/-- A write leaves no key twice. -/
theorem nodup_keys_set {p : Parameters} (hp : p.keys.Nodup) (name value : String) :
    (p.set name value).keys.Nodup := by
  rw [Parameters.keys_set]
  split
  · exact hp
  · rename_i hname
    refine List.nodup_append.2 ⟨hp, by simp, ?_⟩
    intro k hk other hother
    rw [List.mem_singleton.1 hother]
    exact ne_of_mem_of_not_mem hk hname

/-- Writes leave no key twice. -/
theorem nodup_keys_overlay {p : Parameters} (hp : p.keys.Nodup) (others : Parameters) :
    (p.overlay others).keys.Nodup := by
  induction others generalizing p with
  | nil => exact hp
  | cons pair rest ih => exact ih (nodup_keys_set hp pair.1 pair.2)

/-- Parameters that are written over others come after them. -/
theorem lastValue?_overlay {p : Parameters} (hp : p.keys.Nodup) (key : Bytes)
    (others : Parameters) :
    lastValue? key (ofParameters (p.overlay others)) =
      lastValue? key (ofParameters p ++ ofParameters others) := by
  induction others generalizing p with
  | nil => simp [Parameters.overlay, ofParameters]
  | cons pair rest ih =>
      obtain ⟨name, value⟩ := pair
      calc lastValue? key (ofParameters (p.overlay ((name, value) :: rest)))
          = lastValue? key (ofParameters (p.set name value) ++ ofParameters rest) :=
            ih (nodup_keys_set hp name value)
        _ = (lastValue? key (ofParameters rest)).or
              (lastValue? key (ofParameters p ++ [(utf8Bytes name, utf8Bytes value)])) := by
            rw [lastValue?_append, lastValue?_set hp]
        _ = lastValue? key (ofParameters p ++ ofParameters ((name, value) :: rest)) := by
            rw [← lastValue?_append, List.append_assoc]
            rfl

/-- Parameters written one after the other stand for what the last of them say. -/
theorem lastValue?_ofPairs (key : Bytes) (written : Parameters) :
    lastValue? key (ofParameters (Parameters.ofPairs written)) =
      lastValue? key (ofParameters written) :=
  lastValue?_overlay (p := []) List.nodup_nil key written

/-! ## Decoding -/

/-- The bytes of a symbol: those of its character, or the one that was escaped. -/
def symbolBytes : Parameters.Symbol → Bytes
  | .char c => String.utf8EncodeChar c
  | .byte b => [b]

/-- The symbols of an encoded text have its bytes when raw characters are read as UTF-8. -/
theorem read_of_symbols? {cs : List Char} {symbols : List Parameters.Symbol}
    (h : Parameters.symbols? cs = some symbols) :
    read String.utf8EncodeChar cs = symbols.flatMap symbolBytes := by
  fun_induction Parameters.symbols? cs generalizing symbols with
  | case1 =>
      cases h
      rfl
  | case2 a b rest ih =>
      simp only [Option.bind_eq_bind, Option.bind_eq_some_iff, Option.pure_def,
        Option.some.injEq] at h
      obtain ⟨high, hhigh, low, hlow, others, hothers, rfl⟩ := h
      simp only [read, hhigh, hlow, ih hothers, List.flatMap_cons, symbolBytes,
        List.singleton_append]
  | case3 rest hpercent => cases h
  | case4 c rest hescape hpercent ih =>
      simp only [Option.bind_eq_bind, Option.bind_eq_some_iff, Option.pure_def,
        Option.some.injEq] at h
      obtain ⟨others, hothers, rfl⟩ := h
      rw [read_cons_of_ne hpercent, ih hothers, List.flatMap_cons]
      congr 1
      split
      · rfl
      · rfl

/-- Symbols that are assembled after a run of bytes have the bytes of the text. -/
theorem encode_of_assemble? {run : Bytes} {symbols : List Parameters.Symbol} {cs : List Char}
    (h : Parameters.assemble? run symbols = some cs) :
    Utf8.encode cs = run.reverse ++ symbols.flatMap symbolBytes := by
  fun_induction Parameters.assemble? run symbols generalizing cs with
  | case1 run => simpa using Utf8.encode_of_decode? h
  | case2 run b rest ih =>
      rw [ih h]
      simp [symbolBytes]
  | case3 run c rest ih =>
      simp only [Option.bind_eq_bind, Option.bind_eq_some_iff, Option.pure_def,
        Option.some.injEq] at h
      obtain ⟨before, hbefore, others, hothers, rfl⟩ := h
      have hothers := ih hothers
      have hbefore := Utf8.encode_of_decode? hbefore
      simp only [Utf8.encode, List.flatMap_append, List.flatMap_cons] at hbefore hothers ⊢
      rw [hbefore, hothers]
      simp [symbolBytes]

/-- A text that is decoded has the bytes that it is decoded from. -/
theorem utf8Bytes_of_decodeComponent? {cs : List Char} {s : String}
    (h : Parameters.decodeComponent? cs = some s) :
    utf8Bytes s = read String.utf8EncodeChar cs := by
  simp only [Parameters.decodeComponent?, Option.bind_eq_bind, Option.bind_eq_some_iff,
    Option.pure_def, Option.some.injEq] at h
  obtain ⟨symbols, hsymbols, decoded, hdecoded, rfl⟩ := h
  rw [utf8Bytes, String.toList_ofList, encode_of_assemble? hdecoded, read_of_symbols? hsymbols]
  rfl

/-- Pieces that are decoded have the bytes that they are decoded from. -/
theorem ofParameters_of_mapM {pieces : List (List Char)} {decoded : Parameters}
    (h : pieces.mapM Parameters.decodePiece? = some decoded) :
    ofParameters decoded = pieces.map fun piece =>
      (read String.utf8EncodeChar (Parameters.cutPiece piece).1,
        read String.utf8EncodeChar (Parameters.cutPiece piece).2) := by
  induction pieces generalizing decoded with
  | nil =>
      cases h
      rfl
  | cons piece rest ih =>
      simp only [List.mapM_cons, Parameters.decodePiece?, Option.bind_eq_bind,
        Option.bind_eq_some_iff, Option.pure_def, Option.some.injEq] at h
      obtain ⟨pair, ⟨key, hkey, value, hvalue, rfl⟩, others, hothers, rfl⟩ := h
      rw [ofParameters_cons, List.map_cons, ih hothers, utf8Bytes_of_decodeComponent? hkey,
        utf8Bytes_of_decodeComponent? hvalue]

/-- A query that is decoded has, key by key, the last values that it is decoded from. -/
theorem lastValue?_of_decode? {query : String} {p : Parameters}
    (h : Parameters.decode? query = some p) (key : Bytes) :
    lastValue? key (ofParameters p) =
      lastValue? key (pairs String.utf8EncodeChar query.toList) := by
  simp only [Parameters.decode?, Option.bind_eq_bind, Option.bind_eq_some_iff, Option.pure_def,
    Option.some.injEq] at h
  obtain ⟨decoded, hdecoded, rfl⟩ := h
  rw [lastValue?_ofPairs, ofParameters_of_mapM hdecoded]
  rfl

/-- The keys of a query that was decoded occur once. -/
theorem nodup_keys_of_decode? {query : String} {p : Parameters}
    (h : Parameters.decode? query = some p) : p.keys.Nodup := by
  simp only [Parameters.decode?, Option.bind_eq_bind, Option.bind_eq_some_iff, Option.pure_def,
    Option.some.injEq] at h
  obtain ⟨decoded, -, rfl⟩ := h
  exact nodup_keys_overlay (p := []) List.nodup_nil decoded

/-! ## Encoding -/

/-- What holds of the bytes of all numbers below 256 holds of every byte. -/
theorem forall_byte {P : UInt8 → Prop} (h : ∀ n < 256, P (UInt8.ofNat n)) (b : UInt8) : P b := by
  have hb := h b.toNat b.toNat_lt
  rwa [UInt8.ofNat_toNat] at hb

/-- A byte that is written as a character is the byte of this character, which is not a mark. -/
theorem rawByte_of_isPlainByte : ∀ b : UInt8, Parameters.isPlainByte b = true →
    Char.ofNat b.toNat ≠ '%' ∧ Char.ofNat b.toNat ≠ '+' ∧ rawByte (Char.ofNat b.toNat) = [b] :=
  forall_byte (by decide +kernel)

/-- Ampersands and equals signs are written as escaped bytes. -/
theorem not_mem_encodeByte : ∀ b : UInt8,
    '&' ∉ Parameters.encodeByte b ∧ '=' ∉ Parameters.encodeByte b :=
  forall_byte (by decide +kernel)

/-- A digit that is written is read. -/
theorem hexDigit?_hexDigit : ∀ n < 16, Parameters.hexDigit? (Parameters.hexDigit n) = some n := by
  decide

/-- A byte as it is written stands for itself. -/
theorem read_encodeByte (b : UInt8) (rest : List Char) :
    read rawByte (Parameters.encodeByte b ++ rest) = b :: read rawByte rest := by
  unfold Parameters.encodeByte
  split
  · rename_i hspace
    rw [hspace, List.singleton_append, read_cons_of_ne (by decide)]
    rfl
  · split
    · rename_i hplain
      obtain ⟨hpercent, hplus, hbyte⟩ := rawByte_of_isPlainByte b hplain
      rw [List.singleton_append, read_cons_of_ne hpercent, if_neg hplus, hbyte]
      rfl
    · have hbound := b.toNat_lt
      have hhigh := hexDigit?_hexDigit (b.toNat / 16) (by omega)
      have hlow := hexDigit?_hexDigit (b.toNat % 16) (by omega)
      have hbyte : UInt8.ofNat (b.toNat / 16 * 16 + b.toNat % 16) = b := by
        rw [Nat.div_add_mod', UInt8.ofNat_toNat]
      simp only [List.cons_append, List.nil_append, read, hhigh, hlow, hbyte]

/-- A text as it is written stands for its UTF-8. -/
theorem read_encodeComponent (s : String) :
    read rawByte (Parameters.encodeComponent s) = utf8Bytes s := by
  unfold Parameters.encodeComponent
  induction utf8Bytes s with
  | nil => rfl
  | cons b rest ih => rw [List.flatMap_cons, read_encodeByte, ih]

/-- A text as it is written holds neither ampersands nor equals signs. -/
theorem not_mem_encodeComponent (s : String) :
    '&' ∉ Parameters.encodeComponent s ∧ '=' ∉ Parameters.encodeComponent s := by
  constructor
  · intro hmem
    obtain ⟨b, -, hb⟩ := List.mem_flatMap.1 hmem
    exact (not_mem_encodeByte b).1 hb
  · intro hmem
    obtain ⟨b, -, hb⟩ := List.mem_flatMap.1 hmem
    exact (not_mem_encodeByte b).2 hb

/-- A piece as it is written is cut into its key and its value. -/
theorem cutPiece_encodePiece (pair : String × String) :
    Parameters.cutPiece (Parameters.encodePiece pair) =
      (Parameters.encodeComponent pair.1, Parameters.encodeComponent pair.2) := by
  have hcut := (cutAtFirst_eq_some_iff '=' (Parameters.encodePiece pair) _ _).2
    ⟨rfl, (not_mem_encodeComponent pair.1).2⟩
  rw [Parameters.cutPiece, hcut]
  rfl

/-- A query as it is written is cut into the pieces that were written. -/
theorem pieces_encode (p : Parameters) :
    Parameters.pieces p.encode.toList = p.map Parameters.encodePiece := by
  cases p with
  | nil => rfl
  | cons pair rest =>
      have hmark : ∀ piece ∈ (pair :: rest).map Parameters.encodePiece, '&' ∉ piece := by
        intro piece hpiece
        obtain ⟨other, -, rfl⟩ := List.mem_map.1 hpiece
        simp [Parameters.encodePiece, not_mem_encodeComponent]
      rw [Parameters.encode, String.toList_ofList, Parameters.pieces,
        piecesAt_joinWith (by simp) hmark]
      refine List.filter_eq_self.2 fun piece hpiece => ?_
      obtain ⟨other, -, rfl⟩ := List.mem_map.1 hpiece
      simp [Parameters.encodePiece]

/-- A query as it is written stands for the UTF-8 of its parameters. -/
theorem pairs_encode (p : Parameters) : pairs rawByte p.encode.toList = ofParameters p := by
  rw [pairs, pieces_encode, List.map_map]
  refine List.map_congr_left fun pair _ => ?_
  simp only [Function.comp_apply, cutPiece_encodePiece, read_encodeComponent]

/-! ## Raw characters -/

/-- A text reads the same in two ways where its characters do. -/
theorem read_congr {plain plain' : Char → Bytes} {cs : List Char}
    (h : ∀ c ∈ cs, plain c = plain' c) : read plain cs = read plain' cs := by
  fun_induction read plain cs with
  | case1 => rfl
  | case2 a b rest high low hhigh hlow ih =>
      have hrest : ∀ c ∈ rest, plain c = plain' c := fun c hc => h c (by simp [hc])
      simp only [read, hhigh, hlow, ih hrest]
  | case3 a b rest hdigits ih =>
      rw [read, ih fun c hc => h c (List.mem_cons_of_mem _ hc), h '%' List.mem_cons_self]
      split
      · rename_i high low hhigh hlow
        exact absurd hlow (hdigits high low hhigh)
      · rfl
  | case4 c rest hescape ih =>
      rw [read, ih fun d hd => h d (List.mem_cons_of_mem _ hd), h c List.mem_cons_self]
      exact hescape

/-- The parts of a piece are made of its characters. -/
theorem mem_of_mem_cutPiece {piece : List Char} {c : Char}
    (h : c ∈ (Parameters.cutPiece piece).1 ∨ c ∈ (Parameters.cutPiece piece).2) : c ∈ piece := by
  rcases hcut : cutAtFirst '=' piece with ⟨key, value⟩
  simp only [Parameters.cutPiece, hcut] at h
  cases value with
  | none =>
      obtain ⟨rfl, -⟩ := (cutAtFirst_eq_none_iff '=' piece key).1 hcut
      simpa using h
  | some value =>
      obtain ⟨rfl, -⟩ := (cutAtFirst_eq_some_iff '=' piece key value).1 hcut
      rcases h with hkey | hvalue
      · exact List.mem_append_left _ hkey
      · exact List.mem_append_right _ (List.mem_cons_of_mem _ hvalue)

/-- A query reads the same in two ways where its characters do. -/
theorem pairs_congr {plain plain' : Char → Bytes} {query : List Char}
    (h : ∀ c ∈ query, plain c = plain' c) : pairs plain query = pairs plain' query := by
  refine List.map_congr_left fun piece hpiece => ?_
  have hmem : ∀ c ∈ piece, plain c = plain' c := fun c hc =>
    h c (mem_of_mem_piecesAt (List.mem_filter.1 hpiece).1 hc)
  dsimp only
  rw [read_congr fun c hc => hmem c (mem_of_mem_cutPiece (.inl hc)),
    read_congr fun c hc => hmem c (mem_of_mem_cutPiece (.inr hc))]

/-- A raw character of seven bits is its own UTF-8. -/
theorem rawByte_of_lt {c : Char} (h : c.toNat < 0x80) : rawByte c = String.utf8EncodeChar c := by
  have hcode : c.val.toNat ≤ 0x7f := Nat.le_of_lt_succ h
  unfold String.utf8EncodeChar
  dsimp only
  rw [if_pos hcode]
  rfl

end QueryBytes

end FaultInjection
