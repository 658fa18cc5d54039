import FaultInjection.Text.Encoding

/-!
# Text - Bytes that are read as characters

Bytes that are read as characters are the bytes of these characters: the bounds that a
lead byte puts on the bytes after it leave one sequence for each character.  They leave no
character out, so that bytes of characters are read as these.

Main results:

- `Utf8.cons_of_next`: a sequence that is read is that of its character.
- `Utf8.encode_of_decode?`: bytes that are read as characters are their bytes.
- `Utf8.next_encodeChar`: the sequence of a character is read.
- `Utf8.decode?_encode`: the bytes of characters are read as these characters.
- `utf8Text_utf8Bytes`: the bytes of a text are shown as that text, without a replacement.
-/

namespace FaultInjection

namespace Utf8

/-! ## Continuation bytes -/

/-- A sequence that is complete without a byte has the code point of its bits. -/
theorem eq_of_continuation_zero {least greatest bits code : Nat} {bytes rest : Bytes}
    (h : continuation 0 least greatest bits bytes = (some code, rest)) :
    code = bits ∧ rest = bytes := by
  simp only [continuation, Prod.mk.injEq, Option.some.injEq] at h
  exact ⟨h.1.symm, h.2.symm⟩

/-- A continuation byte that is read is within its bounds and adds its bits. -/
theorem exists_of_continuation_succ {count least greatest bits code : Nat} {bytes rest : Bytes}
    (h : continuation (count + 1) least greatest bits bytes = (some code, rest)) :
    ∃ b tail, bytes = b :: tail ∧ least ≤ b.toNat ∧ b.toNat ≤ greatest ∧
      continuation count 0x80 0xbf (bits * 64 + (b.toNat - 0x80)) tail = (some code, rest) := by
  cases bytes with
  | nil => simp [continuation] at h
  | cons b tail =>
      unfold continuation at h
      split at h
      · rename_i hbounds
        simp only [Bool.and_eq_true, decide_eq_true_eq] at hbounds
        exact ⟨b, tail, rfl, hbounds.1, hbounds.2, h⟩
      · cases h

/-! ## Sequences of characters -/

/-- The code point of the character that a valid code point stands for. -/
theorem toNat_ofNat {n : Nat} (h : n.isValidChar) : (Char.ofNat n).val.toNat = n := by
  rw [Char.ofNat, dif_pos h]
  rfl

/-- A byte is that of a number it is congruent to. -/
theorem ofNat_eq {b : UInt8} {n : Nat} (h : n % 256 = b.toNat) : UInt8.ofNat n = b := by
  apply UInt8.toNat_inj.1
  rw [UInt8.toNat_ofNat', h]

variable {first second third fourth : UInt8} {n : Nat}

/-- A character of seven bits has one byte. -/
theorem encodeChar_one (hn : n = first.toNat) (h : n < 0x80) :
    String.utf8EncodeChar (Char.ofNat n) = [first] := by
  have hcode := toNat_ofNat (.inl (by omega : n < 0xd800))
  unfold String.utf8EncodeChar
  dsimp only
  rw [hcode, if_pos (by omega), ofNat_eq (b := first) (by omega)]

/-- A character of eleven bits has two bytes. -/
theorem encodeChar_two (hn : n = (first.toNat - 0xc0) * 64 + (second.toNat - 0x80))
    (hfirst : 0xc2 ≤ first.toNat) (hfirst' : first.toNat < 0xe0)
    (hsecond : 0x80 ≤ second.toNat) (hsecond' : second.toNat ≤ 0xbf) :
    String.utf8EncodeChar (Char.ofNat n) = [first, second] := by
  have hcode := toNat_ofNat (.inl (by omega : n < 0xd800))
  unfold String.utf8EncodeChar
  dsimp only
  rw [hcode, if_neg (by omega), if_pos (by omega), ofNat_eq (b := first) (by omega),
    ofNat_eq (b := second) (by omega)]

/-- A character of sixteen bits has three bytes. -/
theorem encodeChar_three
    (hn : n = ((first.toNat - 0xe0) * 64 + (second.toNat - 0x80)) * 64 + (third.toNat - 0x80))
    (hfirst : 0xe0 ≤ first.toNat) (hfirst' : first.toNat < 0xf0)
    (hsecond : 0x80 ≤ second.toNat) (hsecond' : second.toNat ≤ 0xbf)
    (hthird : 0x80 ≤ third.toNat) (hthird' : third.toNat ≤ 0xbf)
    (hleast : 0x800 ≤ n) (hvalid : n.isValidChar) :
    String.utf8EncodeChar (Char.ofNat n) = [first, second, third] := by
  have hcode := toNat_ofNat hvalid
  unfold String.utf8EncodeChar
  dsimp only
  rw [hcode, if_neg (by omega), if_neg (by omega), if_pos (by omega),
    ofNat_eq (b := first) (by omega), ofNat_eq (b := second) (by omega),
    ofNat_eq (b := third) (by omega)]

/-- A character of more than sixteen bits has four bytes. -/
theorem encodeChar_four
    (hn : n = (((first.toNat - 0xf0) * 64 + (second.toNat - 0x80)) * 64 +
      (third.toNat - 0x80)) * 64 + (fourth.toNat - 0x80))
    (hfirst : 0xf0 ≤ first.toNat)
    (hsecond : 0x80 ≤ second.toNat) (hsecond' : second.toNat ≤ 0xbf)
    (hthird : 0x80 ≤ third.toNat) (hthird' : third.toNat ≤ 0xbf)
    (hfourth : 0x80 ≤ fourth.toNat) (hfourth' : fourth.toNat ≤ 0xbf)
    (hleast : 0x10000 ≤ n) (hgreatest : n < 0x110000) :
    String.utf8EncodeChar (Char.ofNat n) = [first, second, third, fourth] := by
  have hcode := toNat_ofNat (.inr ⟨by omega, hgreatest⟩)
  unfold String.utf8EncodeChar
  dsimp only
  rw [hcode, if_neg (by omega), if_neg (by omega), if_neg (by omega),
    ofNat_eq (b := first) (by omega), ofNat_eq (b := second) (by omega),
    ofNat_eq (b := third) (by omega), ofNat_eq (b := fourth) (by omega)]

/-! ## Lead bytes -/

/-- What lead bytes ask for, by the count of bytes after them.  The bounds on the first of these
leave out code points with a shorter sequence, surrogates and those that are too large. -/
inductive Leads (b : Nat) : Lead → Prop
  | alone (h : b < 0x80) : Leads b ⟨0, 0x80, 0xbf, b⟩
  | two (h : 0xc2 ≤ b) (h' : b < 0xe0) : Leads b ⟨1, 0x80, 0xbf, b - 0xc0⟩
  | three {least greatest : Nat} (h : 0xe0 ≤ b) (h' : b < 0xf0) (hleast : 0x80 ≤ least)
      (hgreatest : greatest ≤ 0xbf) (hlong : b = 0xe0 → 0xa0 ≤ least)
      (hsurrogate : b = 0xed → greatest ≤ 0x9f) : Leads b ⟨2, least, greatest, b - 0xe0⟩
  | four {least greatest : Nat} (h : 0xf0 ≤ b) (h' : b ≤ 0xf4) (hleast : 0x80 ≤ least)
      (hgreatest : greatest ≤ 0xbf) (hlong : b = 0xf0 → 0x90 ≤ least)
      (hlarge : b = 0xf4 → greatest ≤ 0x8f) : Leads b ⟨3, least, greatest, b - 0xf0⟩

/-- A lead byte asks for what those of its kind ask for. -/
theorem leads_of_lead? {b : Nat} {l : Lead} (h : lead? b = some l) : Leads b l := by
  unfold lead? at h
  split at h
  · cases h
    exact .alone (by omega)
  split at h
  · cases h
  split at h
  · cases h
    exact .two (by omega) (by omega)
  split at h
  · subst b
    cases h
    exact .three (by omega) (by omega) (by omega) (by omega) (by omega) (by omega)
  split at h
  · subst b
    cases h
    exact .three (by omega) (by omega) (by omega) (by omega) (by omega) (by omega)
  split at h
  · cases h
    exact .three (by omega) (by omega) (by omega) (by omega) (by omega) (by omega)
  split at h
  · subst b
    cases h
    exact .four (by omega) (by omega) (by omega) (by omega) (by omega) (by omega)
  split at h
  · subst b
    cases h
    exact .four (by omega) (by omega) (by omega) (by omega) (by omega) (by omega)
  split at h
  · cases h
    exact .four (by omega) (by omega) (by omega) (by omega) (by omega) (by omega)
  · cases h

/-! ## Reading -/

/-- A sequence that is read is that of its character. -/
theorem cons_of_next {b : UInt8} {bytes rest : Bytes} {c : Char}
    (h : next b bytes = (some c, rest)) : b :: bytes = String.utf8EncodeChar c ++ rest := by
  unfold next at h
  split at h
  · cases h
  · rename_i l hlead
    rcases hcode : continuation l.count l.least l.greatest l.bits bytes with ⟨code, tail⟩
    simp only [hcode, Prod.mk.injEq, Option.map_eq_some_iff] at h
    obtain ⟨⟨n, rfl, rfl⟩, rfl⟩ := h
    cases leads_of_lead? hlead with
    | alone hb =>
        dsimp only at hcode
        obtain ⟨hn, rfl⟩ := eq_of_continuation_zero hcode
        rw [encodeChar_one hn (by omega)]
        rfl
    | two hb hb' =>
        dsimp only at hcode
        obtain ⟨second, tail, rfl, hsecond, hsecond', hcode⟩ := exists_of_continuation_succ hcode
        obtain ⟨hn, rfl⟩ := eq_of_continuation_zero hcode
        rw [encodeChar_two hn hb hb' hsecond hsecond']
        rfl
    | three hb hb' hleast hgreatest hlong hsurrogate =>
        dsimp only at hcode
        obtain ⟨second, tail, rfl, hsecond, hsecond', hcode⟩ := exists_of_continuation_succ hcode
        obtain ⟨third, tail, rfl, hthird, hthird', hcode⟩ := exists_of_continuation_succ hcode
        obtain ⟨hn, rfl⟩ := eq_of_continuation_zero hcode
        rw [encodeChar_three hn hb hb' (by omega) (by omega) hthird hthird' (by omega) ?_]
        · rfl
        · by_cases hlow : n < 0xd800
          · exact .inl hlow
          · exact .inr ⟨by omega, by omega⟩
    | four hb hb' hleast hgreatest hlong hlarge =>
        dsimp only at hcode
        obtain ⟨second, tail, rfl, hsecond, hsecond', hcode⟩ := exists_of_continuation_succ hcode
        obtain ⟨third, tail, rfl, hthird, hthird', hcode⟩ := exists_of_continuation_succ hcode
        obtain ⟨fourth, tail, rfl, hfourth, hfourth', hcode⟩ := exists_of_continuation_succ hcode
        obtain ⟨hn, rfl⟩ := eq_of_continuation_zero hcode
        rw [encodeChar_four hn hb (by omega) (by omega) hthird hthird' hfourth hfourth' (by omega)
          (by omega)]
        rfl

/-- Bytes that are read as characters are the bytes of these characters. -/
theorem encode_of_decode? {bytes : Bytes} {cs : List Char} (h : decode? bytes = some cs) :
    encode cs = bytes := by
  fun_induction decode? bytes generalizing cs with
  | case1 =>
      cases h
      rfl
  | case2 b bytes rest hnext => cases h
  | case3 b bytes c rest hnext hrest ih =>
      obtain ⟨others, hothers, rfl⟩ := Option.map_eq_some_iff.1 h
      rw [cons_of_next hnext, ← ih hothers]
      rfl

/-! ## Writing and reading -/

/-- A continuation byte within its bounds is read. -/
theorem continuation_succ_cons {count least greatest bits : Nat} {b : UInt8} {bytes : Bytes}
    (hleast : least ≤ b.toNat) (hgreatest : b.toNat ≤ greatest) :
    continuation (count + 1) least greatest bits (b :: bytes) =
      continuation count 0x80 0xbf (bits * 64 + (b.toNat - 0x80)) bytes := by
  rw [continuation, if_pos (by simp [hleast, hgreatest])]

/-- A lead byte of two bytes. -/
theorem lead?_two {b : Nat} (h : 0xc2 ≤ b) (h' : b < 0xe0) :
    lead? b = some ⟨1, 0x80, 0xbf, b - 0xc0⟩ := by
  rw [lead?, if_neg (by omega), if_neg (by omega), if_pos h']

/-- A lead byte of three bytes leaves out the code points with a shorter sequence and the
surrogates, and no others. -/
theorem lead?_three {b : Nat} (h : 0xe0 ≤ b) (h' : b < 0xf0) :
    ∃ least greatest, lead? b = some ⟨2, least, greatest, b - 0xe0⟩ ∧
      (least = 0x80 ∨ b = 0xe0 ∧ least = 0xa0) ∧
      (greatest = 0xbf ∨ b = 0xed ∧ greatest = 0x9f) := by
  rw [lead?, if_neg (by omega), if_neg (by omega), if_neg (by omega)]
  by_cases hlong : b = 0xe0
  · subst hlong
    exact ⟨0xa0, 0xbf, rfl, .inr ⟨rfl, rfl⟩, .inl rfl⟩
  by_cases hsurrogate : b = 0xed
  · subst hsurrogate
    exact ⟨0x80, 0x9f, rfl, .inl rfl, .inr ⟨rfl, rfl⟩⟩
  · rw [if_neg hlong, if_neg hsurrogate, if_pos h']
    exact ⟨0x80, 0xbf, rfl, .inl rfl, .inl rfl⟩

/-- A lead byte of four bytes leaves out the code points with a shorter sequence and those that are
too large, and no others. -/
theorem lead?_four {b : Nat} (h : 0xf0 ≤ b) (h' : b ≤ 0xf4) :
    ∃ least greatest, lead? b = some ⟨3, least, greatest, b - 0xf0⟩ ∧
      (least = 0x80 ∨ b = 0xf0 ∧ least = 0x90) ∧
      (greatest = 0xbf ∨ b = 0xf4 ∧ greatest = 0x8f) := by
  rw [lead?, if_neg (by omega), if_neg (by omega), if_neg (by omega), if_neg (by omega),
    if_neg (by omega), if_neg (by omega)]
  by_cases hlong : b = 0xf0
  · subst hlong
    exact ⟨0x90, 0xbf, rfl, .inr ⟨rfl, rfl⟩, .inl rfl⟩
  by_cases hlarge : b = 0xf4
  · subst hlarge
    exact ⟨0x80, 0x8f, rfl, .inl rfl, .inr ⟨rfl, rfl⟩⟩
  · rw [if_neg hlong, if_neg hlarge, if_pos (by omega)]
    exact ⟨0x80, 0xbf, rfl, .inl rfl, .inl rfl⟩

/-- The number of a byte below 256. -/
theorem toNat_ofNat_lt {n : Nat} (h : n < 256) : (UInt8.ofNat n).toNat = n := by
  rw [UInt8.toNat_ofNat', Nat.mod_eq_of_lt h]

/-- A character that is written is read, whatever bytes follow it. -/
theorem next_encodeChar (c : Char) (rest : Bytes) :
    ∃ b tail, String.utf8EncodeChar c = b :: tail ∧ next b (tail ++ rest) = (some c, rest) := by
  have hvalid := c.valid
  have hc : Char.ofNat c.val.toNat = c := Char.ofNat_toNat c
  have hlimit : c.val.toNat < 0xd800 ∨ 0xdfff < c.val.toNat ∧ c.val.toNat < 0x110000 := hvalid
  unfold String.utf8EncodeChar
  dsimp only
  generalize c.val.toNat = v at hc hlimit
  split
  · rename_i hone
    refine ⟨_, _, rfl, ?_⟩
    have hfirst := toNat_ofNat_lt (n := v) (by omega)
    simp only [next, hfirst, lead?, if_pos (show v < 0x80 by omega), continuation, List.nil_append,
      Option.map_some, hc]
  split
  · rename_i hone htwo
    refine ⟨_, _, rfl, ?_⟩
    have hfirst := toNat_ofNat_lt (n := v / 64 % 32 + 192) (by omega)
    have hsecond := toNat_ofNat_lt (n := v % 64 + 128) (by omega)
    have hbits : (v / 64 % 32 + 192 - 0xc0) * 64 + (v % 64 + 128 - 0x80) = v := by omega
    simp only [next, hfirst, lead?_two (show 0xc2 ≤ v / 64 % 32 + 192 by omega) (by omega),
      List.cons_append, List.nil_append]
    rw [continuation_succ_cons (by omega) (by omega), continuation, hsecond, hbits,
      Option.map_some, hc]
  split
  · rename_i hone htwo hthree
    refine ⟨_, _, rfl, ?_⟩
    have hfirst := toNat_ofNat_lt (n := v / 4096 % 16 + 224) (by omega)
    have hsecond := toNat_ofNat_lt (n := v / 64 % 64 + 128) (by omega)
    have hthird := toNat_ofNat_lt (n := v % 64 + 128) (by omega)
    have hbits : ((v / 4096 % 16 + 224 - 0xe0) * 64 + (v / 64 % 64 + 128 - 0x80)) * 64 +
        (v % 64 + 128 - 0x80) = v := by omega
    obtain ⟨least, greatest, hlead, hleast, hgreatest⟩ :=
      lead?_three (show 0xe0 ≤ v / 4096 % 16 + 224 by omega) (by omega)
    simp only [next, hfirst, hlead, List.cons_append, List.nil_append]
    rw [continuation_succ_cons (by omega) (by omega), continuation_succ_cons (by omega) (by omega),
      continuation, hsecond, hthird, hbits, Option.map_some, hc]
  · rename_i hone htwo hthree
    refine ⟨_, _, rfl, ?_⟩
    have hfirst := toNat_ofNat_lt (n := v / 262144 % 8 + 240) (by omega)
    have hsecond := toNat_ofNat_lt (n := v / 4096 % 64 + 128) (by omega)
    have hthird := toNat_ofNat_lt (n := v / 64 % 64 + 128) (by omega)
    have hfourth := toNat_ofNat_lt (n := v % 64 + 128) (by omega)
    have hbits : (((v / 262144 % 8 + 240 - 0xf0) * 64 + (v / 4096 % 64 + 128 - 0x80)) * 64 +
        (v / 64 % 64 + 128 - 0x80)) * 64 + (v % 64 + 128 - 0x80) = v := by omega
    obtain ⟨least, greatest, hlead, hleast, hgreatest⟩ :=
      lead?_four (show 0xf0 ≤ v / 262144 % 8 + 240 by omega) (by omega)
    simp only [next, hfirst, hlead, List.cons_append, List.nil_append]
    rw [continuation_succ_cons (by omega) (by omega), continuation_succ_cons (by omega) (by omega),
      continuation_succ_cons (by omega) (by omega), continuation, hsecond, hthird, hfourth, hbits,
      Option.map_some, hc]

/-- Characters that are written are read. -/
theorem decode?_encode (cs : List Char) : decode? (encode cs) = some cs := by
  induction cs with
  | nil => simp [encode, decode?]
  | cons c rest ih =>
      obtain ⟨b, tail, hbytes, hnext⟩ := next_encodeChar c (encode rest)
      have hwritten : encode (c :: rest) = b :: (tail ++ encode rest) := by
        rw [encode, List.flatMap_cons, hbytes]
        rfl
      rw [hwritten, decode?]
      split
      · rename_i hbroken
        rw [hnext] at hbroken
        cases hbroken
      · rename_i d others hread
        rw [hnext] at hread
        cases hread
        rw [ih]
        rfl

/-- Nothing is replaced in bytes that are read as characters. -/
theorem decodeLossy_of_decode? {bytes : Bytes} {cs : List Char} (h : decode? bytes = some cs) :
    decodeLossy bytes = cs := by
  fun_induction decode? bytes generalizing cs with
  | case1 =>
      cases h
      rw [decodeLossy]
  | case2 b bytes rest hnext => cases h
  | case3 b bytes c rest hnext hrest ih =>
      obtain ⟨others, hothers, rfl⟩ := Option.map_eq_some_iff.1 h
      rw [decodeLossy]
      split
      rename_i d others' hread
      rw [hnext] at hread
      cases hread
      rw [ih hothers, Option.getD_some]

end Utf8

/-- The bytes of a text are shown as that text. -/
theorem utf8Text_utf8Bytes (s : String) : utf8Text (utf8Bytes s) = s := by
  rw [utf8Text, utf8Bytes, Utf8.decodeLossy_of_decode? (Utf8.decode?_encode s.toList),
    String.ofList_toList]

end FaultInjection
