import FaultInjection.Proofs.Target.QueryBytes
import Mathlib.Control.Monad.Basic

/-!
# Request targets - Parameters that are written and read

Parameters are written one after the other, each in place where its key is there and at
the end where it is not.  Hence it makes no difference whether a query is cut in two before
it is decoded or after, and parameters that are encoded come back from their query as they
were, order of keys included.

Main results:

- `Parameters.overlay_overlay`: parameters can be written over one another in any grouping.
- `Parameters.keys_overlay` and `Parameters.get?_overlay`: the keys and values after writes.
- `Parameters.decode?_of_pieces`: a query in two parts is decoded part by part.
- `Parameters.decode?_encode`: parameters that are encoded are decoded to themselves.
-/

namespace FaultInjection

namespace Parameters

/-! ## Writes -/

/-- A key that is not there is written at the end. -/
theorem set_of_not_mem {p : Parameters} {key : String} (hkey : key ∉ p.keys) (value : String) :
    p.set key value = p ++ [(key, value)] := by
  induction p with
  | nil => rfl
  | cons pair rest ih =>
      obtain ⟨k, v⟩ := pair
      simp only [keys, List.map_cons, List.mem_cons, not_or] at hkey
      rw [set, if_neg (Ne.symm hkey.1), ih hkey.2, List.cons_append]

/-- Of two writes of one key the second counts. -/
theorem set_set_self (p : Parameters) (key first second : String) :
    (p.set key first).set key second = p.set key second := by
  induction p with
  | nil => simp [set]
  | cons pair rest ih =>
      obtain ⟨k, v⟩ := pair
      by_cases hk : k = key <;> simp [set, hk, ih]

/-- A key that is there keeps its place, so it can be written before another one as well as after
it. -/
theorem set_comm_of_mem {p : Parameters} {key other : String} (hkey : key ∈ p.keys)
    (hne : key ≠ other) (value written : String) :
    (p.set other written).set key value = (p.set key value).set other written := by
  induction p with
  | nil => cases hkey
  | cons pair rest ih =>
      obtain ⟨k, v⟩ := pair
      by_cases hk : k = key
      · subst hk
        simp [set, hne]
      · have hrest : key ∈ keys rest := by
          rcases List.mem_cons.1 hkey with heq | hmem
          · exact absurd heq.symm hk
          · exact hmem
        by_cases hother : k = other
        · subst hother
          simp [set, hk]
        · simp only [set, if_neg hk, if_neg hother, ih hrest]

/-- A written key is there. -/
theorem mem_keys_set (p : Parameters) (key value : String) : key ∈ (p.set key value).keys := by
  rw [keys_set]
  split
  · assumption
  · simp

/-- A key that is there stays there. -/
theorem mem_keys_set_of_mem {p : Parameters} {key : String} (hkey : key ∈ p.keys)
    (other value : String) : key ∈ (p.set other value).keys := by
  rw [keys_set]
  split
  · exact hkey
  · exact List.mem_append_left _ hkey

/-! ## Parameters written over others -/

@[simp] theorem overlay_nil (p : Parameters) : p.overlay [] = p := rfl

@[simp] theorem overlay_cons (p : Parameters) (key value : String) (rest : Parameters) :
    p.overlay ((key, value) :: rest) = (p.set key value).overlay rest := rfl

theorem overlay_append (p first second : Parameters) :
    p.overlay (first ++ second) = (p.overlay first).overlay second :=
  List.foldl_append

/-- A key that is there, and is not among those that are written over, can be written before them as
well as after them. -/
theorem set_overlay_of_not_mem {p others : Parameters} {key : String} (hkey : key ∈ p.keys)
    (hothers : key ∉ others.keys) (value : String) :
    (p.overlay others).set key value = (p.set key value).overlay others := by
  induction others generalizing p with
  | nil => rfl
  | cons pair rest ih =>
      obtain ⟨k, v⟩ := pair
      simp only [keys, List.map_cons, List.mem_cons, not_or] at hothers
      rw [overlay_cons, overlay_cons, ih (mem_keys_set_of_mem hkey k v) hothers.2,
        set_comm_of_mem hkey hothers.1]

/-- A write to parameters that are written over others is a write to the outcome. -/
theorem overlay_set {others : Parameters} (hothers : others.keys.Nodup) (p : Parameters)
    (key value : String) : p.overlay (others.set key value) = (p.overlay others).set key value := by
  induction others generalizing p with
  | nil => rfl
  | cons pair rest ih =>
      obtain ⟨k, v⟩ := pair
      obtain ⟨hfresh, hrest⟩ := List.nodup_cons.1 hothers
      by_cases hk : k = key
      · -- The key has its place by the first write, and the writes in between are of other keys.
        subst hk
        rw [set, if_pos rfl, overlay_cons, overlay_cons,
          set_overlay_of_not_mem (mem_keys_set p k v) hfresh, set_set_self]
      · rw [set, if_neg hk, overlay_cons, overlay_cons, ih hrest]

/-- Writing over parameters and then writing the outcome over others is writing over these both
times. -/
theorem overlay_overlay {others : Parameters} (hothers : others.keys.Nodup)
    (p written : Parameters) :
    p.overlay (others.overlay written) = (p.overlay others).overlay written := by
  induction written generalizing others with
  | nil => rfl
  | cons pair rest ih =>
      obtain ⟨k, v⟩ := pair
      rw [overlay_cons, overlay_cons, ih (QueryBytes.nodup_keys_set hothers k v),
        overlay_set hothers]

/-- Keys that are new are written at the end. -/
theorem overlay_eq_append {p others : Parameters} (h : (p ++ others).keys.Nodup) :
    p.overlay others = p ++ others := by
  induction others generalizing p with
  | nil => simp
  | cons pair rest ih =>
      obtain ⟨k, v⟩ := pair
      have hassoc : p ++ (k, v) :: rest = (p ++ [(k, v)]) ++ rest := by simp
      have hkey : k ∉ p.keys := by
        intro hmem
        rw [keys, List.map_append] at h
        exact (List.nodup_append.1 h).2.2 k hmem k (by simp) rfl
      rw [overlay_cons, set_of_not_mem hkey, ih (hassoc ▸ h), hassoc]

/-- Keys that are there keep their places, and new ones follow in the order of their first
writes. -/
theorem keys_overlay (p others : Parameters) :
    (p.overlay others).keys = p.keys ++ (others.keys.removeAll p.keys).eraseDups := by
  induction others generalizing p with
  | nil => simp [keys, List.nil_removeAll]
  | cons pair rest ih =>
      obtain ⟨k, v⟩ := pair
      have hkeys : keys ((k, v) :: rest) = k :: keys rest := rfl
      rw [overlay_cons, ih, keys_set, hkeys, List.cons_removeAll]
      by_cases hk : k ∈ p.keys
      · simp [hk]
      · have hfilter : (keys rest).removeAll (p.keys ++ [k]) =
            ((keys rest).removeAll p.keys).filter (fun key => !key == k) := by
          simp only [List.removeAll, List.filter_filter, List.elem_eq_contains,
            List.contains_append, List.contains_cons, List.contains_nil, Bool.or_false,
            Bool.not_or]
          exact List.filter_congr fun key _ => Bool.and_comm _ _
        simp [hk, hfilter, List.eraseDups_cons]

/-- Parameters in two parts have the value that is found first. -/
theorem get?_append (key : String) (first second : Parameters) :
    get? key (first ++ second) = (get? key first).or (get? key second) := by
  induction first with
  | nil => rfl
  | cons pair rest ih =>
      obtain ⟨k, v⟩ := pair
      by_cases hk : k = key <;> simp [get?, hk, ih]

/-- A key that is not there has no value. -/
theorem get?_eq_none {p : Parameters} {key : String} (hkey : key ∉ p.keys) :
    p.get? key = none := by
  induction p with
  | nil => rfl
  | cons pair rest ih =>
      obtain ⟨k, v⟩ := pair
      simp only [keys, List.map_cons, List.mem_cons, not_or] at hkey
      rw [get?, if_neg (Ne.symm hkey.1), ih hkey.2]

/-- The last write of a key counts, and a key without one keeps its value. -/
theorem get?_overlay (p others : Parameters) (key : String) :
    (p.overlay others).get? key = (get? key others.reverse).or (p.get? key) := by
  induction others generalizing p with
  | nil => rfl
  | cons pair rest ih =>
      obtain ⟨k, v⟩ := pair
      rw [overlay_cons, ih, List.reverse_cons, get?_append, Option.or_assoc]
      by_cases hk : k = key
      · subst hk
        rw [get?_set_self, get?, if_pos rfl, Option.some_or]
      · rw [get?_set_of_ne p k v key (Ne.symm hk), get?, if_neg hk]
        rfl

/-- Where each key occurs once its last value is its first. -/
theorem get?_reverse {p : Parameters} (hp : p.keys.Nodup) (key : String) :
    get? key p.reverse = p.get? key := by
  induction p with
  | nil => rfl
  | cons pair rest ih =>
      obtain ⟨k, v⟩ := pair
      obtain ⟨hfresh, hrest⟩ := List.nodup_cons.1 hp
      rw [List.reverse_cons, get?_append, ih hrest]
      by_cases hk : k = key
      · subst hk
        simp [get?_eq_none hfresh, get?]
      · simp [get?, hk]

/-- A key that has the value already is not changed by a write. -/
theorem set_eq_self {p : Parameters} {key value : String} (h : p.get? key = some value) :
    p.set key value = p := by
  induction p with
  | nil => cases h
  | cons pair rest ih =>
      obtain ⟨k, v⟩ := pair
      by_cases hk : k = key
      · simp only [get?, if_pos hk, Option.some.injEq] at h
        rw [set, if_pos hk, h]
      · rw [get?, if_neg hk] at h
        rw [set, if_neg hk, ih h]

/-- Parameters with their values already are not changed by writes. -/
theorem overlay_eq_self {p others : Parameters}
    (h : ∀ pair ∈ others, p.get? pair.1 = some pair.2) : p.overlay others = p := by
  induction others with
  | nil => rfl
  | cons pair rest ih =>
      obtain ⟨k, v⟩ := pair
      rw [overlay_cons, set_eq_self (h (k, v) List.mem_cons_self),
        ih fun other hother => h other (List.mem_cons_of_mem _ hother)]

/-- Where each key occurs once it has the value that it occurs with. -/
theorem get?_of_mem {p : Parameters} (hp : p.keys.Nodup) {pair : String × String}
    (hpair : pair ∈ p) : p.get? pair.1 = some pair.2 := by
  induction p with
  | nil => cases hpair
  | cons first rest ih =>
      obtain ⟨hfresh, hrest⟩ := List.nodup_cons.1 hp
      rcases List.mem_cons.1 hpair with rfl | hmem
      · simp [get?]
      · have hne : first.1 ≠ pair.1 := by
          intro heq
          exact hfresh (heq ▸ List.mem_map_of_mem hmem)
        rw [get?, if_neg hne, ih hrest hmem]

/-- Parameters written over themselves are as they were. -/
theorem overlay_self {p : Parameters} (hp : p.keys.Nodup) : p.overlay p = p :=
  overlay_eq_self fun _ hpair => get?_of_mem hp hpair

/-- Parameters with each key once are what their writes leave. -/
theorem ofPairs_eq_self {p : Parameters} (hp : p.keys.Nodup) : ofPairs p = p :=
  overlay_eq_append (p := []) hp

/-! ## Queries in two parts -/

/-- The parameters of a query are there where all its pieces can be decoded. -/
theorem decode_eq_ok_iff {query : String} {p : Parameters} :
    decode query = .ok p ↔ decode? query = some p := by
  rw [decode]
  cases decode? query <;> simp

/-- A query of the pieces of two others stands for the parameters of the second written over those
of the first, and it is malformed where one of the two is. -/
theorem decode?_of_pieces {whole first second : String}
    (h : pieces whole.toList = pieces first.toList ++ pieces second.toList) :
    decode? whole =
      (decode? first).bind fun own => (decode? second).map fun added => own.overlay added := by
  simp only [decode?, h, List.mapM_append, Option.bind_eq_bind, Option.pure_def]
  cases (pieces first.toList).mapM decodePiece? with
  | none => rfl
  | some own =>
      cases (pieces second.toList).mapM decodePiece? with
      | none => rfl
      | some added =>
          have hempty : (keys []).Nodup := List.nodup_nil
          have hjoined : ofPairs (own ++ added) = (ofPairs own).overlay (ofPairs added) := by
            rw [ofPairs, overlay_append]
            exact (overlay_overlay hempty (ofPairs own) added).symm
          simp [hjoined]

/-! ## Encoded parameters -/

/-- What a byte of an encoded text is read as. -/
def symbolOf (b : UInt8) : Symbol :=
  if b = 0x20 ∨ isPlainByte b = true then .char (Char.ofNat b.toNat) else .byte b

/-- A byte as it is written is read as its symbol. -/
theorem symbols?_encodeByte (b : UInt8) (rest : List Char) :
    symbols? (encodeByte b ++ rest) = (symbols? rest).map (symbolOf b :: ·) := by
  unfold encodeByte symbolOf
  by_cases hspace : b = 0x20
  · subst hspace
    cases hrest : symbols? rest <;> simp [symbols?, hrest]
  · by_cases hplain : isPlainByte b = true
    · obtain ⟨hpercent, hplus, -⟩ := QueryBytes.rawByte_of_isPlainByte b hplain
      rw [if_neg hspace, if_pos hplain, if_pos (.inr hplain), List.singleton_append, symbols?,
        if_neg hpercent, if_neg hplus]
      · cases symbols? rest <;> rfl
      · intro x y others hc
        exact absurd hc hpercent
    · have hbound := b.toNat_lt
      have hhigh := QueryBytes.hexDigit?_hexDigit (b.toNat / 16) (by omega)
      have hlow := QueryBytes.hexDigit?_hexDigit (b.toNat % 16) (by omega)
      have hbyte : UInt8.ofNat (b.toNat / 16 * 16 + b.toNat % 16) = b := by
        rw [Nat.div_add_mod', UInt8.ofNat_toNat]
      rw [if_neg hspace, if_neg hplain, if_neg (not_or.2 ⟨hspace, hplain⟩)]
      simp only [List.cons_append, List.nil_append, symbols?, hhigh, hlow, hbyte,
        Option.bind_eq_bind, Option.bind_some]
      cases symbols? rest <;> rfl

/-- A text as it is written is read as the symbols of its bytes. -/
theorem symbols?_encodeComponent (s : String) :
    symbols? (encodeComponent s) = some ((utf8Bytes s).map symbolOf) := by
  unfold encodeComponent
  induction utf8Bytes s with
  | nil => rfl
  | cons b rest ih =>
      rw [List.flatMap_cons, symbols?_encodeByte, ih]
      rfl

/-- The bytes of a character beyond ASCII are beyond it too. -/
theorem le_of_mem_encodeChar {c : Char} (hc : 0x80 ≤ c.toNat) {b : UInt8}
    (hb : b ∈ String.utf8EncodeChar c) : 0x80 ≤ b.toNat := by
  have hcode : ¬ c.val.toNat ≤ 0x7f := Nat.not_le_of_lt hc
  unfold String.utf8EncodeChar at hb
  dsimp only at hb
  rw [if_neg hcode] at hb
  split at hb
  · simp only [List.mem_cons, List.not_mem_nil, or_false] at hb
    rcases hb with rfl | rfl <;> rw [UInt8.toNat_ofNat'] <;> omega
  split at hb
  · simp only [List.mem_cons, List.not_mem_nil, or_false] at hb
    rcases hb with rfl | rfl | rfl <;> rw [UInt8.toNat_ofNat'] <;> omega
  · simp only [List.mem_cons, List.not_mem_nil, or_false] at hb
    rcases hb with rfl | rfl | rfl | rfl <;> rw [UInt8.toNat_ofNat'] <;> omega

/-- The bytes of a character are read as this character, or each of them as an escaped byte. -/
theorem symbolOf_encodeChar (c : Char) :
    (String.utf8EncodeChar c).map symbolOf = [.char c] ∨
      (String.utf8EncodeChar c).map symbolOf = (String.utf8EncodeChar c).map .byte := by
  by_cases hc : c.toNat < 0x80
  · rw [← QueryBytes.rawByte_of_lt hc, QueryBytes.rawByte]
    have hcode : (UInt8.ofNat c.toNat).toNat = c.toNat := Utf8.toNat_ofNat_lt (by omega)
    rw [List.map_singleton, List.map_singleton, symbolOf, hcode, Char.ofNat_toNat]
    split
    · exact .inl rfl
    · exact .inr rfl
  · right
    refine List.map_congr_left fun b hb => ?_
    have hhigh := le_of_mem_encodeChar (Nat.le_of_not_lt hc) hb
    rw [symbolOf, if_neg]
    rintro (hspace | hplain)
    · rw [hspace] at hhigh
      exact absurd hhigh (by decide)
    · simp only [isPlainByte, Bool.and_eq_true, decide_eq_true_eq] at hplain
      omega

/-- Escaped bytes join the run before them. -/
theorem assemble?_bytes (run bytes : Bytes) (rest : List Symbol) :
    assemble? run (bytes.map .byte ++ rest) = assemble? (bytes.reverse ++ run) rest := by
  induction bytes generalizing run with
  | nil => rfl
  | cons b bytes ih =>
      rw [List.map_cons, List.cons_append, assemble?, ih, List.reverse_cons, List.append_assoc]
      rfl

/-- Characters are assembled from the symbols of their bytes, after the bytes of others. -/
theorem assemble?_encode (before after : List Char) :
    assemble? (Utf8.encode before).reverse ((Utf8.encode after).map symbolOf) =
      some (before ++ after) := by
  induction after generalizing before with
  | nil =>
      change Utf8.decode? (Utf8.encode before).reverse.reverse = some (before ++ [])
      rw [List.reverse_reverse, Utf8.decode?_encode, List.append_nil]
  | cons c rest ih =>
      rw [show Utf8.encode (c :: rest) = String.utf8EncodeChar c ++ Utf8.encode rest from
        List.flatMap_cons, List.map_append]
      rcases symbolOf_encodeChar c with hchar | hbytes
      · have hrest : assemble? [] ((Utf8.encode rest).map symbolOf) = some rest := ih []
        rw [hchar, List.singleton_append, assemble?, List.reverse_reverse, Utf8.decode?_encode,
          hrest]
        rfl
      · -- The bytes stay in the run, so that the character joins those that are still to be read.
        have hrun : (String.utf8EncodeChar c).reverse ++ (Utf8.encode before).reverse =
            (Utf8.encode (before ++ [c])).reverse := by
          simp [Utf8.encode]
        rw [hbytes, assemble?_bytes, hrun, ih, List.append_assoc, List.singleton_append]

/-- A text as it is written is read as this text. -/
theorem decodeComponent?_encodeComponent (s : String) :
    decodeComponent? (encodeComponent s) = some s := by
  have hassembled : assemble? [] ((utf8Bytes s).map symbolOf) = some s.toList :=
    assemble?_encode [] s.toList
  rw [decodeComponent?, symbols?_encodeComponent]
  simp [hassembled]

/-- A parameter as it is written is read as this parameter. -/
theorem decodePiece?_encodePiece (pair : String × String) :
    decodePiece? (encodePiece pair) = some pair := by
  rw [decodePiece?, QueryBytes.cutPiece_encodePiece]
  simp [decodeComponent?_encodeComponent]

/-- Parameters as they are written are read as these parameters, in their order. -/
theorem decode?_encode {p : Parameters} (hp : p.keys.Nodup) : decode? p.encode = some p := by
  have hread : (p.map encodePiece).mapM decodePiece? = some p := by
    clear hp
    induction p with
    | nil => rfl
    | cons pair rest ih => simp [decodePiece?_encodePiece, ih]
  rw [decode?, QueryBytes.pieces_encode, hread]
  simp [ofPairs_eq_self hp]

end Parameters

end FaultInjection
