import FaultInjection.Record
import Mathlib.Data.List.Pairwise

/-!
# Records - Keys in order

A record that is built by writing fields is in key order, and each of its keys stands in
one field.  The order is needed for the second: a write looks for its place from the
front, and stops at the first key that the new one stands before.

Main definitions:

- `Record.keys` and `Record.IsOrdered`.

Main results:

- `Record.IsOrdered.put`: a write keeps the order.
- `Record.get?_eq_none_iff`: a key has no value exactly when it is none of the keys.
- `Record.ofFields_eq_self`: the fields of a record in order, written one after the other, give
  that record.
-/

namespace FaultInjection

namespace Record

variable {α : Type}

/-- The keys of a record in order. -/
def keys (record : Record α) : List String := record.map Prod.fst

/-- Each key stands in one field, and none stands behind one that it precedes. -/
structure IsOrdered (record : Record α) : Prop where
  nodup : record.keys.Nodup
  order : record.keys.Pairwise fun earlier later => precedes later earlier = false

instance (record : Record α) : Decidable record.IsOrdered :=
  decidable_of_iff (record.keys.Nodup ∧
      record.keys.Pairwise fun earlier later => precedes later earlier = false)
    ⟨fun h => ⟨h.1, h.2⟩, fun h => ⟨h.nodup, h.order⟩⟩

/-- A record without fields is in order. -/
theorem isOrdered_nil : IsOrdered ([] : Record α) := ⟨List.nodup_nil, List.Pairwise.nil⟩

/-- A record is in order when the rest of it is and the first key is not there, and precedes none of
the others. -/
theorem isOrdered_cons_iff {key : String} {value : α} {rest : Record α} :
    IsOrdered ((key, value) :: rest) ↔
      (∀ other ∈ keys rest, key ≠ other ∧ precedes other key = false) ∧ IsOrdered rest := by
  constructor
  · rintro ⟨hnodup, horder⟩
    obtain ⟨hfresh, hnodup⟩ := List.nodup_cons.1 hnodup
    obtain ⟨hfirst, horder⟩ := List.pairwise_cons.1 horder
    exact ⟨fun other hother => ⟨(ne_of_mem_of_not_mem hother hfresh).symm, hfirst other hother⟩,
      hnodup, horder⟩
  · rintro ⟨hothers, hnodup, horder⟩
    constructor
    · exact List.nodup_cons.2 ⟨fun hmem => (hothers key hmem).1 rfl, hnodup⟩
    · exact List.pairwise_cons.2 ⟨fun other hother => (hothers other hother).2, horder⟩

/-! ## Look-ups -/

/-- A key has no value exactly when it is none of the keys. -/
theorem get?_eq_none_iff {record : Record α} {key : String} :
    record.get? key = none ↔ key ∉ record.keys := by
  induction record with
  | nil => simp [get?, keys]
  | cons field rest ih =>
      obtain ⟨k, v⟩ := field
      by_cases hk : k = key
      · simp [get?, keys, hk]
      · simp only [get?, if_neg hk, ih, keys, List.map_cons, List.mem_cons, not_or]
        exact ⟨fun hrest => ⟨Ne.symm hk, hrest⟩, fun hboth => hboth.2⟩

/-- A value of a key stands in a field of the record. -/
theorem mem_of_get? {record : Record α} {key : String} {value : α}
    (h : record.get? key = some value) : (key, value) ∈ record := by
  induction record with
  | nil => cases h
  | cons field rest ih =>
      obtain ⟨k, v⟩ := field
      by_cases hk : k = key
      · rw [get?, if_pos hk] at h
        obtain rfl := Option.some.inj h
        rw [hk]
        exact List.mem_cons_self
      · rw [get?, if_neg hk] at h
        exact List.mem_cons_of_mem _ (ih h)

/-! ## Writes -/

/-- What precedes a key that precedes another precedes that other. -/
theorem precedes_trans {first second third : String} (h : precedes first second = true)
    (h' : precedes second third = true) : precedes first third = true := by
  unfold precedes at h h' ⊢
  cases hfirst : index? first with
  | none => simp [hfirst] at h
  | some i =>
      cases hsecond : index? second with
      | none => simp [hsecond] at h'
      | some j =>
          cases hthird : index? third with
          | none => rfl
          | some k =>
              simp only [hfirst, hsecond, hthird, decide_eq_true_eq] at h h' ⊢
              omega

/-- Of two keys one at most precedes the other. -/
theorem precedes_asymm {first second : String} (h : precedes first second = true) :
    precedes second first = false := by
  unfold precedes at h ⊢
  cases hfirst : index? first with
  | none => simp [hfirst] at h
  | some i =>
      cases hsecond : index? second with
      | none => rfl
      | some j =>
          simp only [hfirst, hsecond, decide_eq_true_eq, decide_eq_false_iff_not] at h ⊢
          omega

/-- A write adds its own key and no other. -/
theorem mem_keys_put {record : Record α} {key other : String} {value : α} :
    other ∈ (record.put key value).keys ↔ other = key ∨ other ∈ record.keys := by
  induction record with
  | nil => simp [put, keys]
  | cons field rest ih =>
      obtain ⟨k, v⟩ := field
      by_cases hk : k = key
      · simp [put, keys, hk]
      · by_cases hp : precedes key k = true
        · simp [put, keys, hk, hp]
        · simp only [keys] at ih
          simp only [put, if_neg hk, if_neg hp, keys, List.map_cons, List.mem_cons, ih]
          exact or_left_comm

/-- A write keeps a record in order. -/
theorem IsOrdered.put {record : Record α} (h : record.IsOrdered) (key : String) (value : α) :
    (record.put key value).IsOrdered := by
  induction record with
  | nil => exact isOrdered_cons_iff.2 ⟨nofun, isOrdered_nil⟩
  | cons field rest ih =>
      obtain ⟨k, v⟩ := field
      obtain ⟨hothers, hrest⟩ := isOrdered_cons_iff.1 h
      by_cases hk : k = key
      · subst hk
        rw [Record.put, if_pos rfl]
        exact isOrdered_cons_iff.2 ⟨hothers, hrest⟩
      · rw [Record.put, if_neg hk]
        by_cases hp : precedes key k = true
        · rw [if_pos hp]
          refine isOrdered_cons_iff.2 ⟨?_, h⟩
          intro other hother
          rcases List.mem_cons.1 hother with rfl | hother
          · exact ⟨Ne.symm hk, precedes_asymm hp⟩
          · -- What precedes the new key would also precede the key that it is put in front of.
            have hlater := (hothers other hother).2
            constructor
            · rintro rfl
              rw [hp] at hlater
              cases hlater
            · refine Bool.eq_false_iff.2 fun hbefore => ?_
              rw [precedes_trans hbefore hp] at hlater
              cases hlater
        · rw [if_neg hp]
          refine isOrdered_cons_iff.2 ⟨?_, ih hrest⟩
          intro other hother
          rcases mem_keys_put.1 hother with rfl | hother
          · exact ⟨hk, Bool.eq_false_iff.2 hp⟩
          · exact hothers other hother

/-! ## Records that are left by writes -/

/-- A field behind a write is the one that was written, or was there before. -/
theorem mem_put {record : Record α} {key : String} {value : α} {field : String × α}
    (h : field ∈ record.put key value) : field = (key, value) ∨ field ∈ record := by
  induction record with
  | nil => exact .inl (List.mem_singleton.1 h)
  | cons first rest ih =>
      obtain ⟨k, v⟩ := first
      by_cases hk : k = key
      · rw [put, if_pos hk, List.mem_cons] at h
        rcases h with rfl | hrest
        · exact .inl (by rw [hk])
        · exact .inr (List.mem_cons_of_mem _ hrest)
      · rw [put, if_neg hk] at h
        by_cases hp : precedes key k = true
        · rw [if_pos hp] at h
          exact List.mem_cons.1 h
        · rw [if_neg hp, List.mem_cons] at h
          rcases h with rfl | hrest
          · exact .inr List.mem_cons_self
          · exact (ih hrest).imp_right (List.mem_cons_of_mem _)

/-- What holds of a record, and is kept by each write of some fields, holds of the record that these
leave. -/
theorem foldl_put_induction {P : Record α → Prop} {fields : List (String × α)} {record : Record α}
    (hrecord : P record)
    (hput : ∀ field ∈ fields, ∀ record, P record → P (record.put field.1 field.2)) :
    P (fields.foldl (fun record (key, value) => record.put key value) record) := by
  induction fields generalizing record with
  | nil => exact hrecord
  | cons first rest ih =>
      rw [List.foldl_cons]
      apply ih
      · exact hput first List.mem_cons_self record hrecord
      · intro field hfield
        exact hput field (List.mem_cons_of_mem _ hfield)

/-- The record that writes leave is in order. -/
theorem isOrdered_ofFields (fields : List (String × α)) : (ofFields fields).IsOrdered := by
  apply foldl_put_induction isOrdered_nil
  intro field _ record hrecord
  exact hrecord.put field.1 field.2

/-- Each field of the record that writes leave was written. -/
theorem mem_of_mem_ofFields {fields : List (String × α)} :
    ∀ field ∈ ofFields fields, field ∈ fields := by
  apply foldl_put_induction (P := fun record => ∀ field ∈ record, field ∈ fields)
  · exact List.forall_mem_nil _
  · intro written hwritten record hrecord field hfield
    rcases mem_put hfield with rfl | hold
    · exact hwritten
    · exact hrecord field hold

/-- A write of a new key that precedes none of the others adds a field at the end. -/
theorem put_eq_append {record : Record α} {key : String} (value : α)
    (h : ∀ other ∈ record.keys, other ≠ key ∧ precedes key other = false) :
    record.put key value = record ++ [(key, value)] := by
  induction record with
  | nil => rfl
  | cons first rest ih =>
      obtain ⟨k, v⟩ := first
      obtain ⟨hk, hp⟩ := h k List.mem_cons_self
      have hrest := ih fun other hother => h other (List.mem_cons_of_mem _ hother)
      rw [put, if_neg hk, hp, if_neg Bool.false_ne_true, hrest]
      rfl

/-- The fields of a record in order, written one after the other, give that record. -/
theorem ofFields_eq_self {record : Record α} (h : record.IsOrdered) : ofFields record = record := by
  -- The fields that are written already stand in front of those that are left.
  have hsplit : ∀ later earlier : Record α, IsOrdered (earlier ++ later) →
      later.foldl (fun record (key, value) => record.put key value) earlier = earlier ++ later := by
    intro later
    induction later with
    | nil =>
        intro earlier _
        rw [List.append_nil, List.foldl_nil]
    | cons first rest ih =>
        intro earlier hordered
        obtain ⟨key, value⟩ := first
        have hnodup := hordered.nodup
        have horder := hordered.order
        rw [keys, List.map_append, List.map_cons] at hnodup horder
        have hput : put key value earlier = earlier ++ [(key, value)] := by
          apply put_eq_append
          intro other hother
          constructor
          · rintro rfl
            exact (List.nodup_append.1 hnodup).2.2 other hother other List.mem_cons_self rfl
          · exact (List.pairwise_append.1 horder).2.2 other hother key List.mem_cons_self
        simp only [List.foldl_cons, hput]
        rw [ih]
        · rw [List.append_assoc, List.singleton_append]
        · rw [List.append_assoc, List.singleton_append]
          exact hordered
  exact hsplit record [] h

/-- Fewer fields of a record in order are in order. -/
theorem IsOrdered.sublist {record part : Record α} (h : record.IsOrdered)
    (hpart : part.Sublist record) : part.IsOrdered := by
  have hkeys : part.keys.Sublist record.keys := hpart.map Prod.fst
  exact ⟨h.nodup.sublist hkeys, h.order.sublist hkeys⟩

/-- The order of a record is one of its keys. -/
theorem isOrdered_map_iff {β : Type} (f : α → β) {record : Record α} :
    IsOrdered (record.map fun (key, value) => (key, f value)) ↔ record.IsOrdered := by
  have hkeys : keys (record.map fun (key, value) => (key, f value)) = record.keys := by
    rw [keys, List.map_map]
    rfl
  constructor
  · intro h
    exact ⟨hkeys ▸ h.nodup, hkeys ▸ h.order⟩
  · intro h
    exact ⟨hkeys.symm ▸ h.nodup, hkeys.symm ▸ h.order⟩

end Record

end FaultInjection
