import FaultInjection.Document.Json
import FaultInjection.Proofs.Record

/-!
# Documents - Records in key order

Records are lists of fields, and not every list is one that writes leave.  In a document that
was decoded from a text all records are in key order, at any depth: a reader gathers the fields
of a record and writes them one after the other.

Main definitions:

- `Document.IsOrdered`, a document whose records are in key order.

Main results:

- `Document.IsOrdered.of_get?`: so are the values of its fields.
- `Document.isOrdered_of_ofJson?`: a text in the JSON notation stands for such a document.
-/

namespace FaultInjection

namespace Document

/-- All records of a document are in key order, those within lists and other records too. -/
inductive IsOrdered : Document → Prop
  | null : IsOrdered .null
  | boolean (value : Bool) : IsOrdered (.boolean value)
  | number (value : Number) : IsOrdered (.number value)
  | text (value : String) : IsOrdered (.text value)
  | list {items : List Document} (hitems : ∀ item ∈ items, IsOrdered item) :
      IsOrdered (.list items)
  | record {fields : Record Document} (hfields : fields.IsOrdered)
      (hvalues : ∀ field ∈ fields, IsOrdered field.2) : IsOrdered (.record fields)

/-- A list is in key order when its items are. -/
theorem isOrdered_list_iff {items : List Document} :
    IsOrdered (.list items) ↔ ∀ item ∈ items, item.IsOrdered := by
  constructor
  · intro h
    cases h with
    | list hitems => exact hitems
  · exact .list

/-- A record is in key order when its own keys and its values are. -/
theorem isOrdered_record_iff {fields : Record Document} :
    IsOrdered (.record fields) ↔ fields.IsOrdered ∧ ∀ field ∈ fields, field.2.IsOrdered := by
  constructor
  · intro h
    cases h with
    | record hfields hvalues => exact ⟨hfields, hvalues⟩
  · rintro ⟨hfields, hvalues⟩
    exact .record hfields hvalues

mutual

instance decidableIsOrdered : (d : Document) → Decidable d.IsOrdered
  | .null => isTrue .null
  | .boolean b => isTrue (.boolean b)
  | .number n => isTrue (.number n)
  | .text s => isTrue (.text s)
  | .list items =>
    have := decidableItems items
    decidable_of_iff' _ isOrdered_list_iff
  | .record fields =>
    have := decidableFields fields
    decidable_of_iff' _ isOrdered_record_iff

instance decidableItems : (items : List Document) → Decidable (∀ item ∈ items, item.IsOrdered)
  | [] => isTrue (List.forall_mem_nil _)
  | item :: rest =>
    have := decidableIsOrdered item
    have := decidableItems rest
    decidable_of_iff' _ List.forall_mem_cons

instance decidableFields : (fields : List (String × Document)) →
    Decidable (∀ field ∈ fields, field.2.IsOrdered)
  | [] => isTrue (List.forall_mem_nil _)
  | (key, value) :: rest =>
    have : Decidable (IsOrdered (key, value).2) := decidableIsOrdered value
    have := decidableFields rest
    decidable_of_iff' _ List.forall_mem_cons

end

/-- The value of a key of a record is in key order when the record is. -/
theorem IsOrdered.of_get? {fields : Record Document} {key : String} {d : Document}
    (h : IsOrdered (.record fields)) (hd : fields.get? key = some d) : d.IsOrdered := by
  have hvalues := (isOrdered_record_iff.1 h).2
  exact hvalues (key, d) (Record.mem_of_get? hd)

/-- A record that writes leave is in key order when the values written are. -/
theorem isOrdered_ofFields {fields : List (String × Document)}
    (h : ∀ field ∈ fields, field.2.IsOrdered) : IsOrdered (.record (Record.ofFields fields)) := by
  apply IsOrdered.record (Record.isOrdered_ofFields fields)
  intro field hfield
  exact h field (Record.mem_of_mem_ofFields field hfield)

end Document

/-! ## The JSON notation -/

namespace Json

/-- What is read with some fuel is in key order. -/
structure ReadsOrdered (fuel : Nat) : Prop where
  value : ∀ {cs d rest}, value? fuel cs = some (d, rest) → d.IsOrdered
  items : ∀ {cs items rest}, items? fuel cs = some (items, rest) → ∀ item ∈ items, item.IsOrdered
  fields : ∀ {cs fields rest}, fields? fuel cs = some (fields, rest) →
    ∀ field ∈ fields, field.2.IsOrdered

variable {fuel : Nat} {cs rest : List Char}

/-- A value is in key order when the items and fields within it are. -/
theorem ReadsOrdered.value_succ {d : Document} (hreads : ReadsOrdered fuel)
    (h : value? (fuel + 1) cs = some (d, rest)) : d.IsOrdered := by
  unfold value? at h
  split at h
  · cases h
  · simp only [Option.bind_eq_bind, Option.bind_eq_some_iff, Option.pure_def] at h
    obtain ⟨read, -, h⟩ := h
    cases h
    exact .text _
  · split at h
    · cases h
      exact .list (List.forall_mem_nil _)
    · simp only [Option.bind_eq_bind, Option.bind_eq_some_iff, Option.pure_def] at h
      obtain ⟨⟨items, after⟩, hitems, h⟩ := h
      cases h
      exact .list (hreads.items hitems)
  · split at h
    · cases h
      exact .record Record.isOrdered_nil (List.forall_mem_nil _)
    · simp only [Option.bind_eq_bind, Option.bind_eq_some_iff, Option.pure_def] at h
      obtain ⟨⟨fields, after⟩, hfields, h⟩ := h
      cases h
      exact Document.isOrdered_ofFields (hreads.fields hfields)
  · simp only [Option.bind_eq_bind, Option.bind_eq_some_iff, Option.pure_def] at h
    obtain ⟨after, -, h⟩ := h
    cases h
    exact .boolean true
  · simp only [Option.bind_eq_bind, Option.bind_eq_some_iff, Option.pure_def] at h
    obtain ⟨after, -, h⟩ := h
    cases h
    exact .boolean false
  · simp only [Option.bind_eq_bind, Option.bind_eq_some_iff, Option.pure_def] at h
    obtain ⟨after, -, h⟩ := h
    cases h
    exact .null
  · simp only [Option.bind_eq_bind, Option.bind_eq_some_iff, Option.pure_def] at h
    obtain ⟨read, -, h⟩ := h
    cases h
    exact .number _

/-- Items are in key order when the first of them and the others are. -/
theorem ReadsOrdered.items_succ {items : List Document} (hreads : ReadsOrdered fuel)
    (h : items? (fuel + 1) cs = some (items, rest)) : ∀ item ∈ items, item.IsOrdered := by
  unfold items? at h
  simp only [Option.bind_eq_bind, Option.bind_eq_some_iff] at h
  obtain ⟨⟨first, after⟩, hfirst, h⟩ := h
  have hordered := hreads.value hfirst
  split at h
  · simp only [Option.bind_eq_some_iff, Option.pure_def] at h
    obtain ⟨⟨others, after'⟩, hothers, h⟩ := h
    cases h
    exact List.forall_mem_cons.2 ⟨hordered, hreads.items hothers⟩
  · cases h
    exact List.forall_mem_singleton.2 hordered
  · cases h

/-- Fields are in key order when the first of them and the others are. -/
theorem ReadsOrdered.fields_succ {fields : List (String × Document)} (hreads : ReadsOrdered fuel)
    (h : fields? (fuel + 1) cs = some (fields, rest)) : ∀ field ∈ fields, field.2.IsOrdered := by
  unfold fields? at h
  split at h
  · simp only [Option.bind_eq_bind, Option.bind_eq_some_iff] at h
    obtain ⟨⟨key, behindKey⟩, -, h⟩ := h
    split at h
    · simp only [Option.bind_eq_some_iff] at h
      obtain ⟨⟨first, after⟩, hfirst, h⟩ := h
      have hordered := hreads.value hfirst
      split at h
      · simp only [Option.bind_eq_some_iff, Option.pure_def] at h
        obtain ⟨⟨others, after'⟩, hothers, h⟩ := h
        cases h
        exact List.forall_mem_cons.2 ⟨hordered, hreads.fields hothers⟩
      · cases h
        exact List.forall_mem_singleton.2 hordered
      · cases h
    · cases h
  · cases h

/-- Whatever is read is in key order. -/
theorem readsOrdered (fuel : Nat) : ReadsOrdered fuel := by
  induction fuel with
  | zero => exact ⟨nofun, nofun, nofun⟩
  | succ fuel ih => exact ⟨ih.value_succ, ih.items_succ, ih.fields_succ⟩

end Json

/-- A text in the JSON notation stands for a document in key order. -/
theorem Document.isOrdered_of_ofJson? {s : String} {d : Document} (h : ofJson? s = some d) :
    d.IsOrdered := by
  simp only [ofJson?, Option.bind_eq_bind, Option.bind_eq_some_iff] at h
  obtain ⟨⟨read, rest⟩, hread, h⟩ := h
  split at h
  · obtain rfl := Option.some.inj h
    exact (Json.readsOrdered _).value hread
  · cases h

end FaultInjection
