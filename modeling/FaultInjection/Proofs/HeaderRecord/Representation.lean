import FaultInjection.Proofs.HeaderRecord
import FaultInjection.Proofs.Record
import Mathlib.Data.List.Induction

/-!
# Headers - When the record that is sent is the header list

A record stands for a header list when its keys are the names of the list in lower case,
each in one field, and a field holds the values of its name and nothing else.  The record
that is sent does so for all names but two: the base of every record has a value under
`constructor`, and `__proto__` is not a field but the ancestor of the record.

Main definitions:

- `HeaderRecord.Represents`, a record that stands for a header list.
- `HeaderRecord.Draft.ofPairs`, the draft that headers leave one after the other.

Main results:

- `Headers.represents_toRecord_iff`: the record that is sent stands for the list exactly
  when neither of the two names occurs.
- `Headers.isOrdered_toRecord`: whatever the names, no key stands in two fields.
-/

namespace FaultInjection

namespace Headers

/-- The values of the headers whose name is a key in lower case, in order. -/
def valuesUnder (h : Headers) (key : String) : List String :=
  (h.toList.filter fun pair => lowerCase pair.1 == key).map Prod.snd

/-- A header at the end adds its value to those of its own name. -/
theorem valuesUnder_concat (pairs : List (String × String)) (name value key : String) :
    valuesUnder ⟨pairs ++ [(name, value)]⟩ key =
      valuesUnder ⟨pairs⟩ key ++ if lowerCase name = key then [value] else [] := by
  by_cases hname : lowerCase name = key <;> simp [valuesUnder, hname]

/-- A key has values exactly when it is the name of a header in lower case. -/
theorem valuesUnder_eq_nil_iff {h : Headers} {key : String} :
    h.valuesUnder key = [] ↔ ∀ pair ∈ h.toList, lowerCase pair.1 ≠ key := by
  simp [valuesUnder, List.filter_eq_nil_iff]

end Headers

namespace HeaderRecord

/-- The record has one field for each name of the list in lower case, with the values of
that name: alone where there is one, and in the order of the list where there are more. -/
structure Represents (fields : Record Value) (h : Headers) : Prop where
  nodup_keys : fields.keys.Nodup
  mem_keys : ∀ key, key ∈ fields.keys ↔ ∃ pair ∈ h.toList, lowerCase pair.1 = key
  field : ∀ key, fields.get? key = Value.ofValues? (h.valuesUnder key)

/-- The fields of a record in order settle its keys. -/
theorem Represents.of_field {fields : Record Value} {h : Headers} (hordered : fields.IsOrdered)
    (hfield : ∀ key, fields.get? key = Value.ofValues? (h.valuesUnder key)) :
    Represents fields h := by
  constructor
  · exact hordered.nodup
  · intro key
    have hnone : key ∉ fields.keys ↔ ∀ pair ∈ h.toList, lowerCase pair.1 ≠ key := by
      rw [← Record.get?_eq_none_iff, hfield, Value.ofValues?_eq_none_iff,
        Headers.valuesUnder_eq_nil_iff]
    simpa using not_congr hnone
  · exact hfield

/-! ## One header after the other -/

/-- The draft that headers leave. -/
def Draft.ofPairs (pairs : List (String × String)) : Draft :=
  pairs.foldl (fun (d : Draft) (name, value) => d.add (lowerCase name) value) {}

/-- One more header is added to the draft of those before it. -/
theorem Draft.ofPairs_concat (pairs : List (String × String)) (name value : String) :
    ofPairs (pairs ++ [(name, value)]) = (ofPairs pairs).add (lowerCase name) value := by
  simp only [ofPairs, List.foldl_append, List.foldl_cons, List.foldl_nil]

/-- The field that a draft writes for a header that is not gathered in the ancestor. -/
def Draft.next (d : Draft) (name value : String) : Value :=
  match d.fields.get? name with
  | some old => old.add value
  | none =>
    match d.inherited? name with
    | some item => .several [item, .text value]
    | none => .single value

/-- A header that is not gathered in the ancestor is one write. -/
theorem Draft.fields_add {name : String} (h : name ≠ ancestorName) (d : Draft)
    (value : String) : (d.add name value).fields = d.fields.put name (d.next name value) := by
  rw [add, if_neg h]
  rfl

/-- A header that is gathered in the ancestor leaves the fields. -/
theorem Draft.fields_add_ancestorName (d : Draft) (value : String) :
    (d.add ancestorName value).fields = d.fields := by
  rw [add, if_pos rfl]
  rfl

/-- Whatever is added, the fields stay in order. -/
theorem Draft.isOrdered_add {d : Draft} (h : d.fields.IsOrdered) (name value : String) :
    (d.add name value).fields.IsOrdered := by
  by_cases hname : name = ancestorName
  · rw [hname, fields_add_ancestorName]
    exact h
  · rw [fields_add hname]
    exact h.put name _

/-- The fields of a draft are in order. -/
theorem Draft.isOrdered_ofPairs (pairs : List (String × String)) :
    (ofPairs pairs).fields.IsOrdered := by
  induction pairs using List.reverseRecOn with
  | nil => exact Record.isOrdered_nil
  | append_singleton pairs pair ih =>
      rw [ofPairs_concat]
      exact isOrdered_add ih _ _

/-! ## Names that are not known -/

/-- Names that neither are known to every base nor gather in the ancestor. -/
def isFree (name : String) : Bool := name != ancestorName && !baseNames.contains name

/-- A free name is neither the name of the ancestor nor known to every base. -/
theorem isFree_iff {name : String} :
    isFree name = true ↔ name ≠ ancestorName ∧ baseNames.contains name = false := by
  simp only [isFree, Bool.and_eq_true, bne_iff_ne, Bool.not_eq_true']

/-- The names that are not free are two. -/
theorem isFree_iff_notMem {name : String} :
    isFree name = true ↔ name ∉ ["constructor", "__proto__"] := by
  simp [isFree, ancestorName, baseNames, and_comm]

/-- As long as no ancestor came about, a draft finds nothing under a free name. -/
theorem Draft.inherited?_of_isFree {d : Draft} (hancestor : d.ancestor = none) {name : String}
    (hname : isFree name = true) : d.inherited? name = none := by
  rw [inherited?, (isFree_iff.1 hname).2, hancestor]
  rfl

/-- Headers of free names bring about no ancestor. -/
theorem Draft.ancestor_ofPairs {pairs : List (String × String)}
    (h : ∀ pair ∈ pairs, isFree (lowerCase pair.1) = true) :
    (ofPairs pairs).ancestor = none := by
  induction pairs using List.reverseRecOn with
  | nil => rfl
  | append_singleton pairs pair ih =>
      have hfree := isFree_iff.1 (h pair (by simp))
      rw [ofPairs_concat, add, if_neg hfree.1]
      exact ih fun other hother => h other (List.mem_append_left _ hother)

/-- Headers of free names leave each key the values of its name. -/
theorem Draft.get?_ofPairs {pairs : List (String × String)}
    (h : ∀ pair ∈ pairs, isFree (lowerCase pair.1) = true) (key : String) :
    (ofPairs pairs).fields.get? key = Value.ofValues? (Headers.valuesUnder ⟨pairs⟩ key) := by
  induction pairs using List.reverseRecOn with
  | nil => rfl
  | append_singleton pairs pair ih =>
      obtain ⟨name, value⟩ := pair
      have hbefore : ∀ other ∈ pairs, isFree (lowerCase other.1) = true :=
        fun other hother => h other (List.mem_append_left _ hother)
      have hfree : isFree (lowerCase name) = true := h (name, value) (by simp)
      have hinherited := inherited?_of_isFree (ancestor_ofPairs hbefore) hfree
      rw [ofPairs_concat, fields_add (isFree_iff.1 hfree).1, Headers.valuesUnder_concat]
      by_cases hkey : lowerCase name = key
      · subst hkey
        have hnext : (ofPairs pairs).next (lowerCase name) value =
            match Value.ofValues? (Headers.valuesUnder ⟨pairs⟩ (lowerCase name)) with
            | some old => old.add value
            | none => .single value := by
          simp only [next, ih hbefore, hinherited]
        rw [Record.get?_put_self, if_pos rfl, Value.ofValues?_append_singleton]
        exact congrArg some hnext
      · rw [Record.get?_put_of_ne _ _ _ _ (Ne.symm hkey), if_neg hkey, List.append_nil,
          ih hbefore]

/-! ## Names that are known -/

/-- The name that gathers in the ancestor is never a key. -/
theorem Draft.ancestorName_notMem_keys_ofPairs (pairs : List (String × String)) :
    ancestorName ∉ (ofPairs pairs).fields.keys := by
  induction pairs using List.reverseRecOn with
  | nil => exact List.not_mem_nil
  | append_singleton pairs pair ih =>
      rw [ofPairs_concat]
      by_cases hname : lowerCase pair.1 = ancestorName
      · rw [hname, fields_add_ancestorName]
        exact ih
      · rw [fields_add hname, Record.mem_keys_put, not_or]
        exact ⟨Ne.symm hname, ih⟩

/-- The value is a list that begins with what the base of the record holds. -/
def Value.IsInherited (value : Value) : Prop := ∃ items, value = .several (.inherited :: items)

/-- One more value goes to the end of what the base holds first. -/
theorem Value.IsInherited.add {old : Value} (h : old.IsInherited) (value : String) :
    (old.add value).IsInherited := by
  obtain ⟨items, rfl⟩ := h
  exact ⟨items ++ [.text value], rfl⟩

/-- No values of headers begin with what the base holds. -/
theorem Value.not_isInherited_of_ofValues? {values : List String} {value : Value}
    (h : Value.ofValues? values = some value) : ¬ value.IsInherited := by
  rintro ⟨items, rfl⟩
  match values with
  | [] => cases h
  | [first] => cases h
  | first :: second :: rest => cases h

/-- The field of a name that every base knows begins with what the base holds. -/
theorem Draft.isInherited_of_get?_ofPairs {key : String} (hkey : baseNames.contains key = true)
    {pairs : List (String × String)} {value : Value}
    (h : (ofPairs pairs).fields.get? key = some value) : value.IsInherited := by
  induction pairs using List.reverseRecOn generalizing value with
  | nil => cases h
  | append_singleton pairs pair ih =>
      rw [ofPairs_concat] at h
      by_cases hname : lowerCase pair.1 = key
      · have hne : key ≠ ancestorName := by
          rintro rfl
          revert hkey
          decide
        rw [hname, fields_add hne, Record.get?_put_self] at h
        obtain rfl := Option.some.inj h
        cases hold : (ofPairs pairs).fields.get? key with
        | some old =>
            simp only [next, hold]
            exact (ih hold).add pair.2
        | none =>
            simp only [next, hold, inherited?, hkey, if_true]
            exact ⟨[.text pair.2], rfl⟩
      · rw [get?_add_of_ne (Ne.symm hname)] at h
        exact ih h

/-- A record that stands for the headers it was made of has free names only. -/
theorem Represents.isFree {h : Headers} (hrep : Represents (Draft.ofPairs h.toList).fields h)
    {pair : String × String} (hpair : pair ∈ h.toList) : isFree (lowerCase pair.1) = true := by
  have hkey := (hrep.mem_keys (lowerCase pair.1)).2 ⟨pair, hpair, rfl⟩
  refine isFree_iff.2 ⟨?_, ?_⟩
  · intro hname
    rw [hname] at hkey
    exact Draft.ancestorName_notMem_keys_ofPairs h.toList hkey
  · refine Bool.eq_false_iff.2 fun hbase => ?_
    have hsome := mt Record.get?_eq_none_iff.1 (not_not_intro hkey)
    obtain ⟨value, hvalue⟩ := Option.ne_none_iff_exists'.1 hsome
    have hvalues := (hrep.field (lowerCase pair.1)).symm.trans hvalue
    exact Value.not_isInherited_of_ofValues? hvalues
      (Draft.isInherited_of_get?_ofPairs hbase hvalue)

end HeaderRecord

namespace Headers

open HeaderRecord

/-- The record that is sent is what the draft of all headers holds. -/
theorem toRecord_eq_ofPairs (h : Headers) : h.toRecord = (Draft.ofPairs h.toList).fields := rfl

/-- The record that is sent has each key in one field, in key order. -/
theorem isOrdered_toRecord (h : Headers) : h.toRecord.IsOrdered := Draft.isOrdered_ofPairs h.toList

/-- The record that is sent stands for the header list exactly when no header has one of
the two names that a record knows of itself, in any casing. -/
theorem represents_toRecord_iff (h : Headers) :
    Represents h.toRecord h ↔
      ∀ pair ∈ h.toList, lowerCase pair.1 ∉ ["constructor", "__proto__"] := by
  rw [toRecord_eq_ofPairs]
  constructor
  · intro hrep pair hpair
    exact isFree_iff_notMem.1 (hrep.isFree hpair)
  · intro hfree
    have hfree : ∀ pair ∈ h.toList, isFree (lowerCase pair.1) = true :=
      fun pair hpair => isFree_iff_notMem.2 (hfree pair hpair)
    exact Represents.of_field h.isOrdered_toRecord (Draft.get?_ofPairs hfree)

/-- A header called `Constructor` is sent as a list with a value that no header has. -/
theorem not_forall_represents_toRecord : ¬ ∀ h : Headers, Represents h.toRecord h := by
  intro hall
  have hfield := (hall ⟨[("Constructor", "v")]⟩).field "constructor"
  have hsent : (toRecord ⟨[("Constructor", "v")]⟩).get? "constructor" =
      some (.several [.inherited, .text "v"]) := by
    decide +kernel
  have hvalues : Value.ofValues? (valuesUnder ⟨[("Constructor", "v")]⟩ "constructor") =
      some (.single "v") := by
    decide +kernel
  rw [hsent, hvalues] at hfield
  cases hfield

end Headers

end FaultInjection
