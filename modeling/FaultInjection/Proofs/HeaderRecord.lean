import FaultInjection.Headers.HeaderRecord

/-!
# Headers - Fields of the record that is sent

A name that neither the base of a record nor a list knows is a field exactly when it is
the name of a header: one value stands alone, and more values stand in a list in the
order of the headers.

Main results:

- `Headers.get?_toRecord`: the field of a plain name.
-/

namespace FaultInjection

namespace HeaderRecord

/-- Whether a name is in lower case and known neither to the base of a record nor to a list. -/
def isPlain (name : String) : Bool :=
  lowerCase name == name && name != ancestorName && !baseNames.contains name &&
    (Record.index? name).isNone && name != "length" && !listNames.contains name

/-- The field of a header with some values. -/
def Value.ofValues? : List String → Option Value
  | [] => none
  | [value] => some (.single value)
  | values => some (.several (values.map .text))

/-- A field is absent exactly when there are no values. -/
theorem Value.ofValues?_eq_none_iff {values : List String} :
    Value.ofValues? values = none ↔ values = [] := by
  match values with
  | [] => simp [ofValues?]
  | [first] => simp [ofValues?]
  | first :: second :: rest => simp [ofValues?]

/-- A field has a single value exactly when there is one. -/
theorem Value.ofValues?_eq_single_iff {values : List String} {value : String} :
    Value.ofValues? values = some (.single value) ↔ values = [value] := by
  match values with
  | [] => simp [ofValues?]
  | [first] => simp [ofValues?]
  | first :: second :: rest => simp [ofValues?]

/-- A field with some values and one more. -/
theorem Value.ofValues?_append_singleton (values : List String) (value : String) :
    Value.ofValues? (values ++ [value]) =
      some (match Value.ofValues? values with
        | some old => old.add value
        | none => .single value) := by
  match values with
  | [] => rfl
  | [first] => rfl
  | first :: second :: rest => simp [ofValues?, add]

/-- A draft inherits nothing under a plain name. -/
theorem Draft.inherited?_of_isPlain {name : String} (h : isPlain name = true) (d : Draft) :
    d.inherited? name = none := by
  simp only [isPlain, Bool.and_eq_true, bne_iff_ne, Bool.not_eq_true', Option.isNone_iff_eq_none]
    at h
  obtain ⟨⟨⟨⟨⟨-, -⟩, hbase⟩, hindex⟩, hlength⟩, hlist⟩ := h
  cases ha : d.ancestor <;>
    simp only [inherited?, ha, hbase, hindex, hlist, inAncestor?, if_neg hlength,
      Option.bind_none, Option.bind_some, Bool.false_eq_true, if_false]

/-- A header whose name is not plain in lower case leaves the field of a plain name. -/
theorem Draft.get?_add_of_ne {name other : String} (h : other ≠ name) (d : Draft)
    (value : String) : (d.add name value).fields.get? other = d.fields.get? other := by
  unfold add
  split
  · rfl
  · exact Record.get?_put_of_ne name other _ d.fields h

/-- A header of a plain name adds its value to the field. -/
theorem Draft.get?_add_self {name : String} (h : isPlain name = true) (d : Draft)
    (value : String) :
    (d.add name value).fields.get? name =
      some (match d.fields.get? name with
        | some old => old.add value
        | none => .single value) := by
  have hname : name ≠ ancestorName := by
    simp only [isPlain, Bool.and_eq_true, bne_iff_ne] at h
    exact h.1.1.1.1.2
  have hinherited := d.inherited?_of_isPlain h
  cases hold : d.fields.get? name with
  | none => simp only [add, if_neg hname, Record.get?_put_self, hold, hinherited]
  | some old => simp only [add, if_neg hname, Record.get?_put_self, hold]

/-- Headers added to a draft give a plain name its values after the old ones. -/
theorem Draft.get?_foldl_add {name : String} (h : isPlain name = true)
    (pairs : List (String × String)) (d : Draft) (values : List String)
    (hd : d.fields.get? name = Value.ofValues? values) :
    (pairs.foldl (fun (d : Draft) (n, value) => d.add (lowerCase n) value) d).fields.get? name =
      Value.ofValues? (values ++
        (pairs.filter fun pair => Headers.sameName pair.1 name).map Prod.snd) := by
  have hlower : lowerCase name = name := by
    simp only [isPlain, Bool.and_eq_true, beq_iff_eq] at h
    exact h.1.1.1.1.1
  induction pairs generalizing d values with
  | nil => simpa using hd
  | cons pair rest ih =>
      obtain ⟨n, value⟩ := pair
      by_cases hn : lowerCase n = name
      · have hadd : (d.add (lowerCase n) value).fields.get? name =
            Value.ofValues? (values ++ [value]) := by
          rw [hn, d.get?_add_self h, hd, Value.ofValues?_append_singleton]
        have hsame : Headers.sameName n name = true := by simp [Headers.sameName, hn, hlower]
        simpa [hsame] using ih _ _ hadd
      · have hadd : (d.add (lowerCase n) value).fields.get? name = Value.ofValues? values := by
          rw [d.get?_add_of_ne (Ne.symm hn), hd]
        have hother : Headers.sameName n name = false := by simp [Headers.sameName, hn, hlower]
        simpa [hother] using ih _ _ hadd

end HeaderRecord

namespace Headers

open HeaderRecord

/-- The field of a plain name holds the values of the header. -/
theorem get?_toRecord (h : Headers) {name : String} (hname : isPlain name = true) :
    h.toRecord.get? name = Value.ofValues? (h.getAll name) := by
  have hfields := Draft.get?_foldl_add hname h.toList {} [] rfl
  simpa [toRecord, getAll] using hfields

end Headers

end FaultInjection
