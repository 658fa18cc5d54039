import FaultInjection.Config.Checked

/-!
# Configuration - What is accepted

A check that is made of others accepts a value where its parts accept theirs.  One lemma for
each operation says so, with what the parts stand for, so that a check can be read from the
outside in, one operation at a time.

Main results:

- `Checked.all_eq_accepted_iff`: a list of checks accepts what each of them accepts.
- `Checked.text_eq_accepted_iff`, `Checked.list_eq_accepted_iff` and
  `Checked.record_eq_accepted_iff`: the documents that are accepted.
- `Checked.firstOf_eq_accepted_iff`: what a choice between notations accepts.
-/

namespace FaultInjection

namespace Checked

variable {α β : Type}

/-! ## Operations -/

@[simp] theorem map_eq_accepted_iff {f : α → β} {check : Checked α} {b : β} :
    check.map f = accepted b ↔ ∃ a, check = accepted a ∧ f a = b := by
  cases check <;> simp [map]

@[simp] theorem reading_eq_accepted_iff {f : α → β} {check : Checked α} {b : β} :
    check.reading f = accepted b ↔ ∃ a, check = accepted a ∧ f a = b := by
  cases check <;> simp [reading]

@[simp] theorem under_eq_accepted_iff {step : Issue.Step} {check : Checked α} {a : α} :
    check.under step = accepted a ↔ check = accepted a := by
  cases check <;> simp [under]

/-- Two checks side by side accept what both of them accept. -/
@[simp] theorem both_eq_accepted_iff {first : Checked α} {second : Checked β} {pair : α × β} :
    both first second = accepted pair ↔ first = accepted pair.1 ∧ second = accepted pair.2 := by
  cases first <;> cases second <;> simp [both, Prod.ext_iff]

/-- A value that is tested is accepted as it is. -/
@[simp] theorem tested_eq_accepted_iff {a b : α} {causes : List Issue.Cause} :
    tested a causes = accepted b ↔ causes = [] ∧ a = b := by
  cases causes <;> simp [tested, unfit]

/-- A list of checks accepts what each of them accepts. -/
theorem all_eq_accepted_iff {checks : List (Checked α)} {values : List α} :
    all checks = accepted values ↔ checks = values.map accepted := by
  induction checks generalizing values with
  | nil => cases values <;> simp [all]
  | cons check rest ih =>
      cases values with
      | nil => simp [all]
      | cons value values => simp [all, ih]

/-- No rejected value is accepted for its issues. -/
theorem firstUnfit_ne_accepted (checks : List (Checked α)) (a : α) :
    firstUnfit checks ≠ accepted a := by
  fun_induction firstUnfit checks with
  | case1 => exact nofun
  | case2 => exact nofun
  | case3 _ _ _ ih => exact ih

/-- A choice between notations accepts what the first of them that accepts anything does. -/
theorem firstOf_eq_accepted_iff {checks : List (Checked α)} {a : α} :
    firstOf checks = accepted a ↔ checks.findSome? value? = some a := by
  unfold firstOf
  cases checks.findSome? value? with
  | none => simp [firstUnfit_ne_accepted]
  | some value => simp

@[simp] theorem value?_eq_some_iff {check : Checked α} {a : α} :
    check.value? = some a ↔ check = accepted a := by
  cases check <;> simp [value?]

/-! ## Documents -/

/-- An optional part that is not null is checked like any other. -/
theorem optional_of_ne_null {check : Check α} {d : Document} (hd : d ≠ .null) :
    optional check (some d) = (check (some d)).map some := by
  cases d with
  | null => exact absurd rfl hd
  | _ => rfl

/-- An optional part that is neither missing nor null is accepted as what it stands for. -/
theorem exists_of_optional {check : Check α} {d : Document} {value : Option α} (hd : d ≠ .null)
    (h : optional check (some d) = accepted value) :
    ∃ a, check (some d) = accepted a ∧ value = some a := by
  obtain ⟨a, ha, rfl⟩ := map_eq_accepted_iff.1 (optional_of_ne_null hd ▸ h)
  exact ⟨a, ha, rfl⟩

/-- An optional part is accepted as none where it is missing or null, and as a value where it is
there and accepted as this value. -/
theorem cases_of_optional {check : Check α} {document : Option Document} {value : Option α}
    (h : optional check document = accepted value) :
    (document = none ∨ document = some .null) ∧ value = none ∨
      ∃ d a, document = some d ∧ check (some d) = accepted a ∧ value = some a := by
  cases document with
  | none => exact .inl ⟨.inl rfl, by simpa [optional] using h.symm⟩
  | some d =>
      by_cases hd : d = .null
      · subst hd
        exact .inl ⟨.inr rfl, by simpa [optional] using h.symm⟩
      · obtain ⟨a, ha, hvalue⟩ := exists_of_optional hd h
        exact .inr ⟨d, a, rfl, ha, hvalue⟩

/-- What holds of every value that is accepted holds of that of an optional part. -/
theorem forall_of_optional {check : Check α} {P : α → Prop}
    (hcheck : ∀ d a, check (some d) = accepted a → P a) {document : Option Document}
    {value : Option α} (h : optional check document = accepted value) : ∀ a ∈ value, P a := by
  rcases cases_of_optional h with ⟨-, rfl⟩ | ⟨d, b, -, hb, rfl⟩
  · exact nofun
  · rintro a hmem
    obtain rfl := Option.some.inj hmem
    exact hcheck d b hb

/-- What holds of every value that is accepted, and of that which stands for a part that is missing,
holds of what an optional part stands for. -/
theorem getD_of_optional {check : Check α} {P : α → Prop}
    (hcheck : ∀ d a, check (some d) = accepted a → P a) {missing : α} (hmissing : P missing)
    {document : Option Document} {value : Option α} (h : optional check document = accepted value) :
    P (value.getD missing) := by
  cases value with
  | none => exact hmissing
  | some a => exact forall_of_optional hcheck h a rfl

@[simp] theorem field_eq_accepted_iff {fields : List (String × Document)} {key : String}
    {check : Check α} {a : α} :
    field fields key check = accepted a ↔ check (Record.get? key fields) = accepted a := by
  rw [field, under_eq_accepted_iff]

/-- The items of a list are accepted one by one. -/
theorem items_eq_map_iff {check : Check α} {index : Nat} {documents : List Document}
    {values : List α} :
    items check index documents = values.map accepted ↔
      documents.map (fun d => check (some d)) = values.map accepted := by
  induction documents generalizing index values with
  | nil => cases values <;> simp [items]
  | cons d rest ih => cases values <;> simp [items, ih]

/-- A text is accepted as it is. -/
@[simp] theorem text_eq_accepted_iff {document : Option Document} {s : String} :
    text document = accepted s ↔ document = some (.text s) := by
  unfold text
  split <;> simp_all [wrongKind]

/-- A list is accepted item by item. -/
theorem list_eq_accepted_iff {check : Check α} {document : Option Document} {values : List α} :
    list check document = accepted values ↔ ∃ documents, document = some (.list documents) ∧
      documents.map (fun d => check (some d)) = values.map accepted := by
  unfold list
  split
  · simp [wrongKind]
  · simp [all_eq_accepted_iff, items_eq_map_iff]
  · rename_i d hlist
    simp only [wrongKind, reduceCtorEq, false_iff, not_exists, not_and]
    rintro documents hd -
    exact hlist documents (Option.some.inj hd)

/-- What holds of every value that is accepted holds of those of a list. -/
theorem forall_of_list {check : Check α} {P : α → Prop}
    (hcheck : ∀ d a, check (some d) = accepted a → P a) {document : Option Document}
    {values : List α} (h : list check document = accepted values) : ∀ a ∈ values, P a := by
  intro a hmem
  obtain ⟨documents, -, hitems⟩ := list_eq_accepted_iff.1 h
  have hitem : accepted a ∈ documents.map fun d => check (some d) :=
    hitems ▸ List.mem_map_of_mem hmem
  obtain ⟨d, -, ha⟩ := List.mem_map.1 hitem
  exact hcheck d a ha

/-- A number is accepted as it is where no test fails. -/
theorem number_eq_accepted_iff {failing : Number → List Issue.Cause} {document : Option Document}
    {n : Number} :
    number failing document = accepted n ↔
      document = some (.number n) ∧ n ≠ .notANumber ∧ failing n = [] := by
  unfold number
  split
  · simp [wrongKind]
  · simp only [wrongKind, reduceCtorEq, false_iff, not_and]
    rintro hn hne -
    exact hne (Document.number.inj (Option.some.inj hn)).symm
  · rename_i read hread
    simp only [tested_eq_accepted_iff, Option.some.injEq, Document.number.injEq]
    constructor
    · rintro ⟨htests, rfl⟩
      exact ⟨rfl, hread, htests⟩
    · rintro ⟨rfl, -, htests⟩
      exact ⟨htests, rfl⟩
  · rename_i d _ hnumber
    simp only [wrongKind, reduceCtorEq, false_iff, not_and]
    rintro hd -
    exact absurd (Option.some.inj hd) (hnumber n)

/-- A record is accepted by its fields. -/
theorem record_eq_accepted_iff {check : List (String × Document) → Checked α}
    {document : Option Document} {a : α} :
    record check document = accepted a ↔
      ∃ fields, document = some (.record fields) ∧ check fields = accepted a := by
  unfold record
  split
  · simp [wrongKind]
  · simp
  · rename_i d hrecord
    simp only [wrongKind, reduceCtorEq, false_iff, not_exists, not_and]
    rintro fields hd -
    exact hrecord fields (Option.some.inj hd)

end Checked

end FaultInjection
