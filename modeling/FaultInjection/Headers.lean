import FaultInjection.Record
import FaultInjection.Text.LetterCase

/-!
# Headers - Ordered lists of named values

A header list keeps its pairs in order, with the letters their names were
written in; names are equal up to letter case, and a name may occur any number
of times.

Main definitions:

- `Headers`, a list of pairs; `Headers.ofFlat` reads names and values in turn.
- `Headers.get?`, `Headers.getAll`, `Headers.contains`: look-ups.
- `Headers.append`, `Headers.set`, `Headers.erase`: changes.
- `Headers.replaceAll`, a list in which entries replace the headers they name.

Main results:

- `Headers.get?_eq_head?_getAll` and `Headers.contains_eq_true_iff`: the look-ups
  agree.
- `Headers.getAll_append`, `Headers.getAll_erase`, `Headers.getAll_set`: what a
  change does to the values of a name.
-/

namespace FaultInjection

/-- A header list: names with values, in order. -/
structure Headers where
  toList : List (String × String)
  deriving DecidableEq, Repr

namespace Headers

/-- The list without headers. -/
def empty : Headers := ⟨[]⟩

instance : Inhabited Headers := ⟨empty⟩

/-- Whether two names are equal up to letter case. -/
def sameName (a b : String) : Bool := lowerCase a == lowerCase b

/-- Names and values in turn as pairs; a name without a value is left out. -/
def pairUp : List String → List (String × String)
  | name :: value :: rest => (name, value) :: pairUp rest
  | _ => []

/-- The header list of names and values in turn. -/
def ofFlat (flat : List String) : Headers := ⟨pairUp flat⟩

/-- The count of pairs. -/
def size (h : Headers) : Nat := h.toList.length

/-- The values of a name, in order. -/
def getAll (h : Headers) (name : String) : List String :=
  (h.toList.filter fun pair => sameName pair.1 name).map Prod.snd

/-- The first value of a name. -/
def get? (h : Headers) (name : String) : Option String :=
  (h.toList.find? fun pair => sameName pair.1 name).map Prod.snd

/-- Whether a name occurs. -/
def contains (h : Headers) (name : String) : Bool :=
  h.toList.any fun pair => sameName pair.1 name

/-- The list with one more pair at its end. -/
def append (h : Headers) (name value : String) : Headers := ⟨h.toList ++ [(name, value)]⟩

/-- The list with more pairs at its end. -/
def appendAll (h : Headers) (pairs : List (String × String)) : Headers := ⟨h.toList ++ pairs⟩

/-- The list without the pairs of a name. -/
def erase (h : Headers) (name : String) : Headers :=
  ⟨h.toList.filter fun pair => !sameName pair.1 name⟩

/-- The list without the old pairs of a name and with its new values at the end. -/
def set (h : Headers) (name : String) (values : List String) : Headers :=
  (h.erase name).appendAll (values.map fun value => (name, value))

/-! ## Replacing headers -/

/-- A name as it was first written, and the values that entries give it. -/
structure Group where
  name : String
  values : List String
  deriving DecidableEq, Repr

/-- Groups with one more entry: in the group of its name, or in a new group at the end. -/
def addToGroups (groups : List Group) (name value : String) : List Group :=
  match groups with
  | [] => [⟨name, [value]⟩]
  | g :: rest =>
    if sameName g.name name then { g with values := g.values ++ [value] } :: rest
    else g :: addToGroups rest name value

/-- Entries gathered by name, in the order in which names first occur. -/
def groupByName (entries : List (String × String)) : List Group :=
  entries.foldl (fun groups (name, value) => addToGroups groups name value) []

/-- The list in which the entries of each name take the place of that header. -/
def replaceAll (h : Headers) (entries : List (String × String)) : Headers :=
  (groupByName entries).foldl (fun h g => h.set g.name g.values) h

/-! ## Look-ups agree -/

/-- The first value is the head of all values. -/
theorem get?_eq_head?_getAll (h : Headers) (name : String) :
    h.get? name = (h.getAll name).head? := by
  obtain ⟨l⟩ := h
  simp only [get?, getAll]
  induction l with
  | nil => rfl
  | cons pair rest ih =>
      cases hp : sameName pair.1 name with
      | false => simp only [List.find?_cons, List.filter_cons, hp, Bool.false_eq_true, if_false, ih]
      | true => simp [hp]

/-- A name occurs exactly when it has values. -/
theorem contains_eq_true_iff (h : Headers) (name : String) :
    h.contains name = true ↔ h.getAll name ≠ [] := by
  simp [contains, getAll, List.filter_eq_nil_iff]

/-! ## Changes -/

/-- An appended value comes after the other values of its name. -/
theorem getAll_append (h : Headers) (name value other : String) :
    (h.append name value).getAll other =
      h.getAll other ++ if sameName name other then [value] else [] := by
  by_cases hn : sameName name other <;> simp [append, getAll, hn]

/-- Names are the same in either order. -/
theorem sameName_comm (a b : String) : sameName a b = sameName b a := by
  simp only [sameName]
  exact Bool.beq_comm

/-- An erased name has no values; the other names keep theirs. -/
theorem getAll_erase (h : Headers) (name other : String) :
    (h.erase name).getAll other = if sameName name other then [] else h.getAll other := by
  by_cases hn : sameName name other
  · simp only [erase, getAll, List.filter_filter, hn, if_true]
    rw [List.filter_eq_nil_iff.2]
    · rfl
    · intro pair _
      simp only [sameName, beq_iff_eq] at hn
      simp [sameName, hn]
  · simp only [erase, getAll, List.filter_filter, hn]
    congr 1
    apply List.filter_congr
    intro pair _
    simp only [sameName, beq_iff_eq] at hn
    by_cases hp : lowerCase pair.1 = lowerCase other
    · simp [sameName, hp, Ne.symm hn]
    · simp [sameName, hp]

/-- A name that was set has exactly the values set; the other names keep theirs. -/
theorem getAll_set (h : Headers) (name : String) (values : List String) (other : String) :
    (h.set name values).getAll other =
      if sameName name other then values else h.getAll other := by
  -- All new pairs have the one name, so that either all of them are looked up or none.
  have hnew : ((values.map fun value => (name, value)).filter fun pair =>
      sameName pair.1 other).map Prod.snd = if sameName name other then values else [] := by
    induction values with
    | nil => simp
    | cons value rest ih =>
        cases hn : sameName name other with
        | false => simp [hn]
        | true => simpa [hn] using ih
  calc
    (h.set name values).getAll other =
        (h.erase name).getAll other ++ if sameName name other then values else [] := by
      rw [← hnew, set, appendAll, getAll, List.filter_append, List.map_append, getAll]
    _ = if sameName name other then values else h.getAll other := by
      rw [getAll_erase]
      cases sameName name other with
      | false => exact List.append_nil _
      | true => rfl

end Headers

end FaultInjection
