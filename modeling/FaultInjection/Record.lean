/-!
# Records - Fields in key order

A record is a list of named fields.  Keys that are array indices come first, in
ascending order; the other keys follow in the order in which they were first
written.  Writing a key again keeps its place and changes its value.

Main definitions:

- `Record.index?`, the array index that a key spells.
- `Record.put`, a record with one field written.
- `Record.ofFields`, the record that a list of writes leaves.

Main results:

- `Record.get?_put_self` and `Record.get?_put_of_ne`: a write changes its own
  key and no other.
-/

namespace FaultInjection

/-- Named fields in key order. -/
abbrev Record (α : Type) := List (String × α)

namespace Record

variable {α : Type}

/-- The value of digit characters, none where another character occurs. -/
def indexValue? (value : Nat) : List Char → Option Nat
  | [] => some value
  | c :: rest =>
    if '0' ≤ c && c ≤ '9' then indexValue? (value * 10 + (c.toNat - '0'.toNat)) rest else none

/-- The array index that a key spells without a leading zero, below 2^32 - 1. -/
def index? (key : String) : Option Nat :=
  match key.toList with
  | [] => none
  | ['0'] => some 0
  | '0' :: _ => none
  | cs => (indexValue? 0 cs).filter (· < 4294967295)

/-- Whether a new key stands before an old one: an index before greater ones and other keys. -/
def precedes (new old : String) : Bool :=
  match index? new, index? old with
  | some i, some j => i < j
  | some _, none => true
  | none, _ => false

/-- The record with one field written. -/
def put (key : String) (value : α) : Record α → Record α
  | [] => [(key, value)]
  | (k, v) :: rest =>
    if k = key then (k, value) :: rest
    else if precedes key k then (key, value) :: (k, v) :: rest
    else (k, v) :: put key value rest

/-- The value of a key. -/
def get? (key : String) : Record α → Option α
  | [] => none
  | (k, v) :: rest => if k = key then some v else get? key rest

/-- The record that a list of writes leaves. -/
def ofFields (fields : List (String × α)) : Record α :=
  fields.foldl (fun record (key, value) => record.put key value) []

/-- A key that was written has the value written. -/
theorem get?_put_self (key : String) (value : α) (record : Record α) :
    (record.put key value).get? key = some value := by
  induction record with
  | nil => simp [put, get?]
  | cons field rest ih =>
      obtain ⟨k, v⟩ := field
      by_cases hk : k = key
      · simp [put, get?, hk]
      · by_cases hp : precedes key k
        · simp [put, get?, hk, hp]
        · simp [put, get?, hk, hp, ih]

/-- Writing a key leaves the values of the other keys. -/
theorem get?_put_of_ne (key other : String) (value : α) (record : Record α) (h : other ≠ key) :
    (record.put key value).get? other = record.get? other := by
  induction record with
  | nil => simp [put, get?, Ne.symm h]
  | cons field rest ih =>
      obtain ⟨k, v⟩ := field
      by_cases hk : k = key
      · subst hk
        simp [put, get?, Ne.symm h]
      · by_cases hp : precedes key k
        · simp [put, get?, hk, hp, Ne.symm h]
        · by_cases ho : k = other
          · subst ho
            simp [put, get?, hk, hp]
          · simp [put, get?, hk, hp, ho, ih]

end Record

end FaultInjection
