import FaultInjection.Headers

/-!
# Headers - Lists that are changed in place

The library changes its header lists in place.  A list refers to an array of pairs; a pair is
pushed onto that array, while erasing a name gives the list a new array.  Here are the arrays and
the references, with each list known by its index.  The rest of the library speaks of the pairs
that a list shows.

Main definitions:

- `Headers.Heap`, the arrays and the lists that refer to them.
- `Headers.Heap.view?`, what a list shows.
- `Headers.Heap.construct`, `Headers.Heap.ofFlat`, `Headers.Heap.clone`: new lists.
- `Headers.Heap.push`, `Headers.Heap.erase`, `Headers.Heap.set`: changes of a list.
-/

namespace FaultInjection

namespace Headers

/-- Arrays of pairs, and for each list the array that it refers to. -/
structure Heap where
  arrays : List (List (String × String)) := []
  lists : List Nat := []
  deriving DecidableEq, Repr

/-- What a header is set to: one value, or any number of them. -/
inductive Values where
  | one (value : String)
  | many (values : List String)
  deriving DecidableEq, Repr

/-- The values, in order. -/
def Values.toList : Values → List String
  | one value => [value]
  | many values => values

namespace Heap

/-! ## Looking -/

/-- What the lists show. -/
def views (s : Heap) : List Headers := s.lists.map fun address => ⟨s.arrays.getD address []⟩

/-- What a list shows. -/
def view? (s : Heap) (i : Nat) : Option Headers := s.views[i]?

/-! ## Changes -/

/-- One more pair on the array of a list. -/
def push (s : Heap) (i : Nat) (name value : String) : Heap :=
  match s.lists[i]? with
  | some address => { s with arrays := s.arrays.modify address (· ++ [(name, value)]) }
  | none => s

/-- Whether a list loses pairs, and the heap in which it refers to a new array without them. -/
def erase (s : Heap) (i : Nat) (name : String) : Bool × Heap :=
  match s.view? i with
  | some h =>
    let rest := h.erase name
    (rest.size != h.size,
      { arrays := s.arrays ++ [rest.toList], lists := s.lists.set i s.arrays.length })
  | none => (false, s)

/-- More pairs on the array of a list, one after the other. -/
def pushAll (s : Heap) (i : Nat) (pairs : List (String × String)) : Heap :=
  pairs.foldl (fun s pair => s.push i pair.1 pair.2) s

/-- The heap in which a list has lost the pairs of a name and has its new values at the end. -/
def set (s : Heap) (i : Nat) (name : String) (values : Values) : Heap :=
  (s.erase i name).2.pushAll i (values.toList.map fun value => (name, value))

/-! ## New lists -/

/-- One more list, which refers to an empty array of its own. -/
def create (s : Heap) : Heap :=
  { arrays := s.arrays ++ [[]], lists := s.lists ++ [s.arrays.length] }

/-- One more list, onto which pairs are pushed. -/
def construct (s : Heap) (pairs : List (String × String)) : Heap :=
  s.create.pushAll s.lists.length pairs

/-- Names and values in turn pushed onto a list; a name without a value is left out. -/
def pushFlat (s : Heap) (i : Nat) : List String → Heap
  | name :: value :: rest => pushFlat (s.push i name value) i rest
  | _ => s

/-- One more list, of names and values in turn. -/
def ofFlat (s : Heap) (flat : List String) : Heap := s.create.pushFlat s.lists.length flat

/-- One more list, of the pairs that a list shows. -/
def clone (s : Heap) (i : Nat) : Heap :=
  match s.view? i with
  | some h => s.construct h.toList
  | none => s

end Heap

end Headers

end FaultInjection
