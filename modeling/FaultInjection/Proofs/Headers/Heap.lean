import FaultInjection.Headers.Heap
import FaultInjection.Proofs.Headers.Replacing
import Mathlib.Data.List.Nodup

/-!
# Headers - Lists in place as lists of pairs

Lists that are changed in place behave as plain lists of pairs, each of its own.  This rests on
one invariant: every list refers to an array that there is, and no two lists refer to the same
array.  Each step keeps it, and a step then shows in the list that it changes and in no other.

Main definitions:

- `Headers.Heap.Separate`, the invariant, and `Headers.Heap.Shows`, a heap that keeps it and shows
  certain lists.
- `Headers.Heap.Step` and `Headers.Heap.run`, what a program does to its lists.
- `Headers.Heap.Step.onPairs`, the same on plain lists of pairs.
- `Headers.Heap.IsMultimap`, the laws of a multimap.

Main results:

- `Headers.Heap.Shows.next`: each step does to lists in place what it does to plain ones.
- `Headers.Heap.isMultimap_run`: after any steps the lists are multimaps that keep their order.
-/

namespace FaultInjection

namespace Headers

namespace Heap

/-! ## Arrays of their own -/

/-- Each list refers to an array, and no two lists refer to the same one. -/
structure Separate (s : Heap) : Prop where
  allocated : ∀ address ∈ s.lists, address < s.arrays.length
  distinct : s.lists.Nodup

/-- The heap shows these lists, and each has an array of its own. -/
structure Shows (s : Heap) (lists : List Headers) : Prop where
  views : s.views = lists
  separate : s.Separate

section Changes

variable {s : Heap} {lists : List Headers}

theorem length_views (s : Heap) : s.views.length = s.lists.length := List.length_map ..

/-- Lists with one address are one list. -/
theorem Separate.index_eq (hs : s.Separate) {i j address : Nat} (hi : s.lists[i]? = some address)
    (hj : s.lists[j]? = some address) : i = j := by
  obtain ⟨hlt, -⟩ := List.getElem?_eq_some_iff.1 hi
  exact (List.getElem?_inj hlt hs.distinct).1 (hi.trans hj.symm)

/-- A pair that is pushed onto a list shows in no other. -/
theorem views_push (hs : s.Separate) (i : Nat) (name value : String) :
    (s.push i name value).views = s.views.modify i (·.append name value) := by
  cases hi : s.lists[i]? with
  | none =>
      have hlength : s.views.length ≤ i := by
        rw [length_views]
        exact List.getElem?_eq_none_iff.1 hi
      rw [push, hi, List.modify_eq_self hlength]
  | some address =>
      refine List.ext_getElem? fun j => ?_
      simp only [push, hi, Heap.views, List.getElem?_map, List.getElem?_modify]
      cases hj : s.lists[j]? with
      | none => rfl
      | some other =>
          have hother : other < s.arrays.length :=
            hs.allocated other (List.mem_of_getElem? hj)
          by_cases hij : i = j
          · subst hij
            cases hi.symm.trans hj
            simp [append, List.getD_eq_getElem?_getD, hother]
          · have hne : address ≠ other := fun heq => hij (hs.index_eq hi (heq ▸ hj))
            simp [hij, List.getD_eq_getElem?_getD, List.getElem?_modify, hne]

theorem separate_push (hs : s.Separate) (i : Nat) (name value : String) :
    (s.push i name value).Separate := by
  unfold push
  split
  · exact {
      allocated := fun address hmem => by simpa using hs.allocated address hmem
      distinct := hs.distinct }
  · exact hs

theorem Shows.push (hs : s.Shows lists) (i : Nat) (name value : String) :
    (s.push i name value).Shows (lists.modify i (·.append name value)) where
  views := hs.views ▸ views_push hs.separate i name value
  separate := separate_push hs.separate i name value

/-- More pairs come at the end of one list. -/
theorem Shows.pushAll (hs : s.Shows lists) (i : Nat) (pairs : List (String × String)) :
    (s.pushAll i pairs).Shows (lists.modify i (·.appendAll pairs)) := by
  induction pairs generalizing s lists with
  | nil =>
      have hnone : (fun h : Headers => h.appendAll []) = id := by
        funext h
        simp [appendAll]
      rw [hnone, List.modify_id]
      exact hs
  | cons pair rest ih =>
      have hpairs : (fun h : Headers => (h.append pair.1 pair.2).appendAll rest) =
          fun h => h.appendAll (pair :: rest) := by
        funext h
        simp [append, appendAll]
      have hrest := ih (hs.push i pair.1 pair.2)
      rw [List.modify_modify_eq] at hrest
      exact hpairs ▸ hrest

/-! ## New arrays -/

/-- What the lists show does not depend on a new array. -/
theorem contents_alloc (hs : s.Separate) (pairs : List (String × String)) :
    (s.lists.map fun address => Headers.mk ((s.arrays ++ [pairs]).getD address [])) = s.views := by
  refine List.map_congr_left fun address hmem => ?_
  have hlt := hs.allocated address hmem
  rw [List.getD_eq_getElem?_getD, List.getElem?_append_left hlt, ← List.getD_eq_getElem?_getD]

/-- The new array holds its pairs. -/
theorem getD_alloc (s : Heap) (pairs : List (String × String)) :
    (s.arrays ++ [pairs]).getD s.arrays.length [] = pairs := by
  simp [List.getD_eq_getElem?_getD]

/-- No list refers to an array before it is made. -/
theorem Separate.fresh (hs : s.Separate) : s.arrays.length ∉ s.lists := fun hmem =>
  Nat.lt_irrefl _ (hs.allocated _ hmem)

theorem Shows.create (hs : s.Shows lists) : s.create.Shows (lists ++ [.empty]) where
  views := by
    rw [Heap.create, Heap.views, List.map_append, contents_alloc hs.separate, List.map_singleton,
      getD_alloc, hs.views]
    rfl
  separate := {
    allocated := by
      intro address hmem
      rw [Heap.create, List.length_append, List.length_singleton]
      rcases List.mem_append.1 hmem with hold | hnew
      · exact Nat.lt_succ_of_lt (hs.separate.allocated address hold)
      · rw [List.mem_singleton.1 hnew]
        exact Nat.lt_succ_self _
    distinct := by
      rw [Heap.create, List.nodup_append]
      refine ⟨hs.separate.distinct, List.nodup_singleton _, ?_⟩
      intro address hold other hnew heq
      rw [heq, List.mem_singleton.1 hnew] at hold
      exact hs.separate.fresh hold }

/-- A list from which a name is erased shows its other pairs, and no other list changes. -/
theorem views_erase (hs : s.Separate) (i : Nat) (name : String) :
    (s.erase i name).2.views = s.views.modify i (·.erase name) := by
  unfold erase
  cases hi : s.view? i with
  | none => exact (List.modify_eq_self (List.getElem?_eq_none_iff.1 hi)).symm
  | some h =>
      obtain ⟨hlt, rfl⟩ := List.getElem?_eq_some_iff.1 hi
      rw [List.modify_eq_set_get _ hlt, List.get_eq_getElem]
      refine (List.map_set ..).trans ?_
      rw [contents_alloc hs, getD_alloc]

theorem separate_erase (hs : s.Separate) (i : Nat) (name : String) :
    (s.erase i name).2.Separate := by
  unfold erase
  split
  · refine {
      allocated := fun address hmem => ?_
      distinct := hs.distinct.set hs.fresh }
    rw [List.length_append, List.length_singleton]
    rcases List.mem_or_eq_of_mem_set hmem with hold | hnew
    · exact Nat.lt_succ_of_lt (hs.allocated address hold)
    · rw [hnew]
      exact Nat.lt_succ_self _
  · exact hs

theorem Shows.erase (hs : s.Shows lists) (i : Nat) (name : String) :
    (s.erase i name).2.Shows (lists.modify i (·.erase name)) where
  views := hs.views ▸ views_erase hs.separate i name
  separate := separate_erase hs.separate i name

theorem Shows.set (hs : s.Shows lists) (i : Nat) (name : String) (values : Values) :
    (s.set i name values).Shows (lists.modify i (·.set name values.toList)) := by
  have hset := (hs.erase i name).pushAll i (values.toList.map fun value => (name, value))
  rw [List.modify_modify_eq] at hset
  exact hset

/-- A list loses pairs exactly when the erased name occurs. -/
theorem erase_eq_contains {i : Nat} {h : Headers} (hi : s.view? i = some h) (name : String) :
    (s.erase i name).1 = h.contains name := by
  simp only [Heap.erase, hi]
  rw [Bool.eq_iff_iff, bne_iff_ne, ne_eq, size, size, Headers.erase,
    List.length_filter_eq_length_iff, contains, List.any_eq_true]
  simp

/-! ## New lists -/

/-- The last list is changed at the index that it got. -/
theorem modify_concat {α : Type} (f : α → α) (items : List α) (item : α) :
    (items ++ [item]).modify items.length f = items ++ [f item] := by
  induction items with
  | nil => rfl
  | cons first rest ih => rw [List.cons_append, List.length_cons, List.modify_succ_cons, ih]; rfl

/-- A new list shows the pairs that are pushed onto it. -/
theorem Shows.construct (hs : s.Shows lists) (pairs : List (String × String)) :
    (s.construct pairs).Shows (lists ++ [⟨pairs⟩]) := by
  have hlast : s.lists.length = lists.length := by rw [← length_views, hs.views]
  have hpushed := hs.create.pushAll s.lists.length pairs
  rw [hlast, modify_concat] at hpushed
  rw [Heap.construct, hlast]
  exact hpushed

/-- Names and values in turn are pushed in pairs. -/
theorem pushFlat_eq (i : Nat) :
    ∀ (flat : List String) (s : Heap), s.pushFlat i flat = s.pushAll i (pairUp flat)
  | [], _ => rfl
  | [_], _ => rfl
  | name :: value :: rest, s => pushFlat_eq i rest (s.push i name value)

theorem Shows.ofFlat (hs : s.Shows lists) (flat : List String) :
    (s.ofFlat flat).Shows (lists ++ [⟨pairUp flat⟩]) := by
  rw [Heap.ofFlat, pushFlat_eq]
  exact hs.construct (pairUp flat)

theorem Shows.clone (hs : s.Shows lists) (i : Nat) :
    (s.clone i).Shows (lists ++ lists[i]?.toList) := by
  have hview : s.view? i = lists[i]? := by rw [view?, hs.views]
  rw [Heap.clone, hview]
  cases lists[i]? with
  | none => exact (List.append_nil lists).symm ▸ hs
  | some h => exact hs.construct h.toList

end Changes

/-! ## Steps -/

/-- What a program can do to its header lists. -/
inductive Step where
  | construct (pairs : List (String × String))
  | ofFlat (flat : List String)
  | append (i : Nat) (name value : String)
  | set (i : Nat) (name : String) (values : Values)
  | erase (i : Nat) (name : String)
  | clone (i : Nat)
  deriving DecidableEq, Repr

/-- The heap after a step. -/
def next (s : Heap) : Step → Heap
  | .construct pairs => s.construct pairs
  | .ofFlat flat => s.ofFlat flat
  | .append i name value => s.push i name value
  | .set i name values => s.set i name values
  | .erase i name => (s.erase i name).2
  | .clone i => s.clone i

/-- The heap after steps. -/
def run (s : Heap) (steps : List Step) : Heap := steps.foldl next s

namespace Step

/-- The list that a step changes. -/
def changed? : Step → Option Nat
  | append i _ _ => some i
  | set i _ _ => some i
  | erase i _ => some i
  | _ => none

/-- The pairs that do not have a name, in order. -/
def others (name : String) (pairs : List (String × String)) : List (String × String) :=
  pairs.filter fun pair => !sameName pair.1 name

/-- What a step does to plain lists of pairs. -/
def onPairs (lists : List Headers) : Step → List Headers
  | construct pairs => lists ++ [⟨pairs⟩]
  | ofFlat flat => lists ++ [⟨pairUp flat⟩]
  | append i name value => lists.modify i fun h => ⟨h.toList ++ [(name, value)]⟩
  | set i name values => lists.modify i fun h =>
      ⟨others name h.toList ++ values.toList.map fun value => (name, value)⟩
  | erase i name => lists.modify i fun h => ⟨others name h.toList⟩
  | clone i => lists ++ lists[i]?.toList

/-- A step leaves the lists alone that it does not change. -/
theorem getElem?_onPairs {lists : List Headers} {step : Step} {j : Nat}
    (hj : j < lists.length) (hchanged : step.changed? ≠ some j) :
    (step.onPairs lists)[j]? = lists[j]? := by
  cases step with
  | construct | ofFlat | clone => exact List.getElem?_append_left hj
  | append i | set i | erase i =>
      have hne : i ≠ j := fun heq => hchanged (congrArg some heq)
      simp [onPairs, hne]

end Step

/-- Each step does to lists in place what it does to plain lists of pairs. -/
theorem Shows.next {s : Heap} {lists : List Headers} (hs : s.Shows lists) (step : Step) :
    (s.next step).Shows (step.onPairs lists) := by
  cases step with
  | construct pairs => exact hs.construct pairs
  | ofFlat flat => exact hs.ofFlat flat
  | append i name value => exact hs.push i name value
  | set i name values => exact hs.set i name values
  | erase i name => exact hs.erase i name
  | clone i => exact hs.clone i

/-- Steps do to lists in place what they do to plain lists of pairs. -/
theorem Shows.run {s : Heap} {lists : List Headers} (hs : s.Shows lists) (steps : List Step) :
    (s.run steps).Shows (steps.foldl Step.onPairs lists) := by
  induction steps generalizing s lists with
  | nil => exact hs
  | cons step rest ih => exact ih (hs.next step)

/-- Without lists nothing is shared. -/
theorem shows_nil : Shows {} [] where
  views := rfl
  separate := ⟨fun _ h => (nomatch h), List.nodup_nil⟩

/-! ## Multimaps -/

/-- After steps each list is a multimap that keeps its order. -/
structure IsMultimap (steps : List Step) : Prop where
  /-- The lists iterate over the pairs of plain lists on which the same is done. -/
  iterate : (run {} steps).views = steps.foldl Step.onPairs []
  /-- A further step shows in no list but the one that it changes. -/
  alone : ∀ step j h, (run {} steps).view? j = some h → step.changed? ≠ some j →
    ((run {} steps).next step).view? j = some h
  /-- The value of a name is the first of its values. -/
  get : ∀ i h name, (run {} steps).view? i = some h → h.get? name = (h.getAll name).head?
  /-- A name occurs exactly when it has values. -/
  contains : ∀ i h name, (run {} steps).view? i = some h →
    (h.contains name = true ↔ h.getAll name ≠ [])
  /-- The size is the number of pairs. -/
  size : ∀ i h, (run {} steps).view? i = some h →
    ∃ pairs, (steps.foldl Step.onPairs [])[i]? = some ⟨pairs⟩ ∧ h.size = pairs.length
  /-- Erasing tells whether the name occurred. -/
  erased : ∀ i h name, (run {} steps).view? i = some h →
    ((run {} steps).erase i name).1 = h.contains name
  /-- Erasing keeps the pairs of other names. -/
  erase : ∀ i h name, (run {} steps).view? i = some h →
    ∃ rest, ((run {} steps).erase i name).2.view? i = some rest ∧
      Step.others name rest.toList = Step.others name h.toList
  /-- Setting keeps the pairs of other names. -/
  set : ∀ i h name values, (run {} steps).view? i = some h →
    ∃ rest, ((run {} steps).set i name values).view? i = some rest ∧
      Step.others name rest.toList = Step.others name h.toList

/-- A change of a list shows in that list. -/
theorem Shows.view?_modify {s after : Heap} {lists : List Headers} {i : Nat} {h : Headers}
    {change : Headers → Headers} (hafter : after.Shows (lists.modify i change))
    (hs : s.Shows lists) (hi : s.view? i = some h) : after.view? i = some (change h) := by
  rw [view?, hs.views] at hi
  rw [view?, hafter.views, List.getElem?_modify, hi]
  simp

/-- After any steps the lists are multimaps that keep their order. -/
theorem isMultimap_run (steps : List Step) : IsMultimap steps := by
  have hs := shows_nil.run steps
  have hothers : ∀ h name values, Step.others name (Headers.set h name values).toList =
      Step.others name h.toList := by
    intro h name values
    refine filter_set (fun other => !sameName other name) ?_ h values
    intro other hsame
    rw [hsame]
    rfl
  refine {
    iterate := hs.views
    alone := fun step j h hj hchanged => ?_
    get := fun _ h name _ => h.get?_eq_head?_getAll name
    contains := fun _ h name _ => h.contains_eq_true_iff name
    size := fun i h hi => ⟨h.toList, hs.views ▸ hi, rfl⟩
    erased := fun i h name hi => erase_eq_contains hi name
    erase := fun i h name hi => ⟨_, (hs.erase i name).view?_modify hs hi, ?_⟩
    set := fun i h name values hi =>
      ⟨_, (hs.set i name values).view?_modify hs hi, hothers h name values.toList⟩ }
  · rw [view?, hs.views] at hj
    obtain ⟨hlt, -⟩ := List.getElem?_eq_some_iff.1 hj
    rw [view?, (hs.next step).views, Step.getElem?_onPairs hlt hchanged, hj]
  · simp [Step.others, Headers.erase, List.filter_filter]

end Heap

end Headers

end FaultInjection
