import FaultInjection.Document.Yaml
import FaultInjection.Proofs.Document.Yaml.Scalars

/-!
# YAML - Records in key order

A mapping becomes a record by writing its pairs one after the other, and a reference becomes
the value of another node of the same document.  So all records are in key order, however
references are nested.

Main results:

- `Yaml.Node.isOrdered_of_document?`: the value of a node.
- `Document.isOrdered_of_ofYaml?`: a text in the YAML notation stands for a document in key order.
-/

namespace FaultInjection

namespace Yaml

namespace Node

/-! ## Numbers for anchors -/

/-- Once the anchors of a node are numbered, its scalars have values in key order. -/
def LinksOrdered (node : Node String) : Prop :=
  ∀ anchors linked anchors', link? anchors node = some (linked, anchors') → linked.IsOrdered

/-- Items with their anchors numbered. -/
theorem forall_isOrdered_of_linkItems? {items : List (Node String)}
    (hitems : ∀ item ∈ items, LinksOrdered item) {anchors anchors' : Anchors}
    {linked : List Linked} (h : linkItems? anchors items = some (linked, anchors')) :
    ∀ item ∈ linked, item.IsOrdered := by
  induction items generalizing anchors linked with
  | nil =>
      cases h
      exact List.forall_mem_nil _
  | cons item rest ih =>
      obtain ⟨hitem, hrest⟩ := List.forall_mem_cons.1 hitems
      simp only [linkItems?, Option.bind_eq_bind, Option.bind_eq_some_iff, Option.pure_def] at h
      obtain ⟨⟨first, behind⟩, hfirst, ⟨others, last⟩, hothers, h⟩ := h
      cases h
      exact List.forall_mem_cons.2 ⟨hitem _ _ _ hfirst, ih hrest hothers⟩

/-- Pairs with their anchors numbered. -/
theorem areOrdered_of_linkPairs? {pairs : List (Node String × Option (Node String))}
    (hkeys : ∀ pair ∈ pairs, LinksOrdered pair.1)
    (hvalues : ∀ pair ∈ pairs, ∀ value ∈ pair.2, LinksOrdered value) {anchors anchors' : Anchors}
    {linked : List (Linked × Option Linked)}
    (h : linkPairs? anchors pairs = some (linked, anchors')) : AreOrdered linked := by
  induction pairs generalizing anchors linked with
  | nil =>
      cases h
      exact areOrdered_nil
  | cons pair rest ih =>
      obtain ⟨key, value?⟩ := pair
      obtain ⟨hkey, hotherKeys⟩ := List.forall_mem_cons.1 hkeys
      obtain ⟨hvalue, hotherValues⟩ := List.forall_mem_cons.1 hvalues
      cases value? with
      | none =>
          simp only [linkPairs?, Option.bind_eq_bind, Option.bind_eq_some_iff, Option.pure_def] at h
          obtain ⟨⟨first, behind⟩, hfirst, ⟨others, last⟩, hothers, h⟩ := h
          cases h
          exact (ih hotherKeys hotherValues hothers).cons_none (hkey _ _ _ hfirst)
      | some value =>
          simp only [linkPairs?, Option.bind_eq_bind, Option.bind_eq_some_iff, Option.pure_def] at h
          obtain ⟨⟨first, behind⟩, hfirst, h⟩ := h
          obtain ⟨⟨second, behind'⟩, hsecond, ⟨others, last⟩, hothers, h⟩ := h
          cases h
          exact (ih hotherKeys hotherValues hothers).cons_some (hkey _ _ _ hfirst)
            (hvalue value rfl _ _ _ hsecond)

/-- A node with its anchors numbered. -/
theorem IsOrdered.linksOrdered {node : Node String} (h : node.IsOrdered) : LinksOrdered node := by
  induction h with
  | scalar hvalue =>
      intro anchors linked anchors' hlink
      cases hlink
      exact .scalar hvalue
  | list hitems ih =>
      intro anchors linked anchors' hlink
      simp only [link?, Option.bind_eq_bind, Option.bind_eq_some_iff, Option.pure_def] at hlink
      obtain ⟨⟨items, behind⟩, hlinked, hlink⟩ := hlink
      cases hlink
      exact .list (forall_isOrdered_of_linkItems? ih hlinked)
  | mapping hkeys hvalues ihkeys ihvalues =>
      intro anchors linked anchors' hlink
      simp only [link?, Option.bind_eq_bind, Option.bind_eq_some_iff, Option.pure_def] at hlink
      obtain ⟨⟨pairs, behind⟩, hlinked, hlink⟩ := hlink
      cases hlink
      exact isOrdered_mapping (areOrdered_of_linkPairs? ihkeys ihvalues hlinked)
  | reference name =>
      intro anchors linked anchors' hlink
      obtain ⟨anchor, -, hlink⟩ := Option.map_eq_some_iff.1 hlink
      cases hlink
      exact .reference anchor
  | anchored name hnode ih =>
      intro anchors linked anchors' hlink
      simp only [link?, Option.bind_eq_bind, Option.bind_eq_some_iff, Option.pure_def] at hlink
      obtain ⟨⟨inner, behind⟩, hinner, hlink⟩ := hlink
      cases hlink
      exact .anchored _ (ih _ _ _ hinner)

/-! ## Nodes with anchors -/

/-- The nodes among items that have anchors. -/
theorem forall_isOrdered_itemTargets {items : List Linked}
    (h : ∀ item ∈ items, ∀ target ∈ item.targets, target.IsOrdered) :
    ∀ target ∈ itemTargets items, target.IsOrdered := by
  induction items with
  | nil => exact List.forall_mem_nil _
  | cons item rest ih =>
      obtain ⟨hitem, hrest⟩ := List.forall_mem_cons.1 h
      rw [itemTargets]
      exact List.forall_mem_append.2 ⟨hitem, ih hrest⟩

/-- The nodes among pairs that have anchors. -/
theorem forall_isOrdered_pairTargets {pairs : List (Linked × Option Linked)}
    (hkeys : ∀ pair ∈ pairs, ∀ target ∈ pair.1.targets, target.IsOrdered)
    (hvalues : ∀ pair ∈ pairs, ∀ value ∈ pair.2, ∀ target ∈ value.targets, target.IsOrdered) :
    ∀ target ∈ pairTargets pairs, target.IsOrdered := by
  induction pairs with
  | nil => exact List.forall_mem_nil _
  | cons pair rest ih =>
      obtain ⟨key, value?⟩ := pair
      obtain ⟨hkey, hotherKeys⟩ := List.forall_mem_cons.1 hkeys
      obtain ⟨hvalue, hotherValues⟩ := List.forall_mem_cons.1 hvalues
      have hrest := ih hotherKeys hotherValues
      cases value? with
      | none =>
          rw [pairTargets]
          exact List.forall_mem_append.2 ⟨hkey, hrest⟩
      | some value =>
          rw [pairTargets]
          exact List.forall_mem_append.2
            ⟨List.forall_mem_append.2 ⟨hkey, hvalue value rfl⟩, hrest⟩

/-- A node with an anchor within a node has scalars of that node. -/
theorem IsOrdered.targets {node : Linked} (h : node.IsOrdered) :
    ∀ target ∈ node.targets, target.IsOrdered := by
  induction h with
  | scalar hvalue => exact List.forall_mem_nil _
  | list hitems ih => exact forall_isOrdered_itemTargets ih
  | mapping hkeys hvalues ihkeys ihvalues => exact forall_isOrdered_pairTargets ihkeys ihvalues
  | reference name => exact List.forall_mem_nil _
  | anchored name hnode ih => exact List.forall_mem_cons.2 ⟨hnode, ih⟩

/-! ## Values -/

/-- The value of a node without what is in it. -/
theorem IsOrdered.outline {α : Type} {node : Node α} (h : node.IsOrdered) :
    node.outline.IsOrdered := by
  induction h with
  | scalar hvalue => exact hvalue
  | list hitems ih => exact .list (List.forall_mem_nil _)
  | mapping hkeys hvalues ihkeys ihvalues =>
      exact .record Record.isOrdered_nil (List.forall_mem_nil _)
  | reference name => exact .null
  | anchored name hnode ih => exact ih

variable {values : Array Document}

/-- The values of items. -/
theorem forall_isOrdered_itemValues {items : List Linked}
    (h : ∀ item ∈ items, (item.valueWith values).IsOrdered) :
    ∀ value ∈ itemValues values items, value.IsOrdered := by
  induction items with
  | nil => exact List.forall_mem_nil _
  | cons item rest ih =>
      obtain ⟨hitem, hrest⟩ := List.forall_mem_cons.1 h
      exact List.forall_mem_cons.2 ⟨hitem, ih hrest⟩

/-- The fields that pairs stand for. -/
theorem forall_isOrdered_fieldValues {pairs : List (Linked × Option Linked)}
    (h : ∀ pair ∈ pairs, ∀ value ∈ pair.2, (value.valueWith values).IsOrdered) :
    ∀ field ∈ fieldValues values pairs, field.2.IsOrdered := by
  induction pairs with
  | nil => exact List.forall_mem_nil _
  | cons pair rest ih =>
      obtain ⟨key, value?⟩ := pair
      obtain ⟨hvalue, hrest⟩ := List.forall_mem_cons.1 h
      cases value? with
      | none => exact List.forall_mem_cons.2 ⟨.null, ih hrest⟩
      | some value => exact List.forall_mem_cons.2 ⟨hvalue value rfl, ih hrest⟩

/-- The value of a node, when those of the nodes with anchors are in key order. -/
theorem IsOrdered.valueWith {node : Linked} (h : node.IsOrdered)
    (hvalues : ∀ value ∈ values, value.IsOrdered) : (node.valueWith values).IsOrdered := by
  induction h with
  | scalar hvalue => exact hvalue
  | list hitems ih => exact .list (forall_isOrdered_itemValues ih)
  | mapping hkeys hmapped ihkeys ihvalues =>
      exact Document.isOrdered_ofFields (forall_isOrdered_fieldValues ihvalues)
  | reference anchor =>
      rw [Node.valueWith]
      cases hvalue : values[anchor.number]? with
      | none => exact .null
      | some value => exact hvalues value (Array.mem_of_getElem? hvalue)
  | anchored name hnode ih => exact ih

/-- The values of the nodes with anchors, down to any depth of references. -/
theorem forall_isOrdered_targetValues {targets : Array Linked}
    (h : ∀ target ∈ targets, target.IsOrdered) (depth : Nat) :
    ∀ value ∈ targetValues targets depth, value.IsOrdered := by
  induction depth with
  | zero =>
      intro value hvalue
      obtain ⟨target, htarget, rfl⟩ := Array.mem_map.1 hvalue
      exact (h target htarget).outline
  | succ depth ih =>
      intro value hvalue
      obtain ⟨target, htarget, rfl⟩ := Array.mem_map.1 hvalue
      exact (h target htarget).valueWith ih

/-- The value of a node is in key order when those of its scalars are. -/
theorem IsOrdered.document? {node : Node String} {d : Document} (hnode : node.IsOrdered)
    (h : node.document? = some d) : d.IsOrdered := by
  simp only [Node.document?, Option.bind_eq_bind, Option.bind_eq_some_iff, Option.pure_def] at h
  obtain ⟨linked, hlinked, tally, -, h⟩ := h
  cases h
  obtain ⟨⟨read, anchors⟩, hlink, rfl⟩ := Option.map_eq_some_iff.1 hlinked
  have hread : read.IsOrdered := hnode.linksOrdered _ _ _ hlink
  apply hread.valueWith
  apply forall_isOrdered_targetValues
  intro target htarget
  exact hread.targets target (List.mem_toArray.1 htarget)

end Node

/-! ## Documents -/

/-- The root of a stream has scalars with values in key order. -/
def Stream.IsOrdered (stream : Stream) : Prop := ∀ root ∈ stream.root, root.IsOrdered

/-- A part of a text leaves the root as it is, or becomes the root. -/
theorem Stream.IsOrdered.add? {stream next : Stream} {part : Part} (hstream : stream.IsOrdered)
    (h : stream.add? part = some next) : next.IsOrdered := by
  cases part with
  | directive source =>
      simp only [Stream.add?, Option.bind_eq_bind, Option.bind_eq_some_iff, Option.pure_def] at h
      obtain ⟨handles, -, h⟩ := h
      cases h
      exact hstream
  | finish tail =>
      rw [Stream.add?] at h
      split at h
      · cases h
        exact hstream
      · cases h
  | document start value tail =>
      simp only [Stream.add?, Option.bind_eq_bind] at h
      obtain ⟨props, -, h⟩ := Option.bind_eq_some_iff.1 h
      split at h
      · cases h
      have hroot : ∀ root : Node String, root.IsOrdered →
          Stream.IsOrdered { handles := stream.handles, root := some root } := by
        intro root hordered other hother
        obtain rfl := Option.some.inj hother
        exact hordered
      cases value with
      | none =>
          obtain ⟨root, hread, h⟩ := Option.bind_eq_some_iff.1 h
          cases h
          exact hroot root (Node.isOrdered_of_ofText? hread)
      | some layout =>
          obtain ⟨root, hread, h⟩ := Option.bind_eq_some_iff.1 h
          cases h
          exact hroot root (Node.readsOrdered stream.handles layout true props root hread)

/-- Parts of a text, one after the other. -/
theorem Stream.IsOrdered.foldlM_add? {stream last : Stream} {parts : List Part}
    (hstream : stream.IsOrdered) (h : parts.foldlM Stream.add? stream = some last) :
    last.IsOrdered := by
  induction parts generalizing stream with
  | nil =>
      cases h
      exact hstream
  | cons part rest ih =>
      rw [List.foldlM_cons] at h
      obtain ⟨next, hnext, hrest⟩ := Option.bind_eq_some_iff.1 h
      exact ih (hstream.add? hnext) hrest

end Yaml

/-- A text in the YAML notation stands for a document in key order. -/
theorem Document.isOrdered_of_ofYaml? {s : String} {d : Document} (h : ofYaml? s = some d) :
    d.IsOrdered := by
  simp only [ofYaml?, Option.bind_eq_bind, Option.bind_eq_some_iff] at h
  obtain ⟨tokens, -, parts, -, stream, hstream, h⟩ := h
  have hstart : Yaml.Stream.IsOrdered {} := nofun
  have hordered := hstart.foldlM_add? hstream
  split at h
  · rename_i root hroot
    exact (hordered root hroot).document? h
  · split at h
    · cases h
    · cases h
      exact .null

end FaultInjection
