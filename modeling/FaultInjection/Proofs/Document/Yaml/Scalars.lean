import FaultInjection.Document.Yaml.Node.Reading
import FaultInjection.Proofs.Document.KeyOrder

/-!
# YAML - Scalars in nodes

A node is read from a layout from the inside out, and only texts become scalars: each stands
for null, a truth value, a number or a text, with a tag or without.

Main definitions:

- `Yaml.Node.IsOrdered`, a node whose scalars have values in key order.

Main results:

- `Yaml.Layout.induction`: what holds of a layout when it holds of those within it.
- `Yaml.Node.readsOrdered`: the scalars of a node that is read.
-/

namespace FaultInjection

namespace Yaml

/-! ## Scalars -/

/-- The value of a plain scalar has no records. -/
theorem isOrdered_resolve (s : String) : (resolve s).IsOrdered := by
  unfold resolve
  split
  · exact .null
  · split
    · exact .boolean _
    · split
      · exact .number _
      · exact .text s

/-- The value of a scalar with a tag has no records. -/
theorem isOrdered_tagged (tag s : String) : (tagged tag s).IsOrdered := by
  have hbroken : ∀ value : Option Number,
      ((value.map Document.number).getD (.text s)).IsOrdered := by
    intro value
    cases value with
    | none => exact .text s
    | some n => exact .number n
  unfold tagged
  split
  · exact .null
  · dsimp only
    split
    · cases truth? s with
      | none => exact .text s
      | some b => exact .boolean b
    · split
      · exact hbroken _
      · split
        · exact hbroken _
        · exact .text s

namespace Node

/-- All scalars of a node have values in key order. -/
inductive IsOrdered {α : Type} : Node α → Prop
  | scalar {s : Scalar} (hvalue : s.value.IsOrdered) : IsOrdered (.scalar s)
  | list {items : List (Node α)} (hitems : ∀ item ∈ items, IsOrdered item) :
      IsOrdered (.list items)
  | mapping {pairs : List (Node α × Option (Node α))}
      (hkeys : ∀ pair ∈ pairs, IsOrdered pair.1)
      (hvalues : ∀ pair ∈ pairs, ∀ value ∈ pair.2, IsOrdered value) : IsOrdered (.mapping pairs)
  | reference (name : α) : IsOrdered (.reference name)
  | anchored (name : α) {node : Node α} (hnode : IsOrdered node) : IsOrdered (.anchored name node)

variable {handles : Handles} {props : Properties} {node : Node String}

/-- A node under an anchor has the scalars that it has without. -/
theorem isOrdered_of_named? {inner : Node String} (hinner : inner.IsOrdered)
    (h : named? props inner = some node) : node.IsOrdered := by
  unfold named? at h
  split at h
  · obtain rfl := Option.some.inj h
    exact hinner
  · split at h
    · cases h
    · obtain rfl := Option.some.inj h
      exact .anchored _ hinner

/-- The scalar of a text stands for a value in key order. -/
theorem isOrdered_of_ofText? {style : Style} {text : List Char}
    (h : ofText? handles props style text = some node) : node.IsOrdered := by
  unfold ofText? at h
  dsimp only at h
  split at h
  · simp only [Option.bind_eq_bind, Option.bind_eq_some_iff, Option.pure_def] at h
    obtain ⟨tag, -, value, hvalue, hnamed⟩ := h
    cases hvalue
    exact isOrdered_of_named? (.scalar (isOrdered_tagged _ _)) hnamed
  · simp only [Option.bind_eq_bind, Option.bind_some] at h
    refine isOrdered_of_named? (.scalar ?_) h
    dsimp only
    split
    · exact isOrdered_resolve _
    · exact .text _

/-- A reference has no scalars. -/
theorem isOrdered_of_ofReference? {source : List Char}
    (h : ofReference? props source = some node) : node.IsOrdered := by
  unfold ofReference? at h
  split at h
  · cases h
  · split at h
    · cases h
    · obtain rfl := Option.some.inj h
      exact .reference _

/-- The scalar or reference that a token is. -/
theorem isOrdered_of_ofScalar? {kind : Kind} {source : List Char}
    (h : ofScalar? handles props kind source = some node) : node.IsOrdered := by
  unfold ofScalar? at h
  split at h
  · exact isOrdered_of_ofReference? h
  all_goals
    obtain ⟨text, -, htext⟩ := Option.bind_eq_some_iff.1 h
    exact isOrdered_of_ofText? htext

end Node

/-! ## Layouts -/

/-- A layout is a key or value of an entry. -/
def Entry.Holds (entry : Entry Layout) (layout : Layout) : Prop :=
  layout ∈ entry.key ∨ layout ∈ entry.value

/-- What an entry of some entries holds is smaller than these. -/
theorem Entry.Holds.sizeOf_lt {entry : Entry Layout} {layout : Layout} (h : entry.Holds layout)
    {entries : List (Entry Layout)} (hentry : entry ∈ entries) :
    sizeOf layout < sizeOf entries := by
  have hlayout : sizeOf layout < sizeOf entry := by
    obtain ⟨start, explicit, key, sep, value⟩ := entry
    rcases h with hkey | hvalue
    · cases hkey
      simp
      omega
    · cases hvalue
      simp
      omega
  exact Nat.lt_trans hlayout (List.sizeOf_lt_of_mem hentry)

/-- What holds of a layout when it holds of all that its entries hold, holds of any. -/
theorem Layout.induction {P : Layout → Prop}
    (scalar : ∀ kind offset indent source tail, P (.scalar kind offset indent source tail))
    (text : ∀ offset indent header source, P (.text offset indent header source))
    (mapping : ∀ offset indent entries,
      (∀ entry ∈ entries, ∀ layout, entry.Holds layout → P layout) →
      P (.mapping offset indent entries))
    (list : ∀ offset indent entries,
      (∀ entry ∈ entries, ∀ layout, entry.Holds layout → P layout) →
      P (.list offset indent entries))
    (flow : ∀ offset indent opening entries tail,
      (∀ entry ∈ entries, ∀ layout, entry.Holds layout → P layout) →
      P (.flow offset indent opening entries tail)) (layout : Layout) : P layout := by
  have hbelow : ∀ (size : Nat) (layout : Layout), sizeOf layout < size → P layout := by
    intro size
    induction size with
    | zero =>
        intro layout hlayout
        exact absurd hlayout (Nat.not_lt_zero _)
    | succ size ih =>
        intro layout hlayout
        have hentries : ∀ entries : List (Entry Layout), sizeOf entries < sizeOf layout →
            ∀ entry ∈ entries, ∀ inner, entry.Holds inner → P inner := by
          intro entries hsize entry hentry inner hinner
          have hlt := hinner.sizeOf_lt hentry
          exact ih inner (by omega)
        cases layout with
        | scalar kind offset indent source tail => exact scalar kind offset indent source tail
        | text offset indent header source => exact text offset indent header source
        | mapping offset indent entries =>
            have hsize : sizeOf entries < sizeOf (Layout.mapping offset indent entries) := by
              rw [Layout.mapping.sizeOf_spec]
              omega
            exact mapping offset indent entries (hentries entries hsize)
        | list offset indent entries =>
            have hsize : sizeOf entries < sizeOf (Layout.list offset indent entries) := by
              rw [Layout.list.sizeOf_spec]
              omega
            exact list offset indent entries (hentries entries hsize)
        | flow offset indent opening entries tail =>
            have hsize :
                sizeOf entries < sizeOf (Layout.flow offset indent opening entries tail) := by
              rw [Layout.flow.sizeOf_spec]
              omega
            exact flow offset indent opening entries tail (hentries entries hsize)
  exact hbelow (sizeOf layout + 1) layout (Nat.lt_succ_self _)

/-! ## Nodes -/

namespace Node

/-- What is read of a layout has scalars in key order, whatever properties stand before it. -/
def ReadsOrdered (handles : Handles) (layout : Layout) : Prop :=
  ∀ root props node, ofLayout? handles root props layout = some node → node.IsOrdered

/-- The keys and values of pairs have scalars in key order. -/
def AreOrdered {α : Type} (pairs : List (Node α × Option (Node α))) : Prop :=
  ∀ pair ∈ pairs, pair.1.IsOrdered ∧ ∀ value ∈ pair.2, value.IsOrdered

/-- A mapping has the scalars of its pairs. -/
theorem isOrdered_mapping {α : Type} {pairs : List (Node α × Option (Node α))}
    (h : AreOrdered pairs) : IsOrdered (.mapping pairs) :=
  .mapping (fun pair hpair => (h pair hpair).1) fun pair hpair => (h pair hpair).2

/-- Pairs with one more, whose value is missing. -/
theorem AreOrdered.cons_none {α : Type} {key : Node α} {pairs : List (Node α × Option (Node α))}
    (h : AreOrdered pairs) (hkey : key.IsOrdered) : AreOrdered ((key, none) :: pairs) :=
  List.forall_mem_cons.2 ⟨⟨hkey, nofun⟩, h⟩

/-- Pairs with one more, which has a value. -/
theorem AreOrdered.cons_some {α : Type} {key value : Node α}
    {pairs : List (Node α × Option (Node α))} (h : AreOrdered pairs) (hkey : key.IsOrdered)
    (hvalue : value.IsOrdered) : AreOrdered ((key, some value) :: pairs) := by
  refine List.forall_mem_cons.2 ⟨⟨hkey, ?_⟩, h⟩
  intro other hother
  obtain rfl := Option.some.inj hother
  exact hvalue

/-- There are no pairs to look at. -/
theorem areOrdered_nil {α : Type} : AreOrdered ([] : List (Node α × Option (Node α))) :=
  List.forall_mem_nil _

variable {handles : Handles} {props : Properties} {node : Node String} {indent : Nat}
  {entries : List (Entry Layout)}

/-- A key or value that may be missing. -/
theorem isOrdered_of_ofPart? {part : Option Layout}
    (hpart : ∀ layout ∈ part, ReadsOrdered handles layout)
    (h : ofPart? handles props part = some node) : node.IsOrdered := by
  cases part with
  | none => exact isOrdered_of_ofText? h
  | some layout => exact hpart layout rfl false props node h

/-- A key or value within brackets. -/
theorem isOrdered_of_ofFlowPart? {part : Option Layout}
    (hpart : ∀ layout ∈ part, ReadsOrdered handles layout)
    (h : ofFlowPart? handles props part = some node) : node.IsOrdered := by
  cases part with
  | none => exact isOrdered_of_ofText? h
  | some layout =>
      rw [ofFlowPart?] at h
      split at h
      · cases h
      · exact hpart layout rfl false props node h

/-- The pairs of a mapping laid out by indentation. -/
theorem areOrdered_of_pairs?
    (hentries : ∀ entry ∈ entries, ∀ layout, entry.Holds layout → ReadsOrdered handles layout)
    {pairs : Pairs} {blank : Bool} (h : pairs? handles indent entries = some (pairs, blank)) :
    AreOrdered pairs := by
  induction entries generalizing pairs blank with
  | nil =>
      cases h
      exact areOrdered_nil
  | cons entry older ih =>
      obtain ⟨start, explicit, key, sep, value⟩ := entry
      obtain ⟨hentry, hrest⟩ := List.forall_mem_cons.1 hentries
      simp only [pairs?, Option.bind_eq_bind, Option.bind_eq_some_iff] at h
      obtain ⟨⟨others, last⟩, hothers, keyProps, -, h⟩ := h
      have hordered := ih hrest hothers
      split at h
      · cases h
      split at h
      · cases h
        exact hordered
      split at h
      · cases h
      obtain ⟨keyNode, hkeyNode, h⟩ := Option.bind_eq_some_iff.1 h
      have hkey :=
        isOrdered_of_ofPart? (fun layout hlayout => hentry layout (.inl hlayout)) hkeyNode
      split at h
      · cases h
      obtain ⟨valueProps, -, h⟩ := Option.bind_eq_some_iff.1 h
      split at h
      · cases h
      split at h
      · cases h
        exact hordered.cons_none hkey
      obtain ⟨valueNode, hvalueNode, h⟩ := Option.bind_eq_some_iff.1 h
      cases h
      exact hordered.cons_some hkey
        (isOrdered_of_ofPart? (fun layout hlayout => hentry layout (.inr hlayout)) hvalueNode)

/-- The items of a list laid out by indentation. -/
theorem forall_isOrdered_of_items?
    (hentries : ∀ entry ∈ entries, ∀ layout, entry.Holds layout → ReadsOrdered handles layout)
    {items : List (Node String)} (h : items? handles indent entries = some items) :
    ∀ item ∈ items, item.IsOrdered := by
  induction entries generalizing items with
  | nil =>
      cases h
      exact List.forall_mem_nil _
  | cons entry older ih =>
      obtain ⟨start, explicit, key, sep, value⟩ := entry
      obtain ⟨hentry, hrest⟩ := List.forall_mem_cons.1 hentries
      simp only [items?, Option.bind_eq_bind, Option.bind_eq_some_iff] at h
      obtain ⟨others, hothers, props, -, h⟩ := h
      have hordered := ih hrest hothers
      split at h
      · split at h
        · cases h
        · cases h
          exact hordered
      obtain ⟨item, hitem, h⟩ := Option.bind_eq_some_iff.1 h
      cases h
      exact List.forall_mem_cons.2
        ⟨isOrdered_of_ofPart? (fun layout hlayout => hentry layout (.inr hlayout)) hitem, hordered⟩

/-- The pairs of a mapping in braces. -/
theorem areOrdered_of_flowPairs? {last : Bool}
    (hentries : ∀ entry ∈ entries, ∀ layout, entry.Holds layout → ReadsOrdered handles layout)
    {pairs : Pairs} (h : flowPairs? handles indent last entries = some pairs) :
    AreOrdered pairs := by
  induction entries generalizing pairs last with
  | nil =>
      cases h
      exact areOrdered_nil
  | cons entry older ih =>
      obtain ⟨start, explicit, key, sep, value⟩ := entry
      obtain ⟨hentry, hrest⟩ := List.forall_mem_cons.1 hentries
      simp only [flowPairs?, Option.bind_eq_bind, Option.bind_eq_some_iff] at h
      obtain ⟨others, hothers, keyProps, -, h⟩ := h
      have hordered := ih hrest hothers
      split at h
      · split at h
        · cases h
        · cases h
          exact hordered
      split at h
      · cases h
      obtain ⟨keyNode, hkeyNode, h⟩ := Option.bind_eq_some_iff.1 h
      have hkey :=
        isOrdered_of_ofFlowPart? (fun layout hlayout => hentry layout (.inl hlayout)) hkeyNode
      obtain ⟨valueProps, -, h⟩ := Option.bind_eq_some_iff.1 h
      split at h
      · cases h
      split at h
      · split at h
        · cases h
        · cases h
          exact hordered.cons_none hkey
      obtain ⟨valueNode, hvalueNode, h⟩ := Option.bind_eq_some_iff.1 h
      cases h
      exact hordered.cons_some hkey
        (isOrdered_of_ofFlowPart? (fun layout hlayout => hentry layout (.inr hlayout)) hvalueNode)

/-- The items of a list in brackets, some of which are mappings of one pair. -/
theorem forall_isOrdered_of_flowItems? {last : Bool}
    (hentries : ∀ entry ∈ entries, ∀ layout, entry.Holds layout → ReadsOrdered handles layout)
    {items : List (Node String)} (h : flowItems? handles indent last entries = some items) :
    ∀ item ∈ items, item.IsOrdered := by
  induction entries generalizing items last with
  | nil =>
      cases h
      exact List.forall_mem_nil _
  | cons entry older ih =>
      obtain ⟨start, explicit, key, sep, value⟩ := entry
      obtain ⟨hentry, hrest⟩ := List.forall_mem_cons.1 hentries
      simp only [flowItems?, Option.bind_eq_bind, Option.bind_eq_some_iff] at h
      obtain ⟨others, hothers, keyProps, -, h⟩ := h
      have hordered := ih hrest hothers
      have hpart : ∀ {props node}, ofFlowPart? handles props value = some node → node.IsOrdered :=
        isOrdered_of_ofFlowPart? fun layout hlayout => hentry layout (.inr hlayout)
      split at h
      · split at h
        · cases h
        · cases h
          exact hordered
      split at h
      · cases h
      split at h
      · obtain ⟨item, hitem, h⟩ := Option.bind_eq_some_iff.1 h
        cases h
        exact List.forall_mem_cons.2 ⟨hpart hitem, hordered⟩
      obtain ⟨keyNode, hkeyNode, h⟩ := Option.bind_eq_some_iff.1 h
      have hkey :=
        isOrdered_of_ofFlowPart? (fun layout hlayout => hentry layout (.inl hlayout)) hkeyNode
      obtain ⟨valueProps, -, h⟩ := Option.bind_eq_some_iff.1 h
      split at h
      · split at h
        · cases h
        · cases h
          exact List.forall_mem_cons.2 ⟨isOrdered_mapping (areOrdered_nil.cons_none hkey), hordered⟩
      split at h
      · cases h
      obtain ⟨valueNode, hvalueNode, h⟩ := Option.bind_eq_some_iff.1 h
      cases h
      have hpair := areOrdered_nil.cons_some hkey (hpart hvalueNode)
      exact List.forall_mem_cons.2 ⟨isOrdered_mapping hpair, hordered⟩

/-- The scalars of a node that is read have values in key order. -/
theorem readsOrdered (handles : Handles) (layout : Layout) : ReadsOrdered handles layout := by
  induction layout using Layout.induction with
  | scalar kind offset indent source tail =>
      intro root props node h
      rw [ofLayout?] at h
      split at h
      · exact isOrdered_of_ofScalar? h
      · cases h
  | text offset indent header source =>
      intro root props node h
      simp only [ofLayout?, Option.bind_eq_bind, Option.bind_eq_some_iff] at h
      obtain ⟨read, -, text, -, h⟩ := h
      exact isOrdered_of_ofText? h
  | mapping offset indent entries ih =>
      intro root props node h
      simp only [ofLayout?, Option.bind_eq_bind, Option.bind_eq_some_iff] at h
      obtain ⟨⟨pairs, blank⟩, hpairs, h⟩ := h
      split at h
      · refine isOrdered_of_named? (isOrdered_mapping ?_) h
        intro pair hpair
        exact areOrdered_of_pairs? ih hpairs pair (List.mem_reverse.1 hpair)
      · cases h
  | list offset indent entries ih =>
      intro root props node h
      simp only [ofLayout?, Option.bind_eq_bind, Option.bind_eq_some_iff] at h
      obtain ⟨items, hitems, h⟩ := h
      split at h
      · refine isOrdered_of_named? (.list ?_) h
        intro item hitem
        exact forall_isOrdered_of_items? ih hitems item (List.mem_reverse.1 hitem)
      · cases h
  | flow offset indent opening entries tail ih =>
      intro root props node h
      cases tail with
      | nil => cases h
      | cons closing tail =>
          simp only [ofLayout?, Option.bind_eq_bind] at h
          split at h
          · obtain ⟨pairs, hpairs, h⟩ := Option.bind_eq_some_iff.1 h
            split at h
            · refine isOrdered_of_named? (isOrdered_mapping ?_) h
              intro pair hpair
              exact areOrdered_of_flowPairs? ih hpairs pair (List.mem_reverse.1 hpair)
            · cases h
          · obtain ⟨items, hitems, h⟩ := Option.bind_eq_some_iff.1 h
            split at h
            · refine isOrdered_of_named? (.list ?_) h
              intro item hitem
              exact forall_isOrdered_of_flowItems? ih hitems item (List.mem_reverse.1 hitem)
            · cases h

end Node

end Yaml

end FaultInjection
