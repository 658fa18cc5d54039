import FaultInjection.Config.Schema
import FaultInjection.Proofs.Record
import Mathlib.Logic.Relation

/-!
# Configuration - What is not looked at

A form looks at the fields of a record under the keys that it knows, and a field that may be
missing may as well be null.  So a null where a field may be missing, and a field under a key that
is not known, can be added and taken away in any places of a document, and nothing is accepted,
read or reported in another way.

Main definitions:

- `Outline`, the keys that a form knows and which of them may be missing.
- `Outline.Adds`, a document with one more null or unknown field, and `Outline.SameView`, documents
  that differ in such fields only.
- `Schema.outline`, the outline of a rule document.

Main results:

- `Outline.partAdds_of_adds`: what an addition does to the field of a key that is known.
- `Schema.ignores_config`: the check of a whole document ignores additions.
- `Config.ofDocument_eq_of_sameView`: documents that differ in such fields only stand for the same
  configuration, or are refused for the same reasons.
-/

namespace FaultInjection

namespace Record

variable {α : Type}

/-- The value of a key in two records one after the other is that in the first of them that has
the key. -/
theorem get?_append (key : String) (first second : Record α) :
    get? key (first ++ second) = (get? key first).or (get? key second) := by
  induction first with
  | nil => rfl
  | cons field rest ih =>
      obtain ⟨k, v⟩ := field
      by_cases hk : k = key
      · simp [get?, hk]
      · simpa [get?, hk] using ih

/-- A field in the midst of a record changes no other key. -/
theorem get?_append_cons_of_ne {key other : String} (h : other ≠ key) (before after : Record α)
    (value : α) :
    get? key (before ++ (other, value) :: after) = get? key (before ++ after) := by
  simp [get?_append, get?, h]

end Record

/-! ## Outlines -/

/-- Whether a field of a record may be missing. -/
inductive Outline.Need where
  | optional
  | required
  deriving DecidableEq, Repr

/-- What a form knows of a document: that it is some value, a list of items, or a record with fields
under some keys. -/
inductive Outline where
  | value
  | list (items : Outline)
  | record (known : List (String × Outline.Need × Outline))

namespace Outline

/-- The second document is the first with one more field that a form does not look at. -/
inductive Adds : Outline → Document → Document → Prop
  /-- A null where a field may be missing. -/
  | null {known : List (String × Need × Outline)} {key : String} {inner : Outline}
      {before after : Record Document} (hknown : Record.get? key known = some (.optional, inner))
      (hmissing : key ∉ Record.keys (before ++ after)) :
      Adds (record known) (.record (before ++ after)) (.record (before ++ (key, .null) :: after))
  /-- Anything under a key that is not known. -/
  | unknown {known : List (String × Need × Outline)} {key : String} {before after : Record Document}
      (hunknown : Record.get? key known = none) (d : Document) :
      Adds (record known) (.record (before ++ after)) (.record (before ++ (key, d) :: after))
  /-- An addition within a field of a record. -/
  | field {known : List (String × Need × Outline)} {key : String} {need : Need} {inner : Outline}
      {before after : Record Document} {d d' : Document}
      (hknown : Record.get? key known = some (need, inner)) (h : Adds inner d d') :
      Adds (record known) (.record (before ++ (key, d) :: after))
        (.record (before ++ (key, d') :: after))
  /-- An addition within an item of a list. -/
  | item {inner : Outline} {before after : List Document} {d d' : Document} (h : Adds inner d d') :
      Adds (list inner) (.list (before ++ d :: after)) (.list (before ++ d' :: after))

/-- Documents that become the same by additions and their undoing, in any places. -/
def SameView (outline : Outline) : Document → Document → Prop := Relation.EqvGen outline.Adds

/-- What two documents have under a key that is known, when the second has one field more. -/
inductive PartAdds (need : Need) (inner : Outline) : Option Document → Option Document → Prop
  | same (part : Option Document) : PartAdds need inner part part
  | null (h : need = .optional) : PartAdds need inner none (some .null)
  | inside {d d' : Document} (h : inner.Adds d d') : PartAdds need inner (some d) (some d')

/-- What an addition does to the field of a key that is known. -/
theorem partAdds_of_adds {known : List (String × Need × Outline)} {fields fields' : Record Document}
    {key : String} {need : Need} {inner : Outline}
    (h : (record known).Adds (.record fields) (.record fields'))
    (hknown : Record.get? key known = some (need, inner)) :
    PartAdds need inner (Record.get? key fields) (Record.get? key fields') := by
  cases h with
  | null hoptional hmissing =>
      rename_i added _ before after
      by_cases hkey : added = key
      · subst hkey
        obtain ⟨rfl, rfl⟩ := Prod.mk.inj (Option.some.inj (hknown.symm.trans hoptional))
        have hnone := Record.get?_eq_none_iff.2 hmissing
        have hbefore : Record.get? added before = none := by
          rw [Record.get?_append, Option.or_eq_none_iff] at hnone
          exact hnone.1
        rw [hnone, Record.get?_append, hbefore]
        simpa [Record.get?] using PartAdds.null rfl
      · rw [Record.get?_append_cons_of_ne hkey]
        exact .same _
  | unknown hunknown d =>
      rename_i added before after
      have hkey : added ≠ key := by
        rintro rfl
        rw [hknown] at hunknown
        cases hunknown
      rw [Record.get?_append_cons_of_ne hkey]
      exact .same _
  | field hfield hadds =>
      rename_i changed _ _ before after d d'
      by_cases hkey : changed = key
      · subst hkey
        obtain ⟨rfl, rfl⟩ := Prod.mk.inj (Option.some.inj (hknown.symm.trans hfield))
        -- A field in front under the same key hides the one that is changed.
        cases hbefore : Record.get? changed before with
        | some hidden => simpa [Record.get?_append, hbefore] using PartAdds.same (some hidden)
        | none => simpa [Record.get?_append, hbefore, Record.get?] using PartAdds.inside hadds
      · rw [Record.get?_append_cons_of_ne hkey, Record.get?_append_cons_of_ne hkey]
        exact .same _

end Outline

/-! ## Checks that ignore additions -/

/-- A check finds nothing else where a field is added that is not looked at. -/
def Check.Ignores {α : Type} (check : Check α) (outline : Outline) : Prop :=
  ∀ {d d' : Document}, outline.Adds d d' → check (some d) = check (some d')

namespace Checked

open Outline (PartAdds Need)

variable {α : Type} {check : Check α}

/-- Nothing is added to a value that has no known parts. -/
theorem ignores_value (check : Check α) : check.Ignores .value := nofun

/-- A check of a list ignores what the check of its items does. -/
theorem Ignores.list {inner : Outline} (h : check.Ignores inner) :
    Check.Ignores (list check) (.list inner) := by
  have hitems (before after : List Document) {d d' : Document} (hadds : inner.Adds d d')
      (index : Nat) :
      items check index (before ++ d :: after) = items check index (before ++ d' :: after) := by
    induction before generalizing index with
    | nil => rw [List.nil_append, List.nil_append, items, items, h hadds]
    | cons first rest ih => rw [List.cons_append, List.cons_append, items, items, ih]
  intro d d' hadds
  cases hadds with
  | item hinner => exact congrArg all (hitems _ _ hinner 0)

/-- A check of a record ignores what it does not see in the fields of the known keys. -/
theorem Ignores.record {known : List (String × Need × Outline)}
    {check : List (String × Document) → Checked α}
    (h : ∀ fields fields' : Record Document,
      (∀ key need inner, Record.get? key known = some (need, inner) →
        PartAdds need inner (Record.get? key fields) (Record.get? key fields')) →
      check fields = check fields') :
    Check.Ignores (record check) (.record known) := by
  intro d d' hadds
  have hrecords : ∃ fields fields', d = .record fields ∧ d' = .record fields' := by
    cases hadds with
    | null => exact ⟨_, _, rfl, rfl⟩
    | unknown => exact ⟨_, _, rfl, rfl⟩
    | field => exact ⟨_, _, rfl, rfl⟩
  obtain ⟨fields, fields', rfl, rfl⟩ := hrecords
  exact h fields fields' fun key need inner => Outline.partAdds_of_adds hadds

/-- A field that may be missing may as well be null, and is otherwise checked like any other. -/
theorem field_optional_congr {inner : Outline} (h : check.Ignores inner)
    {fields fields' : Record Document} {key : String} {need : Need}
    (hpart : PartAdds need inner (Record.get? key fields) (Record.get? key fields')) :
    field fields key (optional check) = field fields' key (optional check) := by
  have hoptional : optional check (Record.get? key fields) =
      optional check (Record.get? key fields') := by
    generalize Record.get? key fields = part at hpart ⊢
    generalize Record.get? key fields' = part' at hpart ⊢
    cases hpart with
    | same => rfl
    | null => rfl
    | inside hadds =>
        have hcheck := h hadds
        cases hadds <;> exact congrArg (map some) hcheck
  rw [field, field, hoptional]

/-- A field that must be there is the same. -/
theorem field_required_congr {fields fields' : Record Document} {key : String}
    (hpart : PartAdds .required .value (Record.get? key fields) (Record.get? key fields')) :
    field fields key check = field fields' key check := by
  have hsame : Record.get? key fields = Record.get? key fields' := by
    generalize Record.get? key fields = part at hpart ⊢
    generalize Record.get? key fields' = part' at hpart ⊢
    cases hpart with
    | same => rfl
    | null h => cases h
    | inside hadds => cases hadds
  rw [field, field, hsame]

end Checked

/-! ## The outline of a rule document -/

namespace Schema

open Checked

/-- Fields that may be missing, each of them some value. -/
def optionalValues (keys : List String) : List (String × Outline.Need × Outline) :=
  keys.map fun key => (key, .optional, .value)

/-- The outline of a selector. -/
def selectorOutline : Outline :=
  .record (optionalValues ["port", "path", "method", "headers", "code", "response_headers"])

/-- The outline of additions. -/
def additionsOutline : Outline := .record (optionalValues ["queries", "headers"])

/-- The outline of replacements. -/
def replacementsOutline : Outline :=
  .record (optionalValues ["path", "method", "body", "code", "queries", "headers"])

/-- The outline of actions. -/
def actionsOutline : Outline :=
  .record (optionalValues ["abort", "delay"] ++
    [("append", .optional, additionsOutline), ("replace", .optional, replacementsOutline)])

/-- The outline of a rule. -/
def ruleOutline : Outline :=
  .record [("name", .optional, .value), ("target", .required, .value),
    ("selector", .optional, selectorOutline), ("actions", .optional, actionsOutline)]

/-- The outline of a rule document. -/
def outline : Outline :=
  .record (optionalValues ["listen_port", "proxy_ports"] ++
    [("rules", .optional, .list ruleOutline)])

/-- The check of a selector ignores additions. -/
theorem ignores_selector : Check.Ignores selector selectorOutline := by
  refine Ignores.record fun fields fields' hparts => ?_
  rw [field_optional_congr (ignores_value port) (hparts "port" _ _ rfl),
    field_optional_congr (ignores_value selectorPath) (hparts "path" _ _ rfl),
    field_optional_congr (ignores_value method) (hparts "method" _ _ rfl),
    field_optional_congr (ignores_value headers) (hparts "headers" _ _ rfl),
    field_optional_congr (ignores_value status) (hparts "code" _ _ rfl),
    field_optional_congr (ignores_value headers) (hparts "response_headers" _ _ rfl)]

/-- The check of additions ignores other additions. -/
theorem ignores_additions : Check.Ignores additions additionsOutline := by
  refine Ignores.record fun fields fields' hparts => ?_
  rw [field_optional_congr (ignores_value text) (hparts "queries" _ _ rfl),
    field_optional_congr (ignores_value headers) (hparts "headers" _ _ rfl)]

/-- The check of replacements ignores additions. -/
theorem ignores_replacements : Check.Ignores replacements replacementsOutline := by
  refine Ignores.record fun fields fields' hparts => ?_
  rw [field_optional_congr (ignores_value text) (hparts "path" _ _ rfl),
    field_optional_congr (ignores_value method) (hparts "method" _ _ rfl),
    field_optional_congr (ignores_value text) (hparts "body" _ _ rfl),
    field_optional_congr (ignores_value status) (hparts "code" _ _ rfl),
    field_optional_congr (ignores_value parameters) (hparts "queries" _ _ rfl),
    field_optional_congr (ignores_value headers) (hparts "headers" _ _ rfl)]

/-- The check of actions ignores additions. -/
theorem ignores_actions : Check.Ignores actions actionsOutline := by
  refine Ignores.record fun fields fields' hparts => ?_
  rw [field_optional_congr (ignores_value boolean) (hparts "abort" _ _ rfl),
    field_optional_congr (ignores_value duration) (hparts "delay" _ _ rfl),
    field_optional_congr ignores_additions (hparts "append" _ _ rfl),
    field_optional_congr ignores_replacements (hparts "replace" _ _ rfl)]

/-- The check of a rule ignores additions. -/
theorem ignores_rule : Check.Ignores rule ruleOutline := by
  refine Ignores.record fun fields fields' hparts => ?_
  rw [field_optional_congr (ignores_value name) (hparts "name" _ _ rfl),
    field_required_congr (hparts "target" _ _ rfl),
    field_optional_congr ignores_selector (hparts "selector" _ _ rfl),
    field_optional_congr ignores_actions (hparts "actions" _ _ rfl)]

/-- The check of a whole document ignores additions. -/
theorem ignores_config : Check.Ignores config outline := by
  refine Ignores.record fun fields fields' hparts => ?_
  rw [field_optional_congr (ignores_value port) (hparts "listen_port" _ _ rfl),
    field_optional_congr (ignores_value (list port)) (hparts "proxy_ports" _ _ rfl),
    field_optional_congr (Ignores.list ignores_rule) (hparts "rules" _ _ rfl)]

end Schema

/-! ## Documents that look alike -/

/-- Documents that differ only in nulls where a field may be missing, and in fields under keys that
are not known, stand for the same configuration or are refused for the same reasons. -/
theorem Config.ofDocument_eq_of_sameView {d d' : Document} (h : Schema.outline.SameView d d')
    (file : Option String) : ofDocument (some d) file = ofDocument (some d') file := by
  induction h with
  | rel d d' hadds => rw [ofDocument, ofDocument, Schema.ignores_config hadds]
  | refl d => rfl
  | symm d d' _ ih => exact ih.symm
  | trans d d' d'' _ _ ih ih' => exact ih.trans ih'

/-- A rule document that holds one rule and some fields in front. -/
def Document.ofRuleBehind (before : Record Document) (rule : Document) : Document :=
  .record (before ++ [("rules", .list [rule])])

/-- A rule for requests that appends, with some fields in front. -/
def Document.appending (before additions : Record Document) : Document :=
  .record (before ++
    [("target", .text "Request"), ("actions", .record [("append", .record additions)])])

/-- A null for a name and a field that is not known are taken away, and a null is added within the
actions. -/
theorem Config.ofDocument_eq_of_sameView_several :
    let marked : Document := .ofRuleBehind [("proxy_mark", .number 1)]
      (.appending [("name", .null)] [("queries", .text "a=b")])
    let other : Document := .ofRuleBehind []
      (.appending [] [("queries", .text "a=b"), ("headers", .null)])
    Schema.outline.SameView marked other ∧
      ofDocument (some marked) none = ofDocument (some other) none := by
  intro marked other
  let query : Record Document := [("queries", .text "a=b")]
  have hmark : Schema.outline.Adds (.ofRuleBehind [] (.appending [("name", .null)] query)) marked :=
    @Outline.Adds.unknown _ "proxy_mark" [] _ rfl (.number 1)
  have hname : Schema.outline.Adds (.ofRuleBehind [] (.appending [] query))
      (.ofRuleBehind [] (.appending [("name", .null)] query)) := by
    have hrule : Schema.ruleOutline.Adds (.appending [] query)
        (.appending [("name", .null)] query) :=
      @Outline.Adds.null _ "name" _ [] _ rfl (by decide)
    exact @Outline.Adds.field _ "rules" _ _ [] [] _ _ rfl (@Outline.Adds.item _ [] [] _ _ hrule)
  have hheaders : Schema.outline.Adds (.ofRuleBehind [] (.appending [] query)) other := by
    have hadditions : Schema.additionsOutline.Adds (.record query)
        (.record [("queries", .text "a=b"), ("headers", .null)]) :=
      @Outline.Adds.null _ "headers" _ query [] rfl (by decide)
    have hactions : Schema.actionsOutline.Adds (.record [("append", .record query)]) _ :=
      @Outline.Adds.field _ "append" _ _ [] [] _ _ rfl hadditions
    have hrule : Schema.ruleOutline.Adds (.appending [] query) _ :=
      @Outline.Adds.field _ "actions" _ _ [("target", .text "Request")] [] _ _ rfl hactions
    exact @Outline.Adds.field _ "rules" _ _ [] [] _ _ rfl (@Outline.Adds.item _ [] [] _ _ hrule)
  have hview : Schema.outline.SameView marked other :=
    .trans _ _ _ (.symm _ _ (.rel _ _ hmark))
      (.trans _ _ _ (.symm _ _ (.rel _ _ hname)) (.rel _ _ hheaders))
  exact ⟨hview, ofDocument_eq_of_sameView hview none⟩

end FaultInjection
