import FaultInjection.Proofs.Config.Validity
import FaultInjection.Proofs.Document.Yaml.KeyOrder
import FaultInjection.Proofs.Rule.Description
import Mathlib.Control.Monad.Basic

/-!
# Configuration - What a listing of rules shows

A listing describes each rule of a configuration.  The body of a rule was written as a text, and
its parameters as a record: so a description shows all of a rule that comes from a document,
and no two rules look alike, be they from one document or from two.

Main results:

- `Schema.isShown_of_config`: all of the rules of a document is shown.
- `Config.description_inj`: rules of documents are told by their descriptions.
- `Config.isOrdered_of_decode`: the text of a file stands for a document in key order.
- `Config.eq_of_load_of_description_eq`: so rules of files are told by their descriptions too.
-/

namespace FaultInjection

namespace Schema

open Checked

/-! ## Parts of rules -/

/-- What holds of every document in key order that is accepted holds of an optional field of a
record in key order. -/
theorem forall_of_optional_field {α : Type} {check : Check α} {P : α → Prop}
    (hcheck : ∀ d a, d.IsOrdered → check (some d) = accepted a → P a) {fields : Record Document}
    (hfields : (Document.record fields).IsOrdered) {key : String} {value : Option α}
    (h : optional check (Record.get? key fields) = accepted value) : ∀ a ∈ value, P a := by
  intro a ha
  rcases cases_of_optional h with ⟨-, rfl⟩ | ⟨d, b, hd, hb, rfl⟩
  · cases ha
  · obtain rfl := Option.some.inj ha
    exact hcheck d b (hfields.of_get? hd) hb

/-- Parameters are in key order when their document is. -/
theorem isOrdered_of_parameters {d : Document} {p : Parameters} (hd : d.IsOrdered)
    (h : parameters (some d) = accepted p) : Record.IsOrdered p := by
  obtain ⟨fields, hfields, hentries⟩ := record_eq_accepted_iff.1 h
  obtain rfl := Option.some.inj hfields
  have hkey : ∀ k k' : String, accepted k = accepted k' → k' = k := by
    intro k k' hsame
    exact (Checked.accepted.inj hsame).symm
  have hvalue : ∀ d s, text (some d) = accepted s → s = d.text?.getD "" := by
    intro d s htext
    obtain rfl := Option.some.inj (text_eq_accepted_iff.1 htext)
    rfl
  have hordered := (Document.isOrdered_record_iff.1 hd).1
  rw [eq_of_entries hkey hvalue hentries]
  apply (Record.isOrdered_map_iff fun d : Document => d.text?.getD "").2
  exact hordered.sublist List.filter_sublist

/-- All of the replacements that a document stands for is shown. -/
theorem isShown_of_replacements {d : Document} {r : Replacements} (hd : d.IsOrdered)
    (h : replacements (some d) = accepted r) : r.IsShown := by
  obtain ⟨fields, hfields, path, verb, body, code, queries, pairs, -, -, -, -, hqueries, -, rfl⟩ :=
    replacements_eq_accepted_iff.1 h
  obtain rfl := Option.some.inj hfields
  constructor
  · intro bytes hbytes
    obtain ⟨s, -, rfl⟩ := Option.map_eq_some_iff.1 hbytes
    exact ⟨s, rfl⟩
  · exact forall_of_optional_field (fun _ _ => isOrdered_of_parameters) hd hqueries

/-- All of the replacements among the actions that a document stands for is shown. -/
theorem isShown_of_actions {d : Document} {a : Actions} (hd : d.IsOrdered)
    (h : actions (some d) = accepted a) : ∀ r ∈ a.replace, r.IsShown := by
  obtain ⟨fields, hfields, abort, delay, append, replace, -, -, -, hreplace, rfl⟩ :=
    actions_eq_accepted_iff.1 h
  obtain rfl := Option.some.inj hfields
  exact forall_of_optional_field (fun _ _ => isShown_of_replacements) hd hreplace

/-! ## Rules -/

/-- All of a rule that is read from a document is shown. -/
theorem isShown_of_isReadFrom {rule : Rule} {index : Nat} {d : Document} (hd : d.IsOrdered)
    (h : rule.IsReadFrom index d) : rule.IsShown := by
  obtain ⟨draft, hdraft, rfl⟩ := h.read
  obtain ⟨fields, hfields, given, applies, selected, done, -, -, -, hdone, rfl⟩ :=
    rule_eq_accepted_iff.1 hdraft
  obtain rfl := Option.some.inj hfields
  have hgiven : ∀ a ∈ done, ∀ r ∈ a.replace, r.IsShown :=
    forall_of_optional_field (fun _ _ => isShown_of_actions) hd hdone
  intro r hr
  cases done with
  | none => cases hr
  | some a => exact hgiven a rfl r hr

/-- The documents of the rules of a document are in key order when it is. -/
theorem isOrdered_of_mem_rules {document d : Document} (h : document.IsOrdered)
    (hd : d ∈ Document.rules (some document)) : d.IsOrdered := by
  cases document with
  | record fields =>
      unfold Document.rules at hd
      split at hd
      · rename_i documents hdocuments
        have hlist : (Document.list documents).IsOrdered := h.of_get? hdocuments
        exact Document.isOrdered_list_iff.1 hlist d hd
      · cases hd
  | _ => cases hd

/-- All of the rules that a document stands for is shown. -/
theorem isShown_of_config {document : Document} {c : Config} (hordered : document.IsOrdered)
    (h : config (some document) = accepted c) : ∀ rule ∈ c.rules, rule.IsShown := by
  intro rule hrule
  have hrules := hasRulesOf_of_config h
  obtain ⟨index, hindex, hat⟩ := List.getElem_of_mem hrule
  have hdocument : index < (Document.rules (some document)).length := hrules.length_eq ▸ hindex
  have hread := hrules.isReadFrom index rule _ (List.getElem?_eq_some_iff.2 ⟨hindex, hat⟩)
    (List.getElem?_eq_getElem hdocument)
  exact isShown_of_isReadFrom (isOrdered_of_mem_rules hordered (List.getElem_mem hdocument)) hread

end Schema

namespace Config

/-! ## Documents -/

/-- Two rules of documents, be they two or one, have the same description exactly when they are the
same.  As in any decoded value, all records of the documents are in key order. -/
theorem description_inj {document document' : Document} {file file' : Option String}
    {config config' : Config} {rule rule' : Rule} (hordered : document.IsOrdered)
    (hordered' : document'.IsOrdered) (hconfig : ofDocument (some document) file = .ok config)
    (hconfig' : ofDocument (some document') file' = .ok config') (hrule : rule ∈ config.rules)
    (hrule' : rule' ∈ config'.rules) : rule.description = rule'.description ↔ rule = rule' := by
  have hshown : rule.IsShown :=
    Schema.isShown_of_config hordered (Schema.ofDocument_eq_ok_iff.1 hconfig) rule hrule
  have hshown' : rule'.IsShown :=
    Schema.isShown_of_config hordered' (Schema.ofDocument_eq_ok_iff.1 hconfig') rule' hrule'
  constructor
  · exact Rule.eq_of_description_eq hshown hshown'
  · rintro rfl
    rfl

/-- Two rules that differ only in that one of them appends nothing, and the other has no additions
at all, have different descriptions. -/
theorem description_inj_emptyAdditions :
    let replaced : Document := .record [("body", .text "é"),
      ("queries", .record [("2", .text "y"), ("b", .text "x")])]
    let document : Document := .record [("rules", .list [.record [
      ("target", .text "Request"),
      ("actions", .record [("append", .record []), ("replace", replaced)])]])]
    let document' : Document := .record [("rules", .list [.record [
      ("name", .text "rule-0"), ("target", .text "request"),
      ("actions", .record [("append", .null), ("replace", replaced)])]])]
    let replace : Replacements :=
      { body := some [0xc3, 0xa9], parameters := some [("2", "y"), ("b", "x")] }
    let rule : Rule := ⟨"rule-0", .request, {}, { append := some {}, replace := some replace }⟩
    let rule' : Rule := ⟨"rule-0", .request, {}, { replace := some replace }⟩
    document.IsOrdered ∧ document'.IsOrdered ∧
      ofDocument (some document) none = .ok ⟨defaultListenPort, [], [rule]⟩ ∧
      ofDocument (some document') none = .ok ⟨defaultListenPort, [], [rule']⟩ ∧
      rule.description ≠ rule'.description := by
  intro replaced document document' replace rule rule'
  have hordered : document.IsOrdered := by decide +kernel
  have hordered' : document'.IsOrdered := by decide +kernel
  have hconfig : ofDocument (some document) none = .ok ⟨defaultListenPort, [], [rule]⟩ := by
    decide +kernel
  have hconfig' : ofDocument (some document') none = .ok ⟨defaultListenPort, [], [rule']⟩ := by
    decide +kernel
  refine ⟨hordered, hordered', hconfig, hconfig', ?_⟩
  intro hsame
  have hrules : rule = rule' :=
    (description_inj hordered hordered' hconfig hconfig' List.mem_cons_self List.mem_cons_self).1
      hsame
  exact absurd hrules (by decide)

/-! ## Files -/

/-- The text of a file stands for a document in key order, whatever its notation. -/
theorem isOrdered_of_decode {extension content : String} {document : Document}
    (h : decode extension content = .ok document) : document.IsOrdered := by
  unfold decode at h
  split at h
  · cases h
  · rename_i format hformat
    split at h
    · rename_i read hread
      cases h
      cases format with
      | json => exact Document.isOrdered_of_ofJson? hread
      | yaml => exact Document.isOrdered_of_ofYaml? hread
    · cases h

/-- All of the rules of a file is shown. -/
theorem isShown_of_load {files : Files} {path : String} {config : Config}
    (h : load files path = .ok config) : ∀ rule ∈ config.rules, rule.IsShown := by
  obtain ⟨extension, content, document, hdecode, hdocument⟩ := exists_of_load h
  exact Schema.isShown_of_config (isOrdered_of_decode hdecode)
    (Schema.ofDocument_eq_ok_iff.1 hdocument)

/-- Rules of files, be they two or one, are told by their descriptions, whatever the notations. -/
theorem eq_of_load_of_description_eq {files files' : Files} {path path' : String}
    {config config' : Config} {rule rule' : Rule} (hload : load files path = .ok config)
    (hload' : load files' path' = .ok config') (hrule : rule ∈ config.rules)
    (hrule' : rule' ∈ config'.rules) (hsame : rule.description = rule'.description) :
    rule = rule' :=
  Rule.eq_of_description_eq (isShown_of_load hload rule hrule) (isShown_of_load hload' rule' hrule')
    hsame

end Config

end FaultInjection
