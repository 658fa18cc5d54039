import FaultInjection.Config.Schema
import FaultInjection.Proofs.Config.Checked

/-!
# Configuration - What a rule document stands for

A rule document is accepted where each field of each of its records is, and it stands for
what the fields stand for.  Rules keep their order, and only their names depend on their
positions.

Main results:

- `Schema.config_eq_accepted_iff`, `Schema.rule_eq_accepted_iff`,
  `Schema.selector_eq_accepted_iff`, `Schema.actions_eq_accepted_iff`,
  `Schema.additions_eq_accepted_iff` and `Schema.replacements_eq_accepted_iff`: the records of
  the form, field by field.
- `Schema.getElem?_rulesFrom`: the rule at a position.
- `Schema.eq_of_headers`: the pairs that a record of headers stands for.
-/

namespace FaultInjection

namespace Document

/-- The value of a text. -/
def text? : Document → Option String
  | text s => some s
  | _ => none

/-- The values of a header: that of a text, or those of the texts in a list. -/
def headerTexts : Document → List String
  | text s => [s]
  | list documents => documents.filterMap text?
  | _ => []

end Document

namespace Schema

open Checked

/-! ## Records of the form -/

/-- A document stands for a configuration field by field. -/
theorem config_eq_accepted_iff {document : Option Document} {c : Config} :
    config document = accepted c ↔ ∃ fields, document = some (.record fields) ∧
      ∃ listenPort proxyPorts drafts,
        optional port (Record.get? "listen_port" fields) = accepted listenPort ∧
        optional (list port) (Record.get? "proxy_ports" fields) = accepted proxyPorts ∧
        optional (list rule) (Record.get? "rules" fields) = accepted drafts ∧
        ⟨listenPort.getD Config.defaultListenPort, proxyPorts.getD [],
          rulesFrom 0 (drafts.getD [])⟩ = c := by
  simp only [config, record_eq_accepted_iff, map_eq_accepted_iff, both_eq_accepted_iff,
    field_eq_accepted_iff, Prod.exists, and_assoc]

/-- A document stands for a rule field by field. -/
theorem rule_eq_accepted_iff {document : Option Document} {draft : Draft} :
    rule document = accepted draft ↔ ∃ fields, document = some (.record fields) ∧
      ∃ given applies selected done,
        optional name (Record.get? "name" fields) = accepted given ∧
        side (Record.get? "target" fields) = accepted applies ∧
        optional selector (Record.get? "selector" fields) = accepted selected ∧
        optional actions (Record.get? "actions" fields) = accepted done ∧
        ⟨given, applies, selected.getD {}, done.getD {}⟩ = draft := by
  simp only [rule, record_eq_accepted_iff, map_eq_accepted_iff, both_eq_accepted_iff,
    field_eq_accepted_iff, Prod.exists, and_assoc]

/-- A document stands for a selector field by field. -/
theorem selector_eq_accepted_iff {document : Option Document} {s : Selector} :
    selector document = accepted s ↔ ∃ fields, document = some (.record fields) ∧
      ∃ place path verb pairs code responsePairs,
        optional port (Record.get? "port" fields) = accepted place ∧
        optional selectorPath (Record.get? "path" fields) = accepted path ∧
        optional method (Record.get? "method" fields) = accepted verb ∧
        optional headers (Record.get? "headers" fields) = accepted pairs ∧
        optional status (Record.get? "code" fields) = accepted code ∧
        optional headers (Record.get? "response_headers" fields) = accepted responsePairs ∧
        ⟨place, path, verb, pairs, code, responsePairs⟩ = s := by
  simp only [selector, record_eq_accepted_iff, map_eq_accepted_iff, both_eq_accepted_iff,
    field_eq_accepted_iff, Prod.exists, and_assoc]

/-- A document stands for actions field by field. -/
theorem actions_eq_accepted_iff {document : Option Document} {a : Actions} :
    actions document = accepted a ↔ ∃ fields, document = some (.record fields) ∧
      ∃ abort delay append replace,
        optional boolean (Record.get? "abort" fields) = accepted abort ∧
        optional duration (Record.get? "delay" fields) = accepted delay ∧
        optional additions (Record.get? "append" fields) = accepted append ∧
        optional replacements (Record.get? "replace" fields) = accepted replace ∧
        ⟨abort.getD false, delay, append, replace⟩ = a := by
  simp only [actions, record_eq_accepted_iff, map_eq_accepted_iff, both_eq_accepted_iff,
    field_eq_accepted_iff, Prod.exists, and_assoc]

/-- A document stands for additions field by field. -/
theorem additions_eq_accepted_iff {document : Option Document} {a : Additions} :
    additions document = accepted a ↔ ∃ fields, document = some (.record fields) ∧
      ∃ query pairs,
        optional text (Record.get? "queries" fields) = accepted query ∧
        optional headers (Record.get? "headers" fields) = accepted pairs ∧
        ⟨query, pairs⟩ = a := by
  simp only [additions, record_eq_accepted_iff, map_eq_accepted_iff, both_eq_accepted_iff,
    field_eq_accepted_iff, Prod.exists, and_assoc]

/-- A document stands for replacements field by field. -/
theorem replacements_eq_accepted_iff {document : Option Document} {r : Replacements} :
    replacements document = accepted r ↔ ∃ fields, document = some (.record fields) ∧
      ∃ path verb body code queries pairs,
        optional text (Record.get? "path" fields) = accepted path ∧
        optional method (Record.get? "method" fields) = accepted verb ∧
        optional text (Record.get? "body" fields) = accepted body ∧
        optional status (Record.get? "code" fields) = accepted code ∧
        optional parameters (Record.get? "queries" fields) = accepted queries ∧
        optional headers (Record.get? "headers" fields) = accepted pairs ∧
        ⟨path, verb, body.map utf8Bytes, code, queries, pairs⟩ = r := by
  simp only [replacements, record_eq_accepted_iff, map_eq_accepted_iff, both_eq_accepted_iff,
    field_eq_accepted_iff, Prod.exists, and_assoc]

/-- A document is read as the configuration that it is accepted as. -/
theorem ofDocument_eq_ok_iff {document : Option Document} {file : Option String} {c : Config} :
    Config.ofDocument document file = .ok c ↔ config document = accepted c := by
  unfold Config.ofDocument
  cases config document <;> simp

/-! ## Rules in order -/

/-- The rule at a position is made of what the document has there. -/
theorem getElem?_rulesFrom (start index : Nat) (drafts : List Draft) :
    (rulesFrom start drafts)[index]? = drafts[index]?.map (Draft.toRule (start + index)) := by
  induction drafts generalizing start index with
  | nil => rfl
  | cons draft rest ih =>
      cases index with
      | zero => rfl
      | succ index =>
          rw [rulesFrom, List.getElem?_cons_succ, List.getElem?_cons_succ, ih,
            Nat.add_right_comm, Nat.add_assoc]

/-- There are as many rules as documents. -/
theorem length_rulesFrom (start : Nat) (drafts : List Draft) :
    (rulesFrom start drafts).length = drafts.length := by
  induction drafts generalizing start with
  | nil => rfl
  | cons draft rest ih => rw [rulesFrom, List.length_cons, List.length_cons, ih]

/-! ## Parts of documents that are accepted -/

section Parts

variable {d part : Document}

/-- What has a field is not null. -/
theorem ne_null_of_field? {key : String} (h : d.field? key = some part) : d ≠ .null := by
  rintro rfl
  cases h

/-- The rules of a configuration are those of the document, in order. -/
theorem exists_of_config {c : Config} {index : Nat} {documents : List Document}
    (h : config (some d) = accepted c) (hrules : d.field? "rules" = some (.list documents))
    (hpart : documents[index]? = some part) :
    ∃ draft, rule (some part) = accepted draft ∧ c.rules[index]? = some (draft.toRule index) := by
  obtain ⟨fields, hfields, listenPort, proxyPorts, drafts, -, -, hdrafts, rfl⟩ :=
    config_eq_accepted_iff.1 h
  obtain rfl := Option.some.inj hfields
  rw [show Record.get? "rules" fields = _ from hrules] at hdrafts
  have hnull : Document.list documents ≠ .null := nofun
  obtain ⟨found, hlist, rfl⟩ := exists_of_optional hnull hdrafts
  obtain ⟨documents', hsame, hitems⟩ := list_eq_accepted_iff.1 hlist
  obtain rfl := Document.list.inj (Option.some.inj hsame)
  have hitem := congrArg (·[index]?) hitems
  simp only [List.getElem?_map, hpart, Option.map_some] at hitem
  obtain ⟨draft, hdraft, haccepted⟩ := Option.map_eq_some_iff.1 hitem.symm
  refine ⟨draft, haccepted.symm, ?_⟩
  rw [getElem?_rulesFrom, Option.getD_some, hdraft, Nat.zero_add]
  rfl

/-- The actions of a rule are those of its field. -/
theorem actions_of_rule {draft : Draft} (h : rule (some d) = accepted draft)
    (hpart : d.field? "actions" = some part) (hnull : part ≠ .null) :
    actions (some part) = accepted draft.actions := by
  obtain ⟨fields, hfields, given, applies, selected, done, -, -, -, hdone, rfl⟩ :=
    rule_eq_accepted_iff.1 h
  obtain rfl := Option.some.inj hfields
  rw [show Record.get? "actions" fields = _ from hpart] at hdone
  obtain ⟨a, ha, rfl⟩ := exists_of_optional hnull hdone
  exact ha

/-- The replacements of actions are those of their field. -/
theorem exists_of_actions {a : Actions} (h : actions (some d) = accepted a)
    (hpart : d.field? "replace" = some part) (hnull : part ≠ .null) :
    ∃ r, replacements (some part) = accepted r ∧ a.replace = some r := by
  obtain ⟨fields, hfields, abort, delay, append, replace, -, -, -, hreplace, rfl⟩ :=
    actions_eq_accepted_iff.1 h
  obtain rfl := Option.some.inj hfields
  rw [show Record.get? "replace" fields = _ from hpart] at hreplace
  exact exists_of_optional hnull hreplace

/-- The headers of replacements are those of their field. -/
theorem exists_of_replacements {r : Replacements} (h : replacements (some d) = accepted r)
    (hpart : d.field? "headers" = some part) (hnull : part ≠ .null) :
    ∃ pairs, headers (some part) = accepted pairs ∧ r.headers = some pairs := by
  obtain ⟨fields, hfields, path, verb, body, code, queries, pairs, -, -, -, -, -, hpairs, rfl⟩ :=
    replacements_eq_accepted_iff.1 h
  obtain rfl := Option.some.inj hfields
  rw [show Record.get? "headers" fields = _ from hpart] at hpairs
  exact exists_of_optional hnull hpairs

end Parts


/-! ## Headers -/

/-- A text that must pass a test is accepted where it passes. -/
theorem textPassing_eq_accepted_iff {passes : String → Bool} {cause : Issue.Cause}
    {document : Option Document} {s : String} :
    textPassing passes cause document = accepted s ↔
      document = some (.text s) ∧ passes s = true := by
  unfold textPassing
  cases hs : text document with
  | rejected issues kindFits => simp [← text_eq_accepted_iff, hs]
  | accepted read =>
      obtain rfl := text_eq_accepted_iff.1 hs
      by_cases hsame : read = s
      · subst hsame
        cases hpasses : passes read <;> simp [hpasses]
      · simp [hsame]

/-- The values in a list stand for its texts. -/
theorem filterMap_text?_of_headerValue {documents : List Document} {values : List String}
    (h : documents.map (fun d => headerValue (some d)) = values.map accepted) :
    documents.filterMap Document.text? = values := by
  induction documents generalizing values with
  | nil => cases values <;> simp_all
  | cons d rest ih =>
      cases values with
      | nil => cases h
      | cons value values =>
          obtain ⟨hvalue, hrest⟩ := List.cons.inj h
          obtain ⟨htext, -⟩ := textPassing_eq_accepted_iff.1 hvalue
          obtain rfl := Option.some.inj htext
          simp [Document.text?, ih hrest]

/-- The values of a header are those of one text or of a list. -/
theorem eq_of_headerValues {d : Document} {values : List String}
    (h : headerValues (some d) = accepted values) : values = d.headerTexts := by
  rw [headerValues, firstOf_eq_accepted_iff] at h
  cases hone : ((headerValue (some d)).map fun value => [value]).value? with
  | some found =>
      obtain ⟨value, hvalue, rfl⟩ := map_eq_accepted_iff.1 (value?_eq_some_iff.1 hone)
      obtain ⟨htext, -⟩ := textPassing_eq_accepted_iff.1 hvalue
      obtain rfl := Option.some.inj htext
      rw [List.findSome?_cons, hone] at h
      exact (Option.some.inj h).symm
  | none =>
      have hlist : (list headerValue (some d)).value? = some values := by simpa [hone] using h
      obtain ⟨documents, hd, hitems⟩ := list_eq_accepted_iff.1 (value?_eq_some_iff.1 hlist)
      obtain rfl := Option.some.inj hd
      exact (filterMap_text?_of_headerValue hitems).symm

/-- The fields of a record that are accepted, but for the omitted key, with what their values
stand for. -/
theorem eq_of_entries {α : Type} {key : String → Checked String} {value : Check α}
    {stands : Document → α} (hkey : ∀ k k', key k = accepted k' → k' = k)
    (hvalue : ∀ d a, value (some d) = accepted a → a = stands d)
    {fields : List (String × Document)} {found : List (String × α)}
    (h : entries key value fields = accepted found) :
    found = (fields.filter fun field => field.1 ≠ omittedKey).map
      fun (k, d) => (k, stands d) := by
  obtain ⟨checked, hall, rfl⟩ := map_eq_accepted_iff.1 h
  -- The omitted key is checked like the others, and left out only afterwards.
  have hchecked : checked = fields.map fun (k, d) => (k, stands d) := by
    rw [all_eq_accepted_iff] at hall
    clear h
    induction fields generalizing checked with
    | nil => simpa using hall.symm
    | cons field rest ih =>
        cases checked with
        | nil => cases hall
        | cons entry others =>
            obtain ⟨hfirst, hrest⟩ := List.cons.inj hall
            obtain ⟨hk, hd⟩ := both_eq_accepted_iff.1 (under_eq_accepted_iff.1 hfirst)
            rw [List.map_cons, ← ih others hrest]
            exact congrArg (· :: others) (Prod.ext (hkey _ _ hk) (hvalue _ _ hd))
  rw [hchecked, List.filter_map]
  rfl

/-- A record of headers stands for pairs, but for the omitted key: each of the values of each
field with its key. -/
theorem eq_of_headers {fields : List (String × Document)} {pairs : List (String × String)}
    (h : headers (some (.record fields)) = accepted pairs) :
    pairs = (fields.filter fun field => field.1 ≠ omittedKey).flatMap
      fun (k, d) => d.headerTexts.map (k, ·) := by
  obtain ⟨fields', hfields, hread⟩ := record_eq_accepted_iff.1 h
  obtain rfl := Document.record.inj (Option.some.inj hfields)
  obtain ⟨found, hfound, rfl⟩ := reading_eq_accepted_iff.1 hread
  have hkey : ∀ k k', headerName k = accepted k' → k' = k := fun k k' hk =>
    (tested_eq_accepted_iff.1 hk).2.symm
  rw [eq_of_entries hkey (fun d values => eq_of_headerValues) hfound, headerPairs,
    List.flatMap_map]

end Schema

end FaultInjection
