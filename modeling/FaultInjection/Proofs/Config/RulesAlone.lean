import FaultInjection.Proofs.Config.Rejections
import FaultInjection.Proofs.Config.Schema
import Mathlib.Data.List.Enum

/-!
# Configuration - Rules one by one

The rules of a document are checked one by one, and none of them changes what is found in another.
A document is accepted where each of its rules is accepted alone, and all issues are reported
together: those of the ports first, then those of the rules in their order, each as it is found in
the rule alone but at the position of the rule.

Main definitions:

- `Document.withRules`, a document with some rules, and `Document.ofRules`, one without anything
  else.
- `Config.issuesOf`, the issues that are reported of a document.
- `Config.ChecksAlone`, what it means for rules to be checked one by one.

Main results:

- `Checked.issues_list`: the issues of a list are those of its items in order.
- `Schema.issues_config`: the issues of a document are those of its fields.
- `Config.checksAlone`: the rules of any document are checked one by one.
-/

namespace FaultInjection

namespace Checked

variable {α β : Type}

/-! ## Issues -/

@[simp] theorem issues_map (f : α → β) (check : Checked α) :
    (check.map f).issues = check.issues := by
  cases check <;> rfl

@[simp] theorem issues_under (step : Issue.Step) (check : Checked α) :
    (check.under step).issues = check.issues.map (Issue.under step) := by
  cases check <;> rfl

/-- A list of checks reports the issues of all of them. -/
theorem issues_all (checks : List (Checked α)) : (all checks).issues = checks.flatMap issues := by
  induction checks with
  | nil => rfl
  | cons check rest ih => rw [all, issues_map, issues_both, ih, List.flatMap_cons]

/-- The items of a list are checked one by one, each at its position. -/
theorem items_eq_map (check : Check α) (index : Nat) (documents : List Document) :
    items check index documents =
      (documents.zipIdx index).map fun (d, i) => (check (some d)).under (.item i) := by
  induction documents generalizing index with
  | nil => rfl
  | cons d rest ih => rw [items, ih, List.zipIdx_cons, List.map_cons]

/-- The issues of a list are those of its items in order, each at its position. -/
theorem issues_list (check : Check α) (documents : List Document) :
    (list check (some (.list documents))).issues =
      documents.zipIdx.flatMap fun (d, i) =>
        (check (some d)).issues.map (Issue.under (.item i)) := by
  rw [list, issues_all, items_eq_map, List.flatMap_map]
  exact List.flatMap_congr fun _ _ => issues_under _ _

/-- What is accepted or has issues is accepted exactly if it has none. -/
theorem IsReasoned.exists_accepted_iff {check : Checked α} (h : check.IsReasoned) :
    (∃ a, check = accepted a) ↔ check.issues = [] := by
  cases check with
  | accepted a => simp [issues]
  | rejected found kindFits => simpa [issues, IsReasoned] using h

end Checked

/-! ## Documents with rules -/

namespace Document

/-- The document that has some fields and these rules. -/
def withRules (fields : Record Document) (rules : List Document) : Document :=
  record (fields.put "rules" (list rules))

/-- The document that has these rules and nothing else. -/
def ofRules (rules : List Document) : Document := record [("rules", list rules)]

/-- The document that has one of some fields and nothing else. -/
def ofField (key : String) (fields : Record Document) : Document :=
  record ((Record.get? key fields).toList.map fun d => (key, d))

/-- Whether the document of a rule gives it no name. -/
def isUnnamed (rule : Document) : Bool :=
  match rule.field? "name" with
  | none | some null => true
  | _ => false

/-- A field alone is the field of that key. -/
theorem get?_ofField (key : String) (fields : Record Document) :
    Record.get? key ((Record.get? key fields).toList.map fun d => (key, d)) =
      Record.get? key fields := by
  cases Record.get? key fields <;> simp [Record.get?]

/-- A field alone is no field of another key. -/
theorem get?_ofField_of_ne {key other : String} (h : key ≠ other) (fields : Record Document) :
    Record.get? other ((Record.get? key fields).toList.map fun d => (key, d)) = none := by
  cases Record.get? key fields <;> simp [Record.get?, h]

end Document

/-- An issue of a rule alone, as it is reported of the rule at a position. -/
def Issue.atRule (index : Nat) (issue : Issue) : Issue :=
  match issue.path with
  | .key "rules" :: .item 0 :: rest => { issue with path := .key "rules" :: .item index :: rest }
  | _ => issue

/-- The issues that are reported of a document. -/
def Config.issuesOf (document : Document) : List Issue :=
  match ofDocument (some document) none with
  | .error ⟨_, .invalid issues⟩ => issues
  | _ => []

namespace Schema

open Checked

variable {fields : List (String × Document)} {rules : List Document}

/-- The issues that are reported of a document are those of its check. -/
theorem issuesOf_eq (document : Document) :
    Config.issuesOf document = (config (some document)).issues := by
  unfold Config.issuesOf Config.ofDocument
  cases config (some document) <;> rfl

/-- The issues of a document are those of its ports and of its rules, one after the other. -/
theorem issues_config (fields : List (String × Document)) :
    (config (some (.record fields))).issues =
      (field fields "listen_port" (optional port)).issues ++
        ((field fields "proxy_ports" (optional (list port))).issues ++
          (field fields "rules" (optional (list rule))).issues) := by
  rw [config, record, issues_map, issues_both, issues_both]

/-- A field that is missing has no issues. -/
theorem issues_field_of_none {α : Type} {check : Check α} {key : String}
    (h : Record.get? key fields = none) : (field fields key (optional check)).issues = [] := by
  rw [field, issues_under, h]
  rfl

/-- The issues of rules are those of each rule in order, at its position. -/
theorem issues_rules (h : Record.get? "rules" fields = some (.list rules)) :
    (field fields "rules" (optional (list rule))).issues =
      rules.zipIdx.flatMap fun pair => (rule (some pair.1)).issues.map fun issue =>
        Issue.under (.key "rules") (Issue.under (.item pair.2) issue) := by
  rw [field, issues_under, h, optional_of_ne_null (d := .list _) (by simp), issues_map, issues_list,
    List.map_flatMap]
  exact List.flatMap_congr fun _ _ => List.map_map ..

/-- The issues of a rule alone are those of the rule, at the first position. -/
theorem issuesOf_ofRule (r : Document) :
    Config.issuesOf (.ofRules [r]) = (rule (some r)).issues.map fun issue =>
      Issue.under (.key "rules") (Issue.under (.item 0) issue) := by
  rw [issuesOf_eq, Document.ofRules, issues_config, issues_field_of_none rfl,
    issues_field_of_none rfl, issues_rules rfl]
  simp

/-- The issues of a field alone are those of the field. -/
theorem issuesOf_listenPort (fields : List (String × Document)) :
    Config.issuesOf (.ofField "listen_port" fields) =
      (field fields "listen_port" (optional port)).issues := by
  rw [issuesOf_eq, Document.ofField, issues_config, field, Document.get?_ofField,
    issues_field_of_none (Document.get?_ofField_of_ne (by decide) fields),
    issues_field_of_none (Document.get?_ofField_of_ne (by decide) fields), List.append_nil,
    List.append_nil, field]

theorem issuesOf_proxyPorts (fields : List (String × Document)) :
    Config.issuesOf (.ofField "proxy_ports" fields) =
      (field fields "proxy_ports" (optional (list port))).issues := by
  rw [issuesOf_eq, Document.ofField, issues_config,
    issues_field_of_none (Document.get?_ofField_of_ne (by decide) fields), field,
    Document.get?_ofField, issues_field_of_none (Document.get?_ofField_of_ne (by decide) fields),
    List.nil_append, List.append_nil, field]

/-- The issues of a document with rules are those of its ports and of each rule alone. -/
theorem issuesOf_withRules (fields : List (String × Document)) (rules : List Document) :
    Config.issuesOf (.withRules fields rules) =
      Config.issuesOf (.ofField "listen_port" fields) ++
        Config.issuesOf (.ofField "proxy_ports" fields) ++
          rules.zipIdx.flatMap fun (r, i) =>
            (Config.issuesOf (.ofRules [r])).map (Issue.atRule i) := by
  have hport (key : String) (h : key ≠ "rules") :
      Record.get? key (Record.put "rules" (.list rules) fields) = Record.get? key fields :=
    Record.get?_put_of_ne _ _ _ _ h
  rw [issuesOf_eq, Document.withRules, issues_config, issues_rules (Record.get?_put_self ..),
    issuesOf_listenPort, issuesOf_proxyPorts, List.append_assoc]
  simp only [field, hport _ (show "listen_port" ≠ "rules" by decide),
    hport _ (show "proxy_ports" ≠ "rules" by decide), issuesOf_ofRule, List.map_map]
  rfl

/-- A document is accepted exactly if no issues are reported of it. -/
theorem exists_ofDocument_iff (document : Document) (file : Option String) :
    (∃ c, Config.ofDocument (some document) file = .ok c) ↔ Config.issuesOf document = [] := by
  simp only [ofDocument_eq_ok_iff, issuesOf_eq]
  exact (isReasoned_config _).exists_accepted_iff

/-- A document is refused exactly if issues are reported of it, and for these. -/
theorem ofDocument_eq_error_iff (document : Document) (file : Option String) (fault : ConfigFault) :
    Config.ofDocument (some document) file = .error fault ↔
      Config.issuesOf document ≠ [] ∧ fault = ⟨file, .invalid (Config.issuesOf document)⟩ := by
  have hreasoned := isReasoned_config (some document)
  rw [issuesOf_eq]
  unfold Config.ofDocument
  cases hread : config (some document) with
  | accepted c => simp [issues]
  | rejected found kindFits =>
      rw [hread] at hreasoned
      have hissues : found ≠ [] := hreasoned
      simp [issues, hissues, eq_comm]

/-- A rule that is given no name is named for its position, and only such a rule. -/
theorem toRule_eq {r : Document} {draft : Draft} (h : rule (some r) = accepted draft)
    (index : Nat) :
    draft.toRule index =
      if r.isUnnamed then { draft.toRule 0 with name := positionName index }
      else draft.toRule 0 := by
  obtain ⟨fields, hfields, given, applies, selected, done, hname, -, -, -, rfl⟩ :=
    rule_eq_accepted_iff.1 h
  obtain rfl := Option.some.inj hfields
  have hfield : (Document.record fields).field? "name" = Record.get? "name" fields := rfl
  rcases cases_of_optional hname with ⟨hmissing, rfl⟩ | ⟨d, s, hd, hs, rfl⟩
  · have hunnamed : (Document.record fields).isUnnamed = true := by
      rcases hmissing with hnone | hnull
      · rw [Document.isUnnamed, hfield, hnone]
      · rw [Document.isUnnamed, hfield, hnull]
    rw [if_pos hunnamed]
    rfl
  · have hnamed : (Document.record fields).isUnnamed = false := by
      obtain ⟨rfl, -⟩ := textPassing_eq_accepted_iff.1 hs |>.imp Option.some.inj id
      rw [Document.isUnnamed, hfield, hd]
    rw [hnamed]
    rfl

/-- Rules without anything else are accepted where each of them is, as what they stand for. -/
theorem config_ofRules_eq_accepted_iff {c : Config} :
    config (some (.ofRules rules)) = accepted c ↔
      ∃ drafts : List Draft, rules.map (fun r => rule (some r)) = drafts.map accepted ∧
        c = ⟨Config.defaultListenPort, [], rulesFrom 0 drafts⟩ := by
  have hrules (drafts : Option (List Draft)) :
      optional (list rule) (some (.list rules)) = accepted drafts ↔
        ∃ found : List Draft, rules.map (fun r => rule (some r)) = found.map accepted ∧
          some found = drafts := by
    rw [optional_of_ne_null (d := .list _) (by simp), map_eq_accepted_iff]
    simp [list_eq_accepted_iff]
  rw [config_eq_accepted_iff]
  constructor
  · rintro ⟨fields, hfields, listenPort, proxyPorts, drafts, hlisten, hproxy, hdrafts, rfl⟩
    obtain rfl := Document.record.inj (Option.some.inj hfields)
    obtain ⟨found, hfound, rfl⟩ := (hrules drafts).1 hdrafts
    obtain rfl : listenPort = none := (accepted.inj hlisten).symm
    obtain rfl : proxyPorts = none := (accepted.inj hproxy).symm
    exact ⟨found, hfound, rfl⟩
  · rintro ⟨drafts, hdrafts, rfl⟩
    exact ⟨_, rfl, none, none, some drafts, rfl, rfl, (hrules _).2 ⟨drafts, hdrafts, rfl⟩, rfl⟩

end Schema

/-! ## Rules alone -/

/-- The issues of a document with rules, found piece by piece: those of each port field alone, then
those of each rule alone, in order and at the position of the rule. -/
def Config.issuesOneByOne (fields : Record Document) (rules : List Document) : List Issue :=
  issuesOf (.ofField "listen_port" fields) ++ issuesOf (.ofField "proxy_ports" fields) ++
    rules.zipIdx.flatMap fun (r, i) => (issuesOf (.ofRules [r])).map (Issue.atRule i)

/-- Rules are checked one by one. -/
structure Config.ChecksAlone (rules : List Document) : Prop where
  /-- They are accepted exactly if each of them is accepted alone. -/
  accepted_iff : (∃ c, ofDocument (some (.ofRules rules)) none = .ok c) ↔
    ∀ r ∈ rules, ∃ c, ofDocument (some (.ofRules [r])) none = .ok c
  /-- There are as many rules then, and each is the one that it is alone, but for the name of a rule
  that is given none. -/
  rules_eq : ∀ c, ofDocument (some (.ofRules rules)) none = .ok c →
    c.rules.length = rules.length ∧
      ∀ (index : Nat) r, rules[index]? = some r → ∃ alone,
        ofDocument (some (.ofRules [r])) none = .ok { c with rules := [alone] } ∧
          c.rules[index]? = some (if r.isUnnamed then
            { alone with name := "rule-" ++ Nat.repr index } else alone)
  /-- Whatever other fields there are, the document is refused exactly if anything is found piece by
  piece, and for all that is found. -/
  error_iff : ∀ fields file fault,
    ofDocument (some (.withRules fields rules)) file = .error fault ↔
      issuesOneByOne fields rules ≠ [] ∧ fault = ⟨file, .invalid (issuesOneByOne fields rules)⟩
  /-- The message says all that is found, one after the other. -/
  message_eq : ∀ fields fault,
    ofDocument (some (.withRules fields rules)) none = .error fault →
      fault.message = String.intercalate "; " ((issuesOneByOne fields rules).map Issue.text)

/-- The rules of any document are checked one by one. -/
theorem Config.checksAlone (rules : List Document) : ChecksAlone rules := by
  have hissues (fields : Record Document) :
      issuesOf (.withRules fields rules) = issuesOneByOne fields rules :=
    Schema.issuesOf_withRules fields rules
  constructor
  · simp only [Schema.exists_ofDocument_iff]
    have hrules : issuesOf (.ofRules rules) = _ := hissues []
    simp only [hrules, issuesOneByOne, List.append_eq_nil_iff, List.flatMap_eq_nil_iff,
      List.map_eq_nil_iff, List.forall_mem_zipIdx']
    rw [List.forall_mem_iff_getElem]
    exact ⟨fun h => h.2, fun h => ⟨⟨rfl, rfl⟩, h⟩⟩
  · intro c hc
    obtain ⟨drafts, hdrafts, rfl⟩ :=
      Schema.config_ofRules_eq_accepted_iff.1 (Schema.ofDocument_eq_ok_iff.1 hc)
    refine ⟨?_, fun index r hr => ?_⟩
    · have hlength := congrArg List.length hdrafts
      rw [List.length_map, List.length_map] at hlength
      rw [Schema.length_rulesFrom, hlength]
    · have hitem := congrArg (·[index]?) hdrafts
      simp only [List.getElem?_map, hr, Option.map_some] at hitem
      obtain ⟨draft, hdraft, haccepted⟩ := Option.map_eq_some_iff.1 hitem.symm
      refine ⟨draft.toRule 0, ?_, ?_⟩
      · have hone : [r].map (fun r => Schema.rule (some r)) = [draft].map Checked.accepted := by
          rw [List.map_singleton, List.map_singleton, haccepted]
        exact Schema.ofDocument_eq_ok_iff.2
          (Schema.config_ofRules_eq_accepted_iff.2 ⟨[draft], hone, rfl⟩)
      · rw [Schema.getElem?_rulesFrom, hdraft, Option.map_some, Nat.zero_add]
        exact congrArg some (Schema.toRule_eq haccepted.symm index)
  · intro fields file fault
    rw [Schema.ofDocument_eq_error_iff, hissues]
  · intro fields fault hfault
    obtain ⟨-, rfl⟩ := (Schema.ofDocument_eq_error_iff _ _ _).1 hfault
    rw [hissues]
    rfl

example :
    (Config.issuesOneByOne [("listen_port", .null), ("proxy_ports", .boolean true)]
      [.record [("target", .text "request")], .null, .record []]).map Issue.text =
    ["proxy_ports: Expected array, received boolean", "rules.1: Expected object, received null",
      "rules.2.target: Required"] := by
  decide +kernel

end FaultInjection
