import FaultInjection.Proofs.Config.Schema
import FaultInjection.Proofs.Rule.HeaderChanges
import Mathlib.Control.Monad.Basic

/-!
# Configuration - Headers that a rule document replaces

A rule document names headers to be replaced, each with one value or with a list.  The
record becomes pairs, one for each value, and the pairs are gathered by name again when they
take the place of headers.  A name has the values that the record gives it, if there are any.
A name with an empty list leaves no pair behind: nothing takes the place of that header, and
it keeps the values that it had.

Main definitions:

- `Document.replacedHeaders?`, the record of the headers that a rule replaces.
- `Document.valuesOf`, the values that such a record gives a name.
- `Config.TakesConfigured`, for headers that are replaced by those of a record.

Main results:

- `Config.entries_of_replacedHeaders?`: the pairs that the record becomes.
- `Config.takesConfigured`: the headers of requests and responses after a rule of the document.
- `Config.not_forall_getAll_eq_valuesOf`: a header with an empty list is not replaced.
-/

namespace FaultInjection

open Schema

/-! ## Records of headers -/

namespace Document

/-- The item at a position of a list. -/
def item? (index : Nat) : Document → Option Document
  | list items => items[index]?
  | _ => none

/-- The fields of a record. -/
def fields? : Document → Option (List (String × Document))
  | record fields => some fields
  | _ => none

/-- The record of the headers that the rule at a position replaces. -/
def replacedHeaders? (document : Document) (index : Nat) : Option (List (String × Document)) := do
  let rules ← document.field? "rules"
  let rule ← rules.item? index
  let actions ← rule.field? "actions"
  let replace ← actions.field? "replace"
  let headers ← replace.field? "headers"
  headers.fields?

/-- The values that a record gives a name: those of all keys that are equal to it up to letter
case, in the order of the keys. -/
def valuesOf (fields : List (String × Document)) (name : String) : List String :=
  (fields.filter fun field => Headers.sameName field.1 name).flatMap fun field =>
    field.2.headerTexts

/-- The fields of a record but for the omitted key. -/
def keptFields (fields : List (String × Document)) : List (String × Document) :=
  fields.filter fun field => field.1 ≠ omittedKey

/-- The pairs that a record stands for: each value with its key. -/
def pairsOf (fields : List (String × Document)) : Headers :=
  ⟨fields.flatMap fun (key, d) => d.headerTexts.map (key, ·)⟩

/-- The pairs of a record give a name the values that the record gives it. -/
theorem getAll_pairsOf (fields : List (String × Document)) (name : String) :
    (pairsOf fields).getAll name = valuesOf fields name := by
  have hone : ∀ (key : String) (values : List String),
      (Headers.mk (values.map (key, ·))).getAll name =
        if Headers.sameName key name then values else [] := by
    intro key values
    cases hsame : Headers.sameName key name <;>
      simp [Headers.getAll, List.filter_map, Function.comp_def, hsame]
  induction fields with
  | nil => rfl
  | cons field rest ih =>
      obtain ⟨key, d⟩ := field
      have hsplit : pairsOf ((key, d) :: rest) =
          (Headers.mk (d.headerTexts.map (key, ·))).appendAll (pairsOf rest).toList := rfl
      rw [hsplit, Headers.getAll_appendAll, hone, ih]
      cases hsame : Headers.sameName key name <;> simp [valuesOf, hsame]

/-- The omitted key counts only for names that are equal to it. -/
theorem valuesOf_keptFields {name : String} (hname : Headers.sameName omittedKey name = false)
    (fields : List (String × Document)) :
    valuesOf (keptFields fields) name = valuesOf fields name := by
  unfold valuesOf keptFields
  rw [List.filter_filter]
  congr 1
  refine List.filter_congr fun field _ => ?_
  by_cases hkey : field.1 = omittedKey <;> simp [hkey, hname]

end Document

/-! ## Rules of the document -/

namespace Config

open Document

/-- The entries of a rule are the pairs of the record that the document has for it. -/
theorem entries_of_replacedHeaders? {document : Document} {file : Option String} {config : Config}
    {index : Nat} {rule : Rule} {fields : List (String × Document)}
    (hconfig : ofDocument (some document) file = .ok config)
    (hrule : config.rules[index]? = some rule)
    (hfields : document.replacedHeaders? index = some fields) :
    rule.actions.entries = pairsOf (keptFields fields) := by
  simp only [replacedHeaders?, Option.bind_eq_bind, Option.bind_eq_some_iff] at hfields
  obtain ⟨rules, hrules, item, hitem, actions, hactions, replace, hreplace, headers, hheaders,
    hrecord⟩ := hfields
  have hdocument := ofDocument_eq_ok_iff.1 hconfig
  cases rules with
  | list documents =>
      obtain ⟨draft, hdraft, hplace⟩ := exists_of_config hdocument hrules hitem
      obtain rfl := Option.some.inj (hplace.symm.trans hrule)
      have hdone := actions_of_rule hdraft hactions (ne_null_of_field? hreplace)
      obtain ⟨replacements, hreplacements, hsome⟩ :=
        exists_of_actions hdone hreplace (ne_null_of_field? hheaders)
      cases headers with
      | record found =>
          obtain rfl := Option.some.inj hrecord
          obtain ⟨pairs, hpairs, hgiven⟩ := exists_of_replacements hreplacements hheaders nofun
          have hentries : (draft.toRule index).actions.entries = ⟨pairs⟩ := by
            change Headers.mk ((draft.actions.replace.bind Replacements.headers).getD []) = _
            rw [hsome, Option.bind_some, hgiven, Option.getD_some]
          rw [hentries, eq_of_headers hpairs]
          rfl
      | _ => cases hrecord
  | _ => cases hitem

/-! ## Messages -/

/-- What becomes of headers that are replaced by those of a record. -/
structure TakesConfigured (fields : List (String × Document)) (added : List (String × String))
    (before after : Headers) : Prop where
  /-- A name has the values of the record, but for the omitted key, if there are any, and otherwise
  its own and the appended ones. -/
  values : ∀ name, after.getAll name =
    if valuesOf (keptFields fields) name = [] then (before.appendAll added).getAll name
    else valuesOf (keptFields fields) name
  /-- A name other than the omitted key has the values of the record exactly if the record gives it
  any, or if there is nothing to be replaced. -/
  getAll_eq_iff : ∀ name, Headers.sameName omittedKey name = false →
    (after.getAll name = valuesOf fields name ↔
      valuesOf fields name ≠ [] ∨ (before.appendAll added).getAll name = [])

/-- Entries that are the pairs of a record replace headers by those of the record. -/
theorem takesConfigured_of_changesHeaders {fields : List (String × Document)} {actions : Actions}
    {before after : Headers} (hentries : actions.entries = pairsOf (keptFields fields))
    (h : actions.ChangesHeaders before after) :
    TakesConfigured fields actions.addedPairs before after := by
  have hvalues : ∀ name, after.getAll name =
      if valuesOf (keptFields fields) name = [] then
        (before.appendAll actions.addedPairs).getAll name
      else valuesOf (keptFields fields) name := by
    intro name
    have hcontains := Headers.contains_eq_true_iff actions.entries name
    rw [h.values, Headers.getAll_appendAll]
    rw [hentries, getAll_pairsOf] at hcontains ⊢
    by_cases hnone : valuesOf (keptFields fields) name = [] <;> simp [hnone, hcontains]
  refine ⟨hvalues, fun name hname => ?_⟩
  rw [hvalues, valuesOf_keptFields hname]
  by_cases hnone : valuesOf fields name = [] <;> simp [hnone]

/-- The headers of a request or response that comes out, under the actions of a rule that replaces
the headers of a record of the document. -/
theorem takesConfigured {document : Document} {file : Option String} {config : Config}
    {index : Nat} {rule : Rule} {fields : List (String × Document)}
    (hconfig : ofDocument (some document) file = .ok config)
    (hrule : config.rules[index]? = some rule)
    (hfields : document.replacedHeaders? index = some fields) :
    (∀ request changed plan threshold (trial : Trial),
      (trial.carryOut plan threshold (rule.actions.onRequest request)).2 = .ok changed →
      TakesConfigured fields rule.actions.addedPairs request.headers changed.headers) ∧
    ∀ response changed plan threshold (trial : Trial),
      (trial.carryOut plan threshold (rule.actions.onResponse response)).2 = .ok changed →
      TakesConfigured fields rule.actions.addedPairs response.headers changed.headers := by
  have hentries := entries_of_replacedHeaders? hconfig hrule hfields
  constructor
  · intro request changed plan threshold trial hchanged
    exact takesConfigured_of_changesHeaders hentries
      (Actions.changesHeaders_of_onRequest plan threshold trial hchanged)
  · intro response changed plan threshold trial hchanged
    exact takesConfigured_of_changesHeaders hentries
      (Actions.changesHeaders_of_onResponse plan threshold trial hchanged)

/-- A document with one rule for requests, which replaces the headers of a record. -/
def documentReplacing (fields : List (String × Document)) : Document :=
  .record [("rules", .list [.record [
    ("name", .text "strip"),
    ("target", .text "request"),
    ("actions", .record [("replace", .record [("headers", .record fields)])])]])]

/-- Two keys for one name replace the header, and an empty list leaves another as it was. -/
theorem takesConfigured_twoKeys :
    let fields : List (String × Document) :=
      [("x-tag", .list [.text "a", .text "b"]), ("keep", .list []), ("X-Tag", .text "c")]
    let entries := [("x-tag", "a"), ("x-tag", "b"), ("X-Tag", "c")]
    let rule : Rule :=
      ⟨"strip", .request, {}, { replace := some { headers := some entries } }⟩
    let target : Target := { pathAndQuery := some ⟨"/", none⟩ }
    let request : Request := ⟨"GET", target, ⟨[("X-TAG", "old"), ("Keep", "1")]⟩, []⟩
    let after : Headers := ⟨[("Keep", "1"), ("x-tag", "a"), ("x-tag", "b"), ("x-tag", "c")]⟩
    ofDocument (some (documentReplacing fields)) none = .ok ⟨defaultListenPort, [], [rule]⟩ ∧
      (documentReplacing fields).replacedHeaders? 0 = some fields ∧
      TakesConfigured fields rule.actions.addedPairs request.headers after ∧
      after.getAll "X-tag" = valuesOf fields "X-tag" ∧
      after.getAll "keep" = ["1"] := by
  intro fields entries rule target request after
  have hconfig : ofDocument (some (documentReplacing fields)) none =
      .ok ⟨defaultListenPort, [], [rule]⟩ := by
    decide +kernel
  have hrule : [rule][0]? = some rule := rfl
  have hfields : (documentReplacing fields).replacedHeaders? 0 = some fields := rfl
  have hchange : rule.actions.changeRequest request = .ok ⟨"GET", target, after, []⟩ := by
    rw [Actions.changeRequest_eq_ok_iff]
    exact ⟨rfl, target, by decide +kernel, by decide +kernel⟩
  have hout : (({} : Trial).carryOut {} .debug (rule.actions.onRequest request)).2 =
      .ok ⟨"GET", target, after, []⟩ :=
    Trial.carryOut_of_delay_eq_none {} .debug {} rfl hchange
  exact ⟨hconfig, hfields, (takesConfigured hconfig hrule hfields).1 request _ {} .debug {} hout,
    by decide +kernel, by decide +kernel⟩

/-- A header whose list of values is empty is not replaced: it keeps the value that it had. -/
theorem not_forall_getAll_eq_valuesOf :
    ¬ ∀ (document : Document) (file : Option String) (config : Config) (index : Nat) (rule : Rule)
      (fields : List (String × Document)) (request changed : Request) (name : String),
      ofDocument (some document) file = .ok config → config.rules[index]? = some rule →
      document.replacedHeaders? index = some fields →
      rule.actions.changeRequest request = .ok changed →
      (∃ field ∈ fields, Headers.sameName field.1 name = true) →
      changed.headers.getAll name = valuesOf fields name := by
  intro h
  let fields : List (String × Document) := [("x-tag", .list [])]
  let rule : Rule := ⟨"strip", .request, {}, { replace := some { headers := some [] } }⟩
  let target : Target := { pathAndQuery := some ⟨"/", none⟩ }
  let request : Request := ⟨"GET", target, ⟨[("x-tag", "a")]⟩, []⟩
  have hreplaced : request.headers.getAll "x-tag" = valuesOf fields "x-tag" :=
    h (documentReplacing fields) none ⟨defaultListenPort, [], [rule]⟩ 0 rule fields request request
      "x-tag" (by decide +kernel) rfl rfl
      (Actions.changeRequest_eq_ok_iff.2 ⟨rfl, target, by decide +kernel, by decide +kernel⟩)
      ⟨("x-tag", .list []), by simp [fields], by decide +kernel⟩
  exact absurd hreplaced (by decide +kernel)

end Config

end FaultInjection
