import FaultInjection.Config.Load
import FaultInjection.Proofs.Config.Rejections
import FaultInjection.Proofs.Config.Schema
import FaultInjection.Proofs.Target.WellFormed

/-!
# Configuration - Valid configurations

A configuration that was read from a document is valid: its ports and statuses are whole
numbers within their bounds, its methods and names of headers are tokens, no value of a header
breaks a line, and its paths are ones that a request can have.  Nothing else can be read from
any document, so what uses a configuration need not look at these things again.

Main definitions:

- `Config.IsValid`, with `Rule.IsValid`, `Selector.IsValid` and `Actions.IsValid`.
- `Rule.IsReadFrom` and `Config.HasRulesOf`, the rules of a document in their order.

Main results:

- `Schema.isValid_of_config`: what is accepted as a configuration is a valid one.
- `Schema.hasRulesOf_of_config`: its rules are those of the document.
- `Config.isValid_or_invalid`: any document stands for a valid configuration or has issues.
- `Config.isValid_of_load`: a file holds no configuration but a valid one.
-/

namespace FaultInjection

/-! ## Numbers and texts -/

/-- A whole number between two bounds. -/
def Number.IsWholeBetween (least greatest : Nat) (n : Number) : Prop :=
  ∃ k : Nat, least ≤ k ∧ k ≤ greatest ∧ n = .whole k

/-- The number of a port. -/
def Number.IsPort (n : Number) : Prop := n.IsWholeBetween 0 65535

/-- The number of a status. -/
def Number.IsStatus (n : Number) : Prop := n.IsWholeBetween 100 999

/-- The code points that set tokens apart: the double quote, the characters `,/:;<=>?@\`, and all
brackets. -/
def delimiters : List Nat :=
  [0x22, 0x28, 0x29, 0x2c, 0x2f, 0x3a, 0x3b, 0x3c, 0x3d, 0x3e, 0x3f, 0x40, 0x5b, 0x5c, 0x5d, 0x7b,
    0x7d]

/-- A token in the sense of RFC 7230: visible characters of ASCII other than delimiters, at least
one. -/
def IsToken (s : String) : Prop :=
  s ≠ "" ∧ ∀ c ∈ s.toList, 0x21 ≤ c.toNat ∧ c.toNat ≤ 0x7e ∧ c.toNat ∉ delimiters

/-- The value of a header: a text without CR, LF and NUL. -/
def IsHeaderValue (s : String) : Prop :=
  ∀ c ∈ s.toList, c ≠ '\r' ∧ c ≠ '\n' ∧ c ≠ Char.ofNat 0

/-- Pairs of headers, each of a token and a value. -/
def AreHeaders (pairs : List (String × String)) : Prop :=
  ∀ pair ∈ pairs, IsToken pair.1 ∧ IsHeaderValue pair.2

/-- A path of a request: the asterisk or a text after a slash, of visible characters up to U+00FF
without the question mark and the number sign. -/
def IsRequestPath (path : String) : Prop :=
  (path = "*" ∨ ∃ rest, path.toList = '/' :: rest) ∧
    ∀ c ∈ path.toList, 0x20 < c.toNat ∧ c.toNat ≠ 0x7f ∧ c.toNat ≤ 0xff ∧ c ≠ '?' ∧ c ≠ '#'

/-! ## Rules and configurations -/

/-- A selector of numbers and texts as they occur in messages. -/
structure Selector.IsValid (s : Selector) : Prop where
  port : ∀ n ∈ s.port, n.IsPort
  path : ∀ path ∈ s.path, IsRequestPath path
  method : ∀ method ∈ s.method, IsToken method
  headers : ∀ pairs ∈ s.headers, AreHeaders pairs
  code : ∀ n ∈ s.code, n.IsStatus
  responseHeaders : ∀ pairs ∈ s.responseHeaders, AreHeaders pairs

/-- A selector without parts is valid. -/
theorem Selector.isValid_empty : IsValid {} := by
  constructor <;> simp

/-- Replacements that can stand in a message; the path is looked at when it is put in place. -/
structure Replacements.IsValid (r : Replacements) : Prop where
  method : ∀ method ∈ r.method, IsToken method
  code : ∀ n ∈ r.code, n.IsStatus
  headers : ∀ pairs ∈ r.headers, AreHeaders pairs

/-- Actions whose additions and replacements can stand in a message. -/
structure Actions.IsValid (a : Actions) : Prop where
  append : ∀ additions ∈ a.append, ∀ pairs ∈ additions.headers, AreHeaders pairs
  replace : ∀ replacements ∈ a.replace, replacements.IsValid

/-- Actions without parts are valid. -/
theorem Actions.isValid_empty : IsValid {} := by
  constructor <;> simp

/-- A rule with a name and valid parts. -/
structure Rule.IsValid (r : Rule) : Prop where
  name : r.name ≠ ""
  selector : r.selector.IsValid
  actions : r.actions.IsValid

/-- A configuration that what uses it can rely on. -/
structure Config.IsValid (config : Config) : Prop where
  listenPort : config.listenPort.IsPort
  proxyPorts : ∀ n ∈ config.proxyPorts, n.IsPort
  rules : ∀ rule ∈ config.rules, rule.IsValid

/-- The documents of the rules of a document; there are none where the field is missing or null. -/
def Document.rules (document : Option Document) : List Document :=
  match document.bind (Document.field? "rules") with
  | some (.list documents) => documents
  | _ => []

/-- A rule is the one that a document at a position stands for. -/
structure Rule.IsReadFrom (rule : Rule) (index : Nat) (d : Document) : Prop where
  /-- It is for the messages that the document names, with a capital or without. -/
  side : ∃ s, d.field? "target" = some (.text s) ∧
    (rule.side = .request ∧ (s = "Request" ∨ s = "request") ∨
      rule.side = .response ∧ (s = "Response" ∨ s = "response"))
  read : ∃ draft, Schema.rule (some d) = .accepted draft ∧ rule = draft.toRule index

/-- The rules of a configuration are those of documents, one for one and in their order. -/
structure Config.HasRulesOf (config : Config) (documents : List Document) : Prop where
  length_eq : config.rules.length = documents.length
  isReadFrom : ∀ index (r : Rule) d, config.rules[index]? = some r → documents[index]? = some d →
    r.IsReadFrom index d

namespace Schema

open Checked

/-! ## Single values -/

/-- A number that passes the tests is a whole number between the bounds. -/
theorem isWholeBetween_of_tests {least greatest : Nat} {n : Number}
    (hleast : Number.ofNat least = .whole least)
    (hgreatest : Number.ofNat greatest = .whole greatest)
    (h : wholeBetween least greatest n = []) : n.IsWholeBetween least greatest := by
  obtain ⟨hwhole, hbelow, habove⟩ : n.isInteger = true ∧ n.lt (.whole least) = false ∧
      (Number.whole greatest).lt n = false := by
    simpa [wholeBetween, hleast, hgreatest] using h
  cases n with
  | notANumber => cases hwhole
  | infinite negative => cases hwhole
  | finite units =>
      have hpositive : (0 : Int) < Number.unitsPerOne := by
        exact_mod_cast Number.unitsPerOne_pos
      simp only [Number.isInteger, Number.toInt?, Option.isSome_ite] at hwhole
      obtain ⟨k, rfl⟩ := Int.dvd_of_emod_eq_zero hwhole
      simp only [Number.whole, Number.lt, decide_eq_false_iff_not, Int.not_lt] at hbelow habove
      rw [Int.mul_comm _ k] at hbelow habove
      have hleastk : (least : Int) ≤ k := Int.le_of_mul_le_mul_right hbelow hpositive
      have hkgreatest : k ≤ greatest := Int.le_of_mul_le_mul_right habove hpositive
      refine ⟨k.toNat, by omega, by omega, ?_⟩
      rw [Number.whole, Int.toNat_of_nonneg (by omega), Int.mul_comm]

/-- What is accepted as a port is one. -/
theorem isPort_of_port {d : Document} {n : Number} (h : port (some d) = accepted n) : n.IsPort :=
  isWholeBetween_of_tests (by decide +kernel) (by decide +kernel) (number_eq_accepted_iff.1 h).2.2

/-- What is accepted as a status is one. -/
theorem isStatus_of_status {d : Document} {n : Number} (h : status (some d) = accepted n) :
    n.IsStatus :=
  isWholeBetween_of_tests (by decide +kernel) (by decide +kernel) (number_eq_accepted_iff.1 h).2.2

/-- A text that passes as a token is one. -/
theorem isToken_of_isToken {s : String} (h : isToken s = true) : IsToken s := by
  refine ⟨fun hempty => isToken_ne_nil h (by rw [hempty]; rfl), fun c hc => ?_⟩
  have hchar : isTokenChar c = true :=
    List.all_eq_true.1 (Bool.and_eq_true_iff.1 h).2 c hc
  rw [isTokenChar, Bool.or_eq_true, List.contains_iff_mem] at hchar
  rcases hchar with hletter | hmark
  · have hcode := toNat_of_isAlphanum hletter
    refine ⟨by omega, by omega, ?_⟩
    simp only [delimiters, List.mem_cons, List.not_mem_nil, or_false]
    omega
  · have hmarks : (tokenMarks.all fun mark => decide (0x21 ≤ mark.toNat ∧ mark.toNat ≤ 0x7e ∧
        mark.toNat ∉ delimiters)) = true := by
      decide
    exact of_decide_eq_true (List.all_eq_true.1 hmarks c hmark)

/-- What is accepted as a method is a token. -/
theorem isToken_of_method {d : Document} {s : String} (h : method (some d) = accepted s) :
    IsToken s :=
  isToken_of_isToken (textPassing_eq_accepted_iff.1 h).2

/-- What is accepted as a name is not empty. -/
theorem ne_empty_of_name {d : Document} {s : String} (h : name (some d) = accepted s) : s ≠ "" := by
  simpa using (textPassing_eq_accepted_iff.1 h).2

/-- What is accepted as a path to be matched is the path of a request. -/
theorem isRequestPath_of_selectorPath {d : Document} {path : String}
    (h : selectorPath (some d) = accepted path) : IsRequestPath path := by
  unfold selectorPath at h
  split at h
  · split at h
    · rename_i p hparse
      obtain rfl : p.path = path := by simpa using h
      obtain ⟨hshape, hvisible⟩ := PathAndQuery.isWellFormed_of_parse hparse
      have hmark : '?' ∉ p.path.toList := by
        rcases hshape with rfl | ⟨-, hmark⟩
        · decide
        · exact hmark
      refine ⟨?_, fun c hc => ?_⟩
      · rcases hshape with rfl | ⟨hslash, -⟩
        · exact .inl rfl
        · exact .inr hslash
      · have hcode := hvisible c (List.mem_append_left _ hc)
        refine ⟨by omega, by omega, by omega, ne_of_mem_of_not_mem hc hmark, ?_⟩
        rintro rfl
        exact absurd hcode (by decide)
    · cases h
  · cases h

/-! ## Headers -/

/-- What is accepted as the value of a header is one. -/
theorem isHeaderValue_of_headerValue {d : Document} {s : String}
    (h : headerValue (some d) = accepted s) : IsHeaderValue s := by
  intro c hc
  have hchar : isHeaderValueChar c = true :=
    List.all_eq_true.1 (textPassing_eq_accepted_iff.1 h).2 c hc
  simpa [isHeaderValueChar, and_assoc] using hchar

/-- All of the values of a header that are accepted are ones. -/
theorem isHeaderValue_of_headerValues {d : Document} {values : List String}
    (h : headerValues (some d) = accepted values) : ∀ s ∈ values, IsHeaderValue s := by
  rw [headerValues, firstOf_eq_accepted_iff] at h
  obtain ⟨check, hcheck, hvalues⟩ := List.exists_of_findSome?_eq_some h
  rw [value?_eq_some_iff] at hvalues
  simp only [List.mem_cons, List.not_mem_nil, or_false] at hcheck
  rcases hcheck with rfl | rfl
  · obtain ⟨s, hs, rfl⟩ := map_eq_accepted_iff.1 hvalues
    exact List.forall_mem_singleton.2 (isHeaderValue_of_headerValue hs)
  · exact forall_of_list (fun _ _ => isHeaderValue_of_headerValue) hvalues

/-- The fields of a record that are accepted have keys and values that are. -/
theorem exists_of_mem_entries {α : Type} {key : String → Checked String} {value : Check α}
    {fields : List (String × Document)} {found : List (String × α)}
    (h : entries key value fields = accepted found) {entry : String × α} (hentry : entry ∈ found) :
    ∃ k d, key k = accepted entry.1 ∧ value (some d) = accepted entry.2 := by
  obtain ⟨checked, hall, rfl⟩ := map_eq_accepted_iff.1 h
  rw [all_eq_accepted_iff] at hall
  have hmem : accepted entry ∈ checked.map accepted :=
    List.mem_map_of_mem (List.mem_filter.1 hentry).1
  rw [← hall] at hmem
  obtain ⟨⟨k, d⟩, -, hfield⟩ := List.mem_map.1 hmem
  obtain ⟨hk, hd⟩ := both_eq_accepted_iff.1 (under_eq_accepted_iff.1 hfield)
  exact ⟨k, d, hk, hd⟩

/-- What is accepted as headers are pairs of a token and a value each. -/
theorem areHeaders_of_headers {d : Document} {pairs : List (String × String)}
    (h : headers (some d) = accepted pairs) : AreHeaders pairs := by
  obtain ⟨fields, -, hread⟩ := record_eq_accepted_iff.1 h
  obtain ⟨found, hfound, rfl⟩ := reading_eq_accepted_iff.1 hread
  intro pair hpair
  obtain ⟨⟨name, values⟩, hentry, hmem⟩ := List.mem_flatMap.1 hpair
  obtain ⟨value, hvalue, rfl⟩ := List.mem_map.1 hmem
  obtain ⟨k, d, hk, hd⟩ := exists_of_mem_entries hfound hentry
  obtain ⟨hpasses, rfl⟩ := tested_eq_accepted_iff.1 hk
  refine ⟨isToken_of_isToken ?_, isHeaderValue_of_headerValues hd value hvalue⟩
  simpa using hpasses

/-! ## Records of the form -/

/-- What is accepted as a selector is a valid one. -/
theorem isValid_of_selector {d : Document} {s : Selector} (h : selector (some d) = accepted s) :
    s.IsValid := by
  obtain ⟨fields, -, at', path, verb, pairs, code, responsePairs, hport, hpath, hmethod, hheaders,
    hcode, hresponse, rfl⟩ := selector_eq_accepted_iff.1 h
  exact {
    port := forall_of_optional (fun _ _ => isPort_of_port) hport
    path := forall_of_optional (fun _ _ => isRequestPath_of_selectorPath) hpath
    method := forall_of_optional (fun _ _ => isToken_of_method) hmethod
    headers := forall_of_optional (fun _ _ => areHeaders_of_headers) hheaders
    code := forall_of_optional (fun _ _ => isStatus_of_status) hcode
    responseHeaders := forall_of_optional (fun _ _ => areHeaders_of_headers) hresponse }

/-- What is accepted as replacements is valid. -/
theorem isValid_of_replacements {d : Document} {r : Replacements}
    (h : replacements (some d) = accepted r) : r.IsValid := by
  obtain ⟨fields, -, path, verb, body, code, queries, pairs, -, hmethod, -, hcode, -, hheaders,
    rfl⟩ := replacements_eq_accepted_iff.1 h
  exact {
    method := forall_of_optional (fun _ _ => isToken_of_method) hmethod
    code := forall_of_optional (fun _ _ => isStatus_of_status) hcode
    headers := forall_of_optional (fun _ _ => areHeaders_of_headers) hheaders }

/-- What is accepted as additions has valid headers. -/
theorem areHeaders_of_additions {d : Document} {a : Additions}
    (h : additions (some d) = accepted a) : ∀ pairs ∈ a.headers, AreHeaders pairs := by
  obtain ⟨fields, -, query, pairs, -, hheaders, rfl⟩ := additions_eq_accepted_iff.1 h
  exact forall_of_optional (fun _ _ => areHeaders_of_headers) hheaders

/-- What is accepted as actions is valid. -/
theorem isValid_of_actions {d : Document} {a : Actions} (h : actions (some d) = accepted a) :
    a.IsValid := by
  obtain ⟨fields, -, abort, delay, append, replace, -, -, happend, hreplace, rfl⟩ :=
    actions_eq_accepted_iff.1 h
  exact {
    append := forall_of_optional (fun _ _ => areHeaders_of_additions) happend
    replace := forall_of_optional (fun _ _ => isValid_of_replacements) hreplace }

/-! ## Rules -/

/-- What is accepted as a side is named by a text. -/
theorem exists_of_side {document : Option Document} {applies : Rule.Side}
    (h : side document = accepted applies) :
    ∃ s, document = some (.text s) ∧
      (applies = .request ∧ (s = "Request" ∨ s = "request") ∨
        applies = .response ∧ (s = "Response" ∨ s = "response")) := by
  unfold side at h
  split at h
  · cases h
  · rename_i s
    refine ⟨s, rfl, ?_⟩
    split at h
    · rename_i named hnamed
      obtain rfl : named = applies := by simpa using h
      unfold sideOfName? at hnamed
      split at hnamed
      · exact .inl ⟨(Option.some.inj hnamed).symm, .inl rfl⟩
      · exact .inl ⟨(Option.some.inj hnamed).symm, .inr rfl⟩
      · exact .inr ⟨(Option.some.inj hnamed).symm, .inl rfl⟩
      · exact .inr ⟨(Option.some.inj hnamed).symm, .inr rfl⟩
      · cases hnamed
    · cases h
  · cases h

/-- What is accepted as a rule is read from its document. -/
theorem isReadFrom_of_rule {d : Document} {draft : Draft} (h : rule (some d) = accepted draft)
    (index : Nat) : (draft.toRule index).IsReadFrom index d := by
  refine ⟨?_, draft, h, rfl⟩
  obtain ⟨fields, hfields, given, applies, selected, done, -, hside, -, -, rfl⟩ :=
    rule_eq_accepted_iff.1 h
  obtain rfl := Option.some.inj hfields
  exact exists_of_side hside

/-- The name of a rule that is given none is not empty. -/
theorem positionName_ne_empty (index : Nat) : positionName index ≠ "" := by
  intro hempty
  have hlength := congrArg String.length hempty
  simp [positionName] at hlength

/-- A rule that is read from a document is valid. -/
theorem isValid_of_isReadFrom {r : Rule} {index : Nat} {d : Document}
    (h : r.IsReadFrom index d) : r.IsValid := by
  obtain ⟨draft, hdraft, rfl⟩ := h.read
  obtain ⟨fields, -, given, applies, selected, done, hname, -, hselector, hactions, rfl⟩ :=
    rule_eq_accepted_iff.1 hdraft
  exact {
    name := getD_of_optional (P := (· ≠ "")) (fun _ _ => ne_empty_of_name)
      (positionName_ne_empty index) hname
    selector := getD_of_optional (fun _ _ => isValid_of_selector) Selector.isValid_empty hselector
    actions := getD_of_optional (fun _ _ => isValid_of_actions) Actions.isValid_empty hactions }

/-! ## Configurations -/

/-- The rules of a configuration are made of what each document of a rule is accepted as. -/
theorem exists_drafts_of_config {document : Option Document} {c : Config}
    (h : config document = accepted c) :
    ∃ drafts, (Document.rules document).map (fun d => rule (some d)) = drafts.map accepted ∧
      c.rules = rulesFrom 0 drafts := by
  obtain ⟨fields, rfl, listenPort, proxyPorts, drafts, -, -, hdrafts, rfl⟩ :=
    config_eq_accepted_iff.1 h
  refine ⟨drafts.getD [], ?_, rfl⟩
  have hfield : (some (Document.record fields)).bind (Document.field? "rules") =
      Record.get? "rules" fields := rfl
  rw [Document.rules, hfield]
  rcases cases_of_optional hdrafts with ⟨hmissing, rfl⟩ | ⟨d, found, hd, hfound, rfl⟩
  · rcases hmissing with hnone | hnull
    · rw [hnone]
      rfl
    · rw [hnull]
      rfl
  · obtain ⟨documents, hlist, hitems⟩ := list_eq_accepted_iff.1 hfound
    rw [hd, hlist]
    exact hitems

/-- What is accepted as a configuration has the rules of the document, in their order. -/
theorem hasRulesOf_of_config {document : Option Document} {c : Config}
    (h : config document = accepted c) : c.HasRulesOf (Document.rules document) := by
  obtain ⟨drafts, hdrafts, hrules⟩ := exists_drafts_of_config h
  constructor
  · have hlength := congrArg List.length hdrafts
    rw [List.length_map, List.length_map] at hlength
    rw [hrules, length_rulesFrom, hlength]
  · intro index r d hr hd
    have hitem := congrArg (·[index]?) hdrafts
    simp only [List.getElem?_map, hd, Option.map_some] at hitem
    obtain ⟨draft, hdraft, haccepted⟩ := Option.map_eq_some_iff.1 hitem.symm
    rw [hrules, getElem?_rulesFrom, hdraft, Option.map_some, Nat.zero_add] at hr
    obtain rfl := Option.some.inj hr
    exact isReadFrom_of_rule haccepted.symm index

/-- What is accepted as a configuration is a valid one. -/
theorem isValid_of_config {document : Option Document} {c : Config}
    (h : config document = accepted c) : c.IsValid := by
  have hrules := hasRulesOf_of_config h
  obtain ⟨fields, -, listenPort, proxyPorts, drafts, hlisten, hproxy, -, rfl⟩ :=
    config_eq_accepted_iff.1 h
  have hdefault : Config.defaultListenPort.IsPort :=
    ⟨58080, by decide, by decide, by decide +kernel⟩
  have hports : ∀ n ∈ proxyPorts.getD [], n.IsPort :=
    getD_of_optional (P := fun ports : List Number => ∀ n ∈ ports, n.IsPort)
      (fun _ _ => forall_of_list fun _ _ => isPort_of_port) (List.forall_mem_nil _) hproxy
  refine ⟨getD_of_optional (fun _ _ => isPort_of_port) hdefault hlisten, hports, ?_⟩
  intro r hr
  obtain ⟨index, hindex, hat⟩ := List.getElem_of_mem hr
  have hdocument : index < (Document.rules document).length := hrules.length_eq ▸ hindex
  have hread := hrules.isReadFrom index r _ (List.getElem?_eq_some_iff.2 ⟨hindex, hat⟩)
    (List.getElem?_eq_getElem hdocument)
  exact isValid_of_isReadFrom hread

end Schema

/-- Any document stands for a valid configuration with the rules of the document in their order, or
is invalid, with issues that are reported together with the file. -/
theorem Config.isValid_or_invalid (document : Option Document) (file : Option String) :
    match ofDocument document file with
    | .ok config => config.IsValid ∧ config.HasRulesOf (Document.rules document)
    | .error fault => ∃ issues, issues ≠ [] ∧ fault = ⟨file, .invalid issues⟩ := by
  have hreasoned := Schema.isReasoned_config document
  unfold ofDocument
  cases hread : Schema.config document with
  | accepted config =>
      exact ⟨Schema.isValid_of_config hread, Schema.hasRulesOf_of_config hread⟩
  | rejected issues kindFits =>
      rw [hread] at hreasoned
      exact ⟨issues, hreasoned, rfl⟩

/-- A rule without name is named for its position, and only the path of its selector is kept. -/
example :
    (Config.ofDocument (some (.record [
      ("proxy_ports", .null),
      ("rules", .list [.record [
        ("target", .text "Request"),
        ("selector", .record [("path", .text "/a?b")])]])])) none).toOption =
      some ⟨58080, [], [⟨"rule-0", .request, { path := some "/a" }, {}⟩]⟩ := by
  decide +kernel

/-- The configuration of a file is that of the document that its text stands for. -/
theorem Config.exists_of_load {files : Files} {path : String} {config : Config}
    (h : load files path = .ok config) :
    ∃ extension content document, decode extension content = .ok document ∧
      ofDocument (some document) (some path) = .ok config := by
  unfold load at h
  split at h
  · rename_i content hcontent
    unfold ofText at h
    split at h
    · rename_i document hdocument
      exact ⟨_, content, document, hdocument, h⟩
    · cases h
  · cases h

/-- A file holds no configuration but a valid one, whatever its notation. -/
theorem Config.isValid_of_load {files : Files} {path : String} {config : Config}
    (h : load files path = .ok config) : config.IsValid := by
  obtain ⟨extension, content, document, -, hdocument⟩ := exists_of_load h
  exact Schema.isValid_of_config (Schema.ofDocument_eq_ok_iff.1 hdocument)

end FaultInjection
