import FaultInjection.Proofs.Trial

/-!
# Rules - The first rule that matches

The first rule that selects a message decides about it.  What becomes of the message, under
any cancellation, is what the actions of this rule alone make of it; rules that stand after
it play no part, nor do those before it that select no such message.

Main definitions:

- `Rule.SelectsRequest` and `Rule.SelectsResponse`, for a rule whose side and selector fit.
- `Rule.DecideByFirst`, for rules of which the first that selects a message decides.

Main results:

- `Rule.decideByFirst`: on either side the first rule decides.
-/

namespace FaultInjection

namespace Rule

/-- A rule is for requests and selects a request that arrived for a port. -/
def SelectsRequest (port : Number) (request : Request) (rule : Rule) : Prop :=
  rule.side = .request ∧ rule.selector.matchesRequest port request = true

/-- A rule is for responses and selects a response to an inbound request. -/
def SelectsResponse (inbound : Inbound) (response : Response) (rule : Rule) : Prop :=
  rule.side = .response ∧ rule.selector.matchesResponse inbound response = true

instance (port : Number) (request : Request) (rule : Rule) :
    Decidable (SelectsRequest port request rule) :=
  inferInstanceAs (Decidable (_ ∧ _))

instance (inbound : Inbound) (response : Response) (rule : Rule) :
    Decidable (SelectsResponse inbound response rule) :=
  inferInstanceAs (Decidable (_ ∧ _))

/-- What is logged about the match of a rule. -/
def matchEntry (words : String) (rule : Rule) : Log.Entry := {
  level := .debug
  scope := logScope
  message := "[rule:" ++ rule.name ++ "] matched " ++ words }

/-- The verdict of a list of rules on a message is that of the actions of the first rule that
selects it; `entry` is what is logged about the match. -/
structure DecideByFirst {α : Type} (selects : Rule → Prop) (verdict : List Rule → Verdict α)
    (alone : Actions → Verdict α) (entry : Rule → Log.Entry) (message : α) : Prop where
  /-- The first rule is reported, and its actions are carried out as they are on their own.  The
  rules after it may be any others, and those before it any that do not select the message. -/
  first : ∀ rules, (∃ rule ∈ rules, selects rule) →
    ∃ before rule after, rules = before ++ rule :: after ∧
      (∀ other ∈ before, ¬ selects other) ∧ selects rule ∧
      (verdict rules).ruleName? = some rule.name ∧
      (∀ plan threshold (trial : Trial),
        trial.carryOut plan threshold (verdict rules) =
          (trial.logged threshold [entry rule]).carryOut plan threshold (alone rule.actions)) ∧
      ∀ before' after', (∀ other ∈ before', ¬ selects other) →
        verdict (before' ++ rule :: after') = verdict rules
  /-- Without such a rule the message passes as it is: no rule is reported, and the trial has no
  further timer, entry or moment. -/
  passes : ∀ rules, (∀ rule ∈ rules, ¬ selects rule) →
    (verdict rules).ruleName? = none ∧
      ∀ plan threshold (trial : Trial),
        trial.carryOut plan threshold (verdict rules) = (trial, .ok message)

/-- The first rule that passes a test is found behind any rules that fail it. -/
theorem find?_append_cons {test : Rule → Bool} {before : List Rule} {rule : Rule}
    (hbefore : ∀ other ∈ before, ¬ test other = true) (hrule : test rule = true)
    (after : List Rule) : (before ++ rule :: after).find? test = some rule := by
  rw [List.find?_append, List.find?_eq_none.2 hbefore, Option.none_or,
    List.find?_cons_of_pos hrule]

/-- A verdict by the rule that is found first is one by the first rule that selects the message. -/
theorem decideByFirst_of_find? {α : Type} {selects : Rule → Prop} {test : Rule → Bool}
    {verdict : List Rule → Verdict α} {alone : Actions → Verdict α} {words : String} {message : α}
    (htest : ∀ rule, test rule = true ↔ selects rule)
    (hsilent : ∀ actions, (alone actions).notices = [])
    (hverdict : ∀ rules, verdict rules =
      match rules.find? test with
      | none => .pass message
      | some rule => .ofRule rule words (alone rule.actions)) :
    DecideByFirst selects verdict alone (matchEntry words) message := by
  have hfirst : ∀ before rule after, (∀ other ∈ before, ¬ selects other) → selects rule →
      verdict (before ++ rule :: after) = .ofRule rule words (alone rule.actions) := by
    intro before rule after hbefore hrule
    have hothers : ∀ other ∈ before, ¬ test other = true :=
      fun other hother => mt (htest other).1 (hbefore other hother)
    rw [hverdict, find?_append_cons hothers ((htest rule).2 hrule)]
  constructor
  · rintro rules ⟨chosen, hmem, hchosen⟩
    have hsome : (rules.find? test).isSome = true :=
      List.find?_isSome.2 ⟨chosen, hmem, (htest chosen).2 hchosen⟩
    obtain ⟨rule, hfound⟩ := Option.isSome_iff_exists.1 hsome
    obtain ⟨hrule, before, after, rfl, hbefore⟩ := List.find?_eq_some_iff_append.1 hfound
    have hselects : selects rule := (htest rule).1 hrule
    have hothers : ∀ other ∈ before, ¬ selects other := by
      intro other hother hselected
      have hfails := hbefore other hother
      rw [(htest other).2 hselected] at hfails
      cases hfails
    have hdecided := hfirst before rule after hothers hselects
    refine ⟨before, rule, after, rfl, hothers, hselects, ?_, ?_, ?_⟩
    · rw [hdecided]
      rfl
    · intro plan threshold trial
      rw [hdecided, Trial.carryOut_ofRule plan threshold trial (hsilent rule.actions)]
      rfl
    · intro before' after' hbefore'
      rw [hdecided, hfirst before' rule after' hbefore' hselects]
  · intro rules hnone
    have hfound : rules.find? test = none :=
      List.find?_eq_none.2 fun rule hrule => mt (htest rule).1 (hnone rule hrule)
    have hpass : verdict rules = .pass message := by rw [hverdict, hfound]
    constructor
    · rw [hpass]
      rfl
    · intro plan threshold trial
      rw [hpass, Trial.carryOut_pass]

/-- On either side the first rule that selects a message decides about it, and nothing else does. -/
theorem decideByFirst :
    (∀ port request, DecideByFirst (SelectsRequest port request) (onRequest · port request)
      (·.onRequest request) (matchEntry (request.method ++ " " ++ request.target.text)) request) ∧
    (∀ inbound response, DecideByFirst (SelectsResponse inbound response)
      (onResponse · inbound response) (·.onResponse response)
      (matchEntry (response.status.text ++ " for " ++ inbound.method ++ " " ++ inbound.target.text))
      response) := by
  constructor
  · intro port request
    refine decideByFirst_of_find? (fun rule => ?_) (fun _ => rfl) (fun _ => rfl)
    rw [Bool.and_eq_true, beq_iff_eq]
    rfl
  · intro inbound response
    refine decideByFirst_of_find? (fun rule => ?_) (fun _ => rfl) (fun _ => rfl)
    rw [Bool.and_eq_true, beq_iff_eq]
    rfl

/-- A rule decides behind one for responses and one for another path, and before one that drops. -/
theorem decideByFirst_behindOthers :
    let request : Request := ⟨"GET", { pathAndQuery := some ⟨"/a", none⟩ }, .empty, []⟩
    let tag : Rule :=
      ⟨"tag", .request, { path := some "/a" }, { append := some { headers := some [("x", "1")] } }⟩
    let rules : List Rule := [
      ⟨"other side", .response, {}, { abort := true }⟩,
      ⟨"other path", .request, { path := some "/b" }, { abort := true }⟩,
      tag,
      ⟨"too late", .request, {}, { abort := true }⟩]
    (∃ rule ∈ rules, SelectsRequest 80 request rule) ∧
      (onRequest rules 80 request).ruleName? = some "tag" ∧
      ∀ plan threshold (trial : Trial),
        trial.carryOut plan threshold (onRequest rules 80 request) =
          (trial.logged threshold [matchEntry "GET /a" tag]).carryOut plan threshold
            (tag.actions.onRequest request) := by
  intro request tag rules
  have hselects : SelectsRequest 80 request tag := by decide +kernel
  have hmem : tag ∈ rules := by simp [rules]
  obtain ⟨before, rule, after, hrules, hbefore, hrule, hname, hcarried, -⟩ :=
    (decideByFirst.1 80 request).first rules ⟨tag, hmem, hselects⟩
  have hreported : (onRequest rules 80 request).ruleName? = some "tag" := by decide +kernel
  have hsame : rule = tag := by
    have hin : rule ∈ rules := by simp [hrules]
    have hcalled : rule.name = "tag" := Option.some.inj (hname.symm.trans hreported)
    simp only [rules, List.mem_cons, List.not_mem_nil, or_false] at hin
    rcases hin with rfl | rfl | rfl | rfl
    · exact absurd hcalled (by decide)
    · exact absurd hcalled (by decide)
    · rfl
    · exact absurd hcalled (by decide)
  exact ⟨⟨tag, hmem, hselects⟩, hreported, hsame ▸ hcarried⟩

end Rule

end FaultInjection
