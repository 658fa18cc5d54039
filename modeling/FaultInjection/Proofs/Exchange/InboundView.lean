import FaultInjection.Proofs.Exchange.Answer
import FaultInjection.Proofs.Exchange.Destination
import FaultInjection.Trial
import Mathlib.Data.List.Forall2

/-!
# Exchanges - Rules for responses and the inbound request

Rules for responses look at the request as it came in, and not at the one that went out.
So it makes no difference to them what a rule for requests does to its target, method,
headers or body: two lists of rules that differ in nothing else select the same rule for a
response and make the same of it.

Main definitions:

- `Rule.SameForResponses`, for rules that differ at most in what they do to requests.
- `Rule.RespondAlike`, for two lists of rules behind a request that both let pass.

Main results:

- `Rule.onResponse_eq`: such lists give the same verdict on a response.
- `Exchange.Course.respondAlike`: they treat responses alike, on their own and in exchanges.
-/

namespace FaultInjection

/-! ## Lists that are alike item by item -/

/-- Of two lists that are alike item by item, the first items that pass a test look alike, if alike
items pass the same tests and look alike where they pass. -/
theorem map_find?_of_forall₂ {α β : Type} {alike : α → α → Prop} {test : α → Bool} {view : α → β}
    (htest : ∀ a b, alike a b → test a = test b)
    (hview : ∀ a b, alike a b → test a = true → view a = view b)
    {first second : List α} (h : List.Forall₂ alike first second) :
    (first.find? test).map view = (second.find? test).map view := by
  induction h with
  | nil => rfl
  | @cons a b first second hab _ ih =>
      have hsame := htest a b hab
      cases ha : test a with
      | true =>
          rw [List.find?_cons_of_pos ha, List.find?_cons_of_pos (hsame ▸ ha), Option.map_some,
            Option.map_some, hview a b hab ha]
      | false =>
          have hb : test b = false := hsame ▸ ha
          rw [List.find?_cons_of_neg (by simp [ha]), List.find?_cons_of_neg (by simp [hb]), ih]

namespace Rule

/-! ## Rules that differ in what they do to requests -/

/-- Two rules differ at most in what they do to requests. -/
structure SameForResponses (rule other : Rule) : Prop where
  name : rule.name = other.name
  side : rule.side = other.side
  selector : rule.selector = other.selector
  actions : rule.side = .response → rule.actions = other.actions

/-- Rules for responses that differ at most in what they do to requests are the same. -/
theorem SameForResponses.eq {rule other : Rule} (h : SameForResponses rule other)
    (hside : rule.side = .response) : rule = other := by
  cases rule
  cases other
  simp only [mk.injEq]
  exact ⟨h.name, h.side, h.selector, h.actions hside⟩

section Verdicts

variable {first second : List Rule} (halike : List.Forall₂ SameForResponses first second)

include halike

/-- The rules that are applied to a request have the same name. -/
theorem ruleName?_onRequest_eq (port : Number) (request : Request) :
    (onRequest first port request).ruleName? = (onRequest second port request).ruleName? := by
  have hname : (firstForRequest? first port request).map Rule.name =
      (firstForRequest? second port request).map Rule.name := by
    refine map_find?_of_forall₂ (fun rule other h => ?_) (fun _ _ h _ => h.name) halike
    rw [h.side, h.selector]
  simpa only [Verdict.ruleName?, rule_onRequest, ← firstForRequest?_eq_head?] using hname

/-- The verdict on a response is the same, with the rule that decides. -/
theorem onResponse_eq (inbound : Inbound) (response : Response) :
    onResponse first inbound response = onResponse second inbound response := by
  have hrule : (firstForResponse? first inbound response).map id =
      (firstForResponse? second inbound response).map id := by
    refine map_find?_of_forall₂ (fun rule other h => ?_) (fun rule other h hselects => ?_) halike
    · rw [h.side, h.selector]
    · exact h.eq (by simpa using (Bool.and_eq_true_iff.1 hselects).1)
  rw [Option.map_id, id, id] at hrule
  rw [onResponse, onResponse, hrule]

end Verdicts

/-- What rules for responses make of the same request, when it has come through two lists of
rules. -/
structure RespondAlike (first second : List Rule) (port : Number) (request : Request)
    (passed other : Trial.PassedRequest) : Prop where
  /-- The view that they have is that of the request as it came in. -/
  inbound : passed.inbound = ⟨port, request.target, request.method, request.headers⟩
  inbound_eq : other.inbound = passed.inbound
  ruleName_eq : other.ruleName = passed.ruleName
  /-- The same rule, or none, is selected for a response, with the same result. -/
  verdict_eq : ∀ response, onResponse second other.inbound response =
    onResponse first passed.inbound response
  /-- Whatever cancels the delay of a response, the same becomes of it. -/
  passResponse_eq : ∀ plan threshold (trial : Trial) response,
    trial.passResponse plan threshold second other.inbound response =
      trial.passResponse plan threshold first passed.inbound response

end Rule

namespace Trial

variable {plan : Cancellation} {threshold : Log.Level} {t : Trial} {rules : List Rule}
  {port : Number} {request : Request} {passed : PassedRequest}

/-- A request that comes through the rules is viewed as it came in, and reported with the rule that
was applied. -/
theorem eq_of_passRequest (h : (t.passRequest plan threshold rules port request).2 = .ok passed) :
    passed.inbound = request.inbound port ∧
      passed.ruleName = (Rule.onRequest rules port request).ruleName? := by
  simp only [passRequest] at h
  cases hout : (t.carryOut plan threshold (Rule.onRequest rules port request)).2 with
  | error failure =>
      rw [hout] at h
      cases h
  | ok changed =>
      rw [hout] at h
      obtain rfl := Except.ok.inj h
      exact ⟨rfl, rfl⟩

end Trial

/-- A request that has come through two lists of rules is viewed in the same way by those for
responses, which treat a response alike. -/
theorem Rule.respondAlike_of_passRequest {first second : List Rule}
    (halike : List.Forall₂ SameForResponses first second) {port : Number} {request : Request}
    {plan plan' : Cancellation} {threshold threshold' : Log.Level} {trial trial' : Trial}
    {passed other : Trial.PassedRequest}
    (hfirst : (trial.passRequest plan threshold first port request).2 = .ok passed)
    (hsecond : (trial'.passRequest plan' threshold' second port request).2 = .ok other) :
    RespondAlike first second port request passed other := by
  obtain ⟨hview, hname⟩ := Trial.eq_of_passRequest hfirst
  obtain ⟨hview', hname'⟩ := Trial.eq_of_passRequest hsecond
  have hsame : other.inbound = passed.inbound := hview'.trans hview.symm
  have hverdict : ∀ response, onResponse second other.inbound response =
      onResponse first passed.inbound response := by
    intro response
    rw [hsame, onResponse_eq halike]
  refine ⟨hview, hsame, ?_, hverdict, fun plan threshold trial response => ?_⟩
  · rw [hname, hname', ruleName?_onRequest_eq halike]
  · simp only [Trial.passResponse, hverdict]

namespace Exchange

/-! ## Exchanges -/

/-- A request is viewed alike whatever the rules are that it is taken in under, and rules that
differ at most in what they do to requests give the same verdict on its response. -/
theorem onResponse_of_takeIn [Domain.Mapping] {config other : Config} {arrival : Arrival}
    {intake intake' : Intake} (hports : other.proxyPorts = config.proxyPorts)
    (halike : List.Forall₂ Rule.SameForResponses config.rules other.rules)
    (htake : takeIn (rulesFor config) arrival = .ok intake)
    (htake' : takeIn (rulesFor other) arrival = .ok intake') (upstream : Response) :
    intake'.onResponse upstream = intake.onResponse upstream := by
  obtain ⟨hparse, hmethod, hheaders, hrules⟩ := settled_of_takeIn htake
  obtain ⟨hparse', hmethod', hheaders', hrules'⟩ := settled_of_takeIn htake'
  have htarget : intake'.target = intake.target := Except.ok.inj (hparse'.symm.trans hparse)
  have hdestination : intake'.destination = intake.destination :=
    Option.some.inj ((destination_of_takeIn htake').symm.trans (destination_of_takeIn htake))
  have hinbound : intake'.inbound = intake.inbound := by
    simp only [Intake.inbound, Intake.port, htarget, hdestination, hmethod, hmethod', hheaders,
      hheaders']
  have hinForce : List.Forall₂ Rule.SameForResponses intake.rules intake'.rules := by
    have hcovers : other.coversPort = config.coversPort := by
      funext port
      rw [Config.coversPort, Config.coversPort, hports]
    rw [hrules, hrules', hdestination, rulesFor, rulesFor, Config.rulesFor, Config.rulesFor,
      hcovers]
    split
    · exact halike
    · exact .nil
  rw [Intake.onResponse, Intake.onResponse, hinbound, Rule.onResponse_eq hinForce]

namespace Course

/-- A response that an exchange has passed on is what the verdict on it says. -/
theorem answered_of_takeIn [Domain.Mapping] {id : Nat} {start : Number} {config : Config}
    {arrival : Arrival} {intake : Intake} {client : Client} {trace : List (Number × Event)}
    {update : History.Update} {upstream : Response}
    (htake : takeIn (rulesFor config) arrival = .ok intake)
    (hclose : (.forwarded, update) ∈
      ((Course.start id start (.ok config) arrival client).run trace).closings)
    (hwhole : ResponseWhole
      ((Course.start id start (.ok config) arrival client).run trace).replies upstream) :
    ∃ response fields, (intake.onResponse upstream).result = .ok response ∧
      update.status = some (some response.status) ∧
      ((Course.start id start (.ok config) arrival client).run trace).exchange.client.sent =
        client.sent ++ [.head response.status fields, .body response.body] := by
  obtain ⟨request, read, held, -, hreading, hholds, hstatus, hsent⟩ :=
    answered_of_forwarded (tracks_run id start client htake trace) hclose
  obtain rfl : upstream = read := by
    have hsame := (responseReading_eq_complete_iff.2 hwhole).symm.trans hreading
    cases hsame
    rfl
  exact ⟨held.message, _, hholds.1, hstatus, hsent⟩

/-- Two lists of rules that differ at most in what they do to requests treat the response to a
request alike.  That is so where the rules are applied to the two one after the other, whatever
cancels their delays, and in exchanges that pass on the same response, whatever else comes. -/
theorem respondAlike [Domain.Mapping] {first second : List Rule}
    (halike : List.Forall₂ Rule.SameForResponses first second) :
    (∀ port request plan plan' threshold threshold' (trial trial' : Trial) passed passed',
      (trial.passRequest plan threshold first port request).2 = .ok passed →
      (trial'.passRequest plan' threshold' second port request).2 = .ok passed' →
      Rule.RespondAlike first second port request passed passed') ∧
    ∀ (id id' : Nat) (start start' listenPort listenPort' : Number) (ports : List Number)
      (arrival : Arrival) (client client' : Client) (trace trace' : List (Number × Event))
      (update update' : History.Update) (upstream : Response),
      let c := (Course.start id start (.ok ⟨listenPort, ports, first⟩) arrival client).run trace
      let c' := (Course.start id' start' (.ok ⟨listenPort', ports, second⟩) arrival client').run
        trace'
      (.forwarded, update) ∈ c.closings → (.forwarded, update') ∈ c'.closings →
      ResponseWhole c.replies upstream → ResponseWhole c'.replies upstream →
      ∃ (response : Response) (fields fields' : Record HeaderRecord.Value),
        update.status = some (some response.status) ∧
        update'.status = some (some response.status) ∧
        c.exchange.client.sent =
          client.sent ++ [.head response.status fields, .body response.body] ∧
        c'.exchange.client.sent =
          client'.sent ++ [.head response.status fields', .body response.body] := by
  constructor
  · intro port request plan plan' threshold threshold' trial trial' passed passed' hfirst hsecond
    exact Rule.respondAlike_of_passRequest halike hfirst hsecond
  · intro id id' start start' listenPort listenPort' ports arrival client client' trace trace'
      update update' upstream c c' hclose hclose' hwhole hwhole'
    obtain ⟨intake, htake⟩ := exists_takeIn_of_forwarded hclose
    obtain ⟨intake', htake'⟩ := exists_takeIn_of_forwarded hclose'
    obtain ⟨response, fields, hresult, hstatus, hsent⟩ :=
      answered_of_takeIn htake hclose hwhole
    obtain ⟨response', fields', hresult', hstatus', hsent'⟩ :=
      answered_of_takeIn htake' hclose' hwhole'
    -- One verdict has one result, so the two responses that are passed on are the same.
    have hports : (Config.mk listenPort' ports second).proxyPorts =
        (Config.mk listenPort ports first).proxyPorts := rfl
    rw [onResponse_of_takeIn hports halike htake htake' upstream, hresult] at hresult'
    obtain rfl : response = response' := Except.ok.inj hresult'
    exact ⟨response, fields, fields', hstatus, hstatus', hsent, hsent'⟩

/-! ## A request that a rule leads elsewhere -/

/-- A rule that answers what was asked for as it came in. -/
def markRule : Rule where
  name := "mark"
  side := .response
  selector := { path := some "/a", method := some "GET", headers := some [("x", "1")] }
  actions := { replace := some { code := some 503 } }

/-- A rule that changes all that the other looks at. -/
def rerouteRule : Rule where
  name := "reroute"
  side := .request
  selector := {}
  actions := {
    replace := some { path := some "/b", method := some "POST", headers := some [("x", "2")] } }

/-- The rule that changes nothing about the same requests. -/
def idleRule : Rule := { rerouteRule with actions := {} }

/-- A request with a header. -/
def markedRequest : Arrival := { target := some "http://h/a", headers := ["X", "1"] }

/-- The request goes out changed or unchanged, and its response is marked in both cases. -/
theorem respondAlike_reroute :
    let first := [rerouteRule, markRule]
    let second := [idleRule, markRule]
    let inbound : Request := ⟨"GET", { pathAndQuery := some ⟨"/a", none⟩ }, ⟨[("X", "1")]⟩, []⟩
    let rerouted : Request := ⟨"POST", { pathAndQuery := some ⟨"/b", none⟩ }, ⟨[("x", "2")]⟩, []⟩
    let c := (Course.start 1 0 (.ok ⟨58080, [], first⟩) markedRequest {}).run servedInPieces
    let c' := (Course.start 2 0 (.ok ⟨58080, [], second⟩) markedRequest {}).run servedInPieces
    List.Forall₂ Rule.SameForResponses first second ∧
      Rule.RespondAlike first second 80 inbound ⟨rerouted, inbound.inbound 80, some "reroute"⟩
        ⟨inbound, inbound.inbound 80, some "reroute"⟩ ∧
      c.forwards.map Forwarded.path = ["/b"] ∧ c'.forwards.map Forwarded.path = ["/a"] ∧
      ∃ (response : Response) (fields fields' : Record HeaderRecord.Value),
        response.status = 503 ∧
        c.exchange.client.sent = [] ++ [.head response.status fields, .body response.body] ∧
        c'.exchange.client.sent = [] ++ [.head response.status fields', .body response.body] := by
  intro first second inbound rerouted c c'
  have halike : List.Forall₂ Rule.SameForResponses first second :=
    .cons ⟨rfl, rfl, rfl, nofun⟩ (.cons ⟨rfl, rfl, rfl, fun _ => rfl⟩ .nil)
  obtain ⟨hrules, hexchanges⟩ := respondAlike halike
  have hpassed : (Trial.passRequest {} .info {} first 80 inbound).2 =
      .ok ⟨rerouted, inbound.inbound 80, some "reroute"⟩ := by
    rfl
  have hpassed' : (Trial.passRequest {} .info {} second 80 inbound).2 =
      .ok ⟨inbound, inbound.inbound 80, some "reroute"⟩ := by
    rfl
  have hwhole : ∀ id rules,
      (Course.start id 0 (.ok ⟨58080, [], rules⟩) markedRequest {}).forwards = [] →
      ((Course.start id 0 (.ok ⟨58080, [], rules⟩) markedRequest {}).next 0 .requestEnd).forwards
        ≠ [] →
      ResponseWhole ((Course.start id 0 (.ok ⟨58080, [], rules⟩) markedRequest {}).run
        servedInPieces).replies ⟨200, .ofFlat ["Content-Length", "2"], [79, 75]⟩ := by
    intro id rules hnone hsome
    -- What comes once the request has gone out is news of the response, and nothing before.
    rw [servedInPieces, run_cons, replies_run_of_ne_nil hsome, next,
      replies_after_nil _ _ _ _ hnone]
    exact ⟨[], some 200, .ofFlat ["Content-Length", "2"],
      [.responseChunk [79], .responseChunk [75]], [], rfl, by simp,
      by simp [Event.endsResponse, Event.breaksResponse], rfl⟩
  obtain ⟨response, fields, fields', hstatus, -, hsent, hsent'⟩ :=
    hexchanges 1 2 0 0 58080 58080 [] markedRequest {} {} servedInPieces servedInPieces
      { status := some (some 503), duration := some (some 8) }
      { status := some (some 503), duration := some (some 8) }
      ⟨200, .ofFlat ["Content-Length", "2"], [79, 75]⟩ (by decide +kernel) (by decide +kernel)
      (hwhole 1 first (by decide +kernel) (by decide +kernel))
      (hwhole 2 second (by decide +kernel) (by decide +kernel))
  refine ⟨halike, hrules 80 inbound {} {} .info .info {} {} _ _ hpassed hpassed',
    by decide +kernel, by decide +kernel, response, fields, fields', ?_, hsent, hsent'⟩
  exact (Option.some.inj (Option.some.inj hstatus)).symm

end Course

end Exchange

end FaultInjection
