import FaultInjection.Proofs.Exchange.Answer
import FaultInjection.Proofs.Exchange.Conclusion
import FaultInjection.Proofs.Target.Forms

/-!
# Exchanges - Messages that no rule is for

Where no rule is for an exchange, the request goes out and the response comes back as
they are: method, path and query, status and both bodies stay the same, and of the
headers only those change that frame a body or are for the next neighbour.

Main definitions:

- `Config.LeavesAlone`, a configuration without a rule for an exchange.

Main results:

- `Intake.onRequest_of_leavesAlone` and `Intake.onResponse_of_leavesAlone`: without a
  rule messages pass.
- `Course.transparent_of_forwarded`: what is forwarded and answered without a rule.
-/

namespace FaultInjection

/-! ## Configurations without a rule for an exchange -/

/-- No rule is for an exchange: rules are not for its port, or none of those for requests selects
its request and none of those for responses its response. -/
def Config.LeavesAlone (config : Config) (intake : Intake) (body : Bytes) (upstream : Response) :
    Prop :=
  config.coversPort intake.port = false ∨
    ∀ rule ∈ config.rules,
      match rule.side with
      | .request => rule.selector.matchesRequest intake.port (intake.request body) = false
      | .response => rule.selector.matchesResponse intake.inbound upstream = false

namespace Intake

section Rules

variable {config : Config} {intake : Intake} {body : Bytes} {upstream : Response}
  (hrules : intake.rules = Exchange.rulesFor config intake.destination)
  (halone : config.LeavesAlone intake body upstream)

include hrules halone

/-- None of the rules that are in force selects its message. -/
theorem unselected_of_mem {rule : Rule} (hmem : rule ∈ intake.rules) :
    match rule.side with
    | .request => rule.selector.matchesRequest intake.port (intake.request body) = false
    | .response => rule.selector.matchesResponse intake.inbound upstream = false := by
  rw [hrules, Exchange.rulesFor, Config.rulesFor] at hmem
  rcases halone with hport | hrule
  · rw [port] at hport
    simp [hport] at hmem
  · split at hmem
    · exact hrule rule hmem
    · cases hmem

/-- Without a rule for it a request passes as it is. -/
theorem onRequest_of_leavesAlone : intake.onRequest body = .pass (intake.request body) := by
  have hnone : Rule.firstForRequest? intake.rules intake.port (intake.request body) = none := by
    refine List.find?_eq_none.2 fun rule hmem => ?_
    have hunselected := unselected_of_mem hrules halone hmem
    cases hside : rule.side with
    | request => simpa [hside] using hunselected
    | response => simp
  rw [onRequest, Rule.onRequest, hnone]

/-- Without a rule for it a response passes as it is. -/
theorem onResponse_of_leavesAlone : intake.onResponse upstream = .pass upstream := by
  have hnone : Rule.firstForResponse? intake.rules intake.inbound upstream = none := by
    refine List.find?_eq_none.2 fun rule hmem => ?_
    have hunselected := unselected_of_mem hrules halone hmem
    cases hside : rule.side with
    | request => simp
    | response => simpa [hside] using hunselected
  rw [onResponse, Rule.onResponse, hnone]

end Rules

end Intake

/-! ## Fields of responses -/

/-- The headers that are passed on from a response: those of one without a body as they are, save
for the next neighbour, and those of any other with the length of its body. -/
def Response.passedOn (response : Response) (method : String) : Headers :=
  if isBodiless method response.status then
    response.headers.erase Framing.neighbourConnection
  else response.headers.passedOn response.body.length

namespace Exchange

/-- A response that no rule has changed is sent with the headers that are passed on. -/
theorem answerFields_of_unchanged (request : Request) {held : Held Response}
    (hrule : held.rule = none) :
    answerFields request held = (held.message.passedOn request.method).toRecord := by
  simp only [answerFields, responseHeaders, Response.passedOn, hrule, Option.any_none,
    Bool.not_false, Bool.and_true, Headers.framed_eq_passedOn]

namespace Course

/-- An exchange that ends as forwarded, and that no rule is for, has forwarded the request that
arrived and has answered with the response that came back. -/
theorem transparent_of_forwarded [Domain.Mapping] (id : Nat) (start : Number) (config : Config)
    (arrival : Arrival) (client : Client) (trace : List (Number × Event)) (update : History.Update)
    (hclose : (.forwarded, update) ∈
      ((Course.start id start (.ok config) arrival client).run trace).closings)
    (halone : ∀ intake body upstream, takeIn (rulesFor config) arrival = .ok intake →
      RequestWhole (trace.map Prod.snd) body →
      ResponseWhole ((Course.start id start (.ok config) arrival client).run trace).replies
        upstream →
      config.LeavesAlone intake body upstream) :
    let c := (Course.start id start (.ok config) arrival client).run trace
    ∃ intake path body upstream, takeIn (rulesFor config) arrival = .ok intake ∧
      Target.AsksFor arrival.targetText path ∧
      RequestWhole (trace.map Prod.snd) body ∧ ResponseWhole c.replies upstream ∧
      c.forwards = [{
        host := intake.destination.host
        port := intake.destination.port
        method := arrival.methodText
        path
        fields := (arrival.headerList.passedOn body.length).toRecord
        body }] ∧
      c.exchange.client.sent = client.sent ++
        [.head upstream.status (upstream.passedOn arrival.methodText).toRecord,
          .body upstream.body] := by
  intro c
  cases htake : takeIn (rulesFor config) arrival with
  | error refusal =>
      obtain ⟨status, message⟩ := refusal
      obtain ⟨-, hasked⟩ := run_of_takeIn_error id start client htake trace
      rw [closings_of_asked hasked, closings_refuse, List.mem_singleton] at hclose
      cases hclose
  | ok intake =>
      have htracks : c.Tracks intake client := tracks_run id start client htake trace
      obtain ⟨request, upstream, held, ⟨hforwards, body, hread, hpassed⟩, hreading, hholds, -,
        hsent⟩ := answered_of_forwarded htracks hclose
      rw [told_run_start, requestReading_eq_complete_iff] at hread
      rw [responseReading_eq_complete_iff] at hreading
      obtain ⟨hparse, hmethod, hheaders, hrules⟩ := settled_of_takeIn htake
      have halone := halone intake body upstream htake hread hreading
      -- Neither message is changed, so what is sent is made of what was read.
      rw [Intake.onRequest_of_leavesAlone hrules halone] at hpassed
      obtain rfl : intake.request body = request := Except.ok.inj hpassed
      rw [Verdict.Holds, Intake.onResponse_of_leavesAlone hrules halone] at hholds
      obtain ⟨hmessage, hrule⟩ := hholds
      have hmessage : upstream = held.message := Except.ok.inj hmessage
      refine ⟨intake, intake.target.forwardedPath, body, upstream, rfl,
        Target.asksFor_of_parse hparse, hread, hreading, ?_, ?_⟩
      · rw [hforwards, Destination.forwarded, Headers.framed_eq_passedOn]
        simp only [Intake.request, hmethod, hheaders]
      · rw [hsent, answerFields_of_unchanged _ hrule.symm, ← hmessage, ← hmethod]
        rfl

/-! ## A response that the only rule is not for -/

/-- A request with a body in parts. -/
def submission : Arrival := {
  method := some "POST"
  target := some "http://h?a=b"
  headers := ["Host", "h", "Transfer-Encoding", "chunked", "X-A", "1"] }

/-- The request is complete in two pieces, and what it asks for is not there. -/
def missing : List (Number × Event) := [
  (0, .requestChunk [1]),
  (1, .requestChunk [2]),
  (2, .requestEnd),
  (5, .responseHead (some 404) (.ofFlat ["Proxy-Connection", "close"])),
  (6, .responseEnd)]

/-- What is recorded of the response. -/
def missed : History.Update := { status := some (some 404), duration := some (some 6) }

/-- The request goes out with its query and its length, and the response comes back. -/
theorem transparent_of_forwarded_missing :
    let c := (Course.start 1 0 (.ok outage) submission {}).run missing
    c.forwards = [{
      host := "h"
      port := 80
      method := "POST"
      path := "/?a=b"
      fields := [("host", .single "h"), ("x-a", .single "1"), ("content-length", .single "2")]
      body := [1, 2] }] ∧
    ∃ intake path body upstream, takeIn (rulesFor outage) submission = .ok intake ∧
      Target.AsksFor submission.targetText path ∧
      RequestWhole (missing.map Prod.snd) body ∧ ResponseWhole c.replies upstream ∧
      c.forwards = [{
        host := intake.destination.host
        port := intake.destination.port
        method := submission.methodText
        path
        fields := (submission.headerList.passedOn body.length).toRecord
        body }] ∧
      c.exchange.client.sent = [] ++
        [.head upstream.status (upstream.passedOn submission.methodText).toRecord,
          .body upstream.body] := by
  refine ⟨by decide +kernel, transparent_of_forwarded 1 0 outage submission {} missing missed
    (by decide +kernel) ?_⟩
  -- The rule is for another status.
  intro intake body upstream _ _ hwhole
  have hstatus : upstream.status = 404 := by
    have hread : (match responseReading
          ((Course.start 1 0 (.ok outage) submission {}).run missing).replies with
        | .complete response => response.status
        | _ => 404) = 404 := by
      decide +kernel
    rwa [responseReading_eq_complete_iff.2 hwhole] at hread
  refine .inr fun rule hrule => ?_
  rw [outage, List.mem_singleton] at hrule
  rw [hrule]
  have hother : (200 : Number).same upstream.status = false := by
    rw [hstatus]
    decide +kernel
  simp [Selector.matchesResponse, hother]

end Course

end Exchange

end FaultInjection
