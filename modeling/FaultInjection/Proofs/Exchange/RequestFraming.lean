import FaultInjection.Proofs.Exchange.Conclusion
import FaultInjection.Proofs.Framing

/-!
# Exchanges - How a request is framed

What frames the body of a request on its way to the next server is settled anew when it
goes out, after the rules.  Whatever headers the request arrived with, and whatever the
rules made of them, one length at most is sent with it, which is that of the body that
goes out; a transfer encoding never is.  All other headers go out as the rules left them.

Main definitions:

- `Forwarded.Frames`, a message that sends the body of a request with its exact length.

Main results:

- `Destination.frames_forwarded`: a request is forwarded as such a message.
- `Course.requestFraming_run`: whatever any course forwards is such a message.
-/

namespace FaultInjection

open Framing

/-- A message sends the body of a request with fields that frame it by its exact length alone,
where the headers framed a body in any way or there is one, and are otherwise the headers. -/
structure Forwarded.Frames (message : Forwarded) (request : Request) : Prop where
  body : message.body = request.body
  sent : ∃ sent : Headers, message.fields = sent.toRecord ∧
    sent.Frames request.headers message.body
  noEncoding : message.fields.get? transferEncoding = none
  noNeighbour : message.fields.get? neighbourConnection = none
  length : message.fields.get? contentLength =
    (request.headers.exactLength? message.body).map .single

/-- A request is forwarded with its body framed. -/
theorem Destination.frames_forwarded (destination : Destination) (request : Request) :
    (destination.forwarded request).Frames request := by
  have hframes := request.headers.frames_framed request.body
  constructor
  · rfl
  · exact ⟨_, rfl, hframes⟩
  · exact hframes.transferEncoding_toRecord
  · exact hframes.neighbourConnection_toRecord
  · exact hframes.contentLength_toRecord

namespace Exchange

namespace Course

/-- Whatever any course forwards is a request that was read whole, as the rules left it, with its
body framed. -/
theorem requestFraming_run [Domain.Mapping] (id : Nat) (start : Number) (config : Config)
    (arrival : Arrival) (client : Client) (trace : List (Number × Event)) :
    ∀ message ∈ ((Course.start id start (.ok config) arrival client).run trace).forwards,
      ∃ intake body request, takeIn (rulesFor config) arrival = .ok intake ∧
        RequestWhole (trace.map Prod.snd) body ∧
        (intake.onRequest body).result = .ok request ∧ message.Frames request := by
  intro message hmessage
  rcases forwards_run id start config arrival client trace with
    hnone | ⟨intake, request, htake, hforwards, body, hreading, hpassed⟩
  · rw [hnone] at hmessage
    cases hmessage
  · rw [hforwards, List.mem_singleton] at hmessage
    rw [told_run_start, requestReading_eq_complete_iff] at hreading
    subst hmessage
    exact ⟨intake, body, request, htake, hreading, hpassed,
      intake.destination.frames_forwarded request⟩

/-! ## Lengths that contradict each other -/

/-- A rule that gives requests another body, and more headers that frame one. -/
def contradiction : Config where
  listenPort := 58080
  proxyPorts := [80]
  rules := [{
    name := "contradiction"
    side := .request
    selector := {}
    actions := {
      append := some {
        headers := some [("CONTENT-Length", "999"), ("proxy-CONNECTION", "close"), ("X-B", "3")] }
      replace := some {
        body := some [79, 75]
        headers := some [("Transfer-ENCODING", "gzip")] } } }]

/-- A request that is framed in three ways. -/
def framedThrice : Arrival := {
  method := some "POST"
  target := some "http://h/"
  headers := ["Content-Length", "3", "X-B", "1", "Transfer-Encoding", "chunked", "X-A", "2",
    "content-length", "5"] }

/-- The length of the new body is the only one that goes out. -/
theorem requestFraming_run_contradiction :
    let trace : List (Number × Event) := [(0, .requestChunk [1, 2, 3]), (1, .requestEnd)]
    ∃ message ∈ ((Course.start 1 0 (.ok contradiction) framedThrice {}).run trace).forwards,
      message.body = [79, 75] ∧
      message.fields = [("x-b", .several [.text "1", .text "3"]), ("x-a", .single "2"),
        ("content-length", .single "2")] ∧
      ∃ intake body request, takeIn (rulesFor contradiction) framedThrice = .ok intake ∧
        RequestWhole (trace.map Prod.snd) body ∧
        (intake.onRequest body).result = .ok request ∧ message.Frames request := by
  intro trace
  obtain ⟨message, hmessage, hbody, hfields⟩ : ∃ message ∈
      ((Course.start 1 0 (.ok contradiction) framedThrice {}).run trace).forwards,
      message.body = [79, 75] ∧
      message.fields = [("x-b", .several [.text "1", .text "3"]), ("x-a", .single "2"),
        ("content-length", .single "2")] := by
    decide +kernel
  exact ⟨message, hmessage, hbody, hfields,
    requestFraming_run 1 0 contradiction framedThrice {} trace message hmessage⟩

end Course

end Exchange

end FaultInjection
