import FaultInjection.Proofs.Exchange.Progress
import FaultInjection.Proofs.Framing

/-!
# Exchanges - Answers that frame their bodies

An exchange that ends as forwarded has sent its client the head and the body of the
response, after the rules.  The head frames the body, save in one case: the request
went out as a request for a head alone, no rule gave the response a body, and the
response does not frame its empty body itself.  A rule can make such a request of one
for which the client awaits a body.

Main results:

- `Course.answered_of_forwarded`: what the client of a forwarded exchange was sent.
- `Course.framesBody_iff`: exactly when the head frames the body.
-/

namespace FaultInjection

namespace Exchange

namespace Course

/-- A failure is never recorded as a forwarding. -/
theorem failureEnd_ne_forwarded (x : Exchange) (now : Number) (failure : Failure) :
    (x.failureEnd now failure).1 ≠ .forwarded := by
  unfold failureEnd
  split <;> simp

/-- An exchange that ended as forwarded has sent its client the response that the rules made of
the response that was read. -/
theorem answered_of_forwarded {intake : Intake} {client : Client} {c : Course}
    {update : History.Update} (htracks : c.Tracks intake client)
    (hclose : (.forwarded, update) ∈ c.closings) :
    ∃ request upstream held, c.HasForwarded intake request ∧
      responseReading c.replies = .complete upstream ∧
      (intake.onResponse upstream).Holds held ∧
      update.status = some (some held.message.status) ∧
      c.exchange.client.sent = client.sent ++
        [.head held.message.status (answerFields request held), .body held.message.body] := by
  cases hstate : c.exchange.state with
  | active settled stage =>
      simp only [Tracks, hstate] at htracks
      simp [htracks.2.2.1] at hclose
  | ended =>
      simp only [Tracks, hstate] at htracks
      cases htracks with
      | failed x now failure hclient hexchange hclosings hfailing =>
          rw [hclosings, List.mem_singleton] at hclose
          exact absurd (congrArg Prod.fst hclose).symm (failureEnd_ne_forwarded x now failure)
      | answered x now request upstream held hclient hexchange hclosings hforwarded hreading
          hholds =>
          refine ⟨request, upstream, held, hforwarded, hreading, hholds, ?_⟩
          rw [hclosings, closings_releaseResponse] at hclose
          split at hclose
          · rename_i hanswer
            simp only [List.mem_singleton, Prod.mk.injEq, true_and] at hclose
            refine ⟨by rw [hclose], ?_⟩
            rw [hexchange, sent_releaseResponse x now intake request held hanswer, hclient]
          · rename_i cause hanswer
            rw [List.mem_singleton] at hclose
            exact absurd (congrArg Prod.fst hclose).symm (failureEnd_ne_forwarded x now _)

/-- A request whose exchange ended as forwarded has been taken in. -/
theorem exists_takeIn_of_forwarded [Domain.Mapping] {id : Nat} {start : Number} {config : Config}
    {arrival : Arrival} {client : Client} {trace : List (Number × Event)} {update : History.Update}
    (hclose : (.forwarded, update) ∈
      ((Course.start id start (.ok config) arrival client).run trace).closings) :
    ∃ intake, takeIn (rulesFor config) arrival = .ok intake := by
  cases htake : takeIn (rulesFor config) arrival with
  | ok intake => exact ⟨intake, rfl⟩
  | error refusal =>
      obtain ⟨code, message⟩ := refusal
      obtain ⟨-, hasked⟩ := run_of_takeIn_error id start client htake trace
      rw [closings_of_asked hasked, closings_refuse, List.mem_singleton] at hclose
      cases hclose

/-- An exchange that ended as forwarded with a status that allows a body has sent a head that
frames the body, unless it asked for a head alone and passed on what came back. -/
theorem framesBody_iff [Domain.Mapping] (id : Nat) (start : Number) (config : Config)
    (arrival : Arrival) (client : Client) (trace : List (Number × Event)) (update : History.Update)
    (status : Number)
    (hclose : (.forwarded, update) ∈
      ((Course.start id start (.ok config) arrival client).run trace).closings)
    (hupdate : update.status = some (some status))
    (hstatus : isBodilessStatus status = false) :
    let c := (Course.start id start (.ok config) arrival client).run trace
    ∃ intake request upstream response fields,
      takeIn (rulesFor config) arrival = .ok intake ∧
      c.forwards = [intake.destination.forwarded request] ∧
      responseReading c.replies = .complete upstream ∧
      (intake.onResponse upstream).result = .ok response ∧
      c.exchange.client.sent = client.sent ++ [.head status fields, .body response.body] ∧
      (Framing.FramesBody fields response.body ↔
        request.method ≠ "HEAD" ∨
        (intake.onResponse upstream).rule.any (·.actions.replacesBody) = true ∨
        response.headers.FramesBody response.body) := by
  intro c
  cases htake : takeIn (rulesFor config) arrival with
  | error refusal =>
      obtain ⟨code, message⟩ := refusal
      obtain ⟨-, hasked⟩ := run_of_takeIn_error id start client htake trace
      rw [closings_of_asked hasked, closings_refuse, List.mem_singleton] at hclose
      cases hclose
  | ok intake =>
      have htracks := tracks_run id start client htake trace
      obtain ⟨request, upstream, held, hforwarded, hreading, hholds, hrecorded, hsent⟩ :=
        answered_of_forwarded htracks hclose
      have hsame : held.message.status = status := by
        simpa [hupdate] using hrecorded.symm
      refine ⟨intake, request, upstream, held.message, answerFields request held, rfl,
        hforwarded.1, hreading, hholds.1, ?_, ?_⟩
      · rw [hsent, hsame]
      · rw [answerFields, Headers.framesBody_toRecord_iff, hholds.2, hsame,
          Headers.framesBody_responseHeaders_iff _ _ _ _ hstatus]

/-! ## A head for a client that awaits a body -/

/-- A rule that asks for the head alone of whatever is requested. -/
def headProbe : Config where
  listenPort := 58080
  proxyPorts := []
  rules := [{
    name := "probe"
    side := .request
    selector := {}
    actions := { replace := some { method := some "HEAD" } } }]

/-- A request for a body. -/
def bodyRequest : Arrival := { method := some "GET", target := some "http://h/a" }

/-- The request is complete, and the head of a body of eleven bytes comes back. -/
def headAnswered : List (Number × Event) := [
  (0, .requestEnd),
  (0, .responseHead (some 200) (.ofFlat ["Content-Length", "11"])),
  (0, .responseEnd)]

/-- What is recorded when the head is passed on. -/
def headForwarded : History.Update := { status := some (some 200), duration := some (some 0) }

/-- The exchange whose request was turned into one for a head alone ends as forwarded. -/
theorem framesBody_iff_headProbe :
    let c := (Course.start 1 0 (.ok headProbe) bodyRequest {}).run headAnswered
    (.forwarded, headForwarded) ∈ c.closings ∧
      headForwarded.status = some (some 200) ∧ isBodilessStatus 200 = false ∧
      ∃ intake request upstream response fields,
        takeIn (rulesFor headProbe) bodyRequest = .ok intake ∧
        c.forwards = [intake.destination.forwarded request] ∧
        responseReading c.replies = .complete upstream ∧
        (intake.onResponse upstream).result = .ok response ∧
        c.exchange.client.sent = [] ++ [.head 200 fields, .body response.body] ∧
        (Framing.FramesBody fields response.body ↔
          request.method ≠ "HEAD" ∨
          (intake.onResponse upstream).rule.any (·.actions.replacesBody) = true ∨
          response.headers.FramesBody response.body) :=
  ⟨by decide +kernel, rfl, by decide +kernel,
    framesBody_iff 1 0 headProbe bodyRequest {} headAnswered headForwarded 200
      (by decide +kernel) rfl (by decide +kernel)⟩

/-- A client that did not ask for a head alone can be sent a length that its body does not
have. -/
theorem not_forall_framesBody :
    ¬ ∀ (config : Config) (arrival : Arrival) (trace : List (Number × Event))
      (update : History.Update) (status : Number) (fields : Record HeaderRecord.Value)
      (body : Bytes),
      let c := (Course.start 1 0 (.ok config) arrival {}).run trace
      arrival.methodText ≠ "HEAD" → (.forwarded, update) ∈ c.closings →
      update.status = some (some status) → isBodilessStatus status = false →
      c.exchange.client.sent = [.head status fields, .body body] →
      Framing.FramesBody fields body := by
  intro hframes
  have hprobed := hframes headProbe bodyRequest headAnswered headForwarded 200
    [("content-length", .single "11")] [] (by decide +kernel) (by decide +kernel) rfl
    (by decide +kernel) (by decide +kernel)
  exact absurd hprobed (by decide +kernel)

end Course

end Exchange

end FaultInjection
