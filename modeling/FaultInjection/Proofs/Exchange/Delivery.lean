import FaultInjection.Proofs.Exchange.Conclusion
import FaultInjection.Proofs.Rule.Changes

/-!
# Exchanges - Bodies that are delivered

A body is passed on whole or not at all.  A request goes out only when all of its body
has been read, and a client is sent the body of a response only when all of that has
been read; each is the pieces in the order of their arrival, unless the rule that
decides about the message gives it another.  Nothing of a body that breaks off is
passed on.

Main definitions:

- `Client.bodies`, the bodies among what a client is sent.
- `Client.KeepsBodies`, for a client that is sent more, but no body.
- `Intake.requestBody` and `Intake.responseBody`, a body after the rules.

Main results:

- `Exchange.keepsBodies_fail`: a failure sends the client no body.
- `Course.bodies_of_tracks`: a client is sent no body but that of the whole response.
- `Course.delivery_run`: what any course passes on of the two bodies.
-/

namespace FaultInjection

/-! ## What a client is sent -/

namespace Client

/-- The body that is sent, where it is one. -/
def Sent.body? : Sent → Option Bytes
  | .body bytes => some bytes
  | _ => none

/-- The bodies among what is sent. -/
def bodies (sent : List Sent) : List Bytes := sent.filterMap Sent.body?

/-- A client is sent more than another, but no body. -/
def KeepsBodies (before after : Client) : Prop :=
  ∃ pieces, after.sent = before.sent ++ pieces ∧ bodies pieces = []

namespace KeepsBodies

@[refl]
theorem refl (c : Client) : KeepsBodies c c := ⟨[], by simp, rfl⟩

theorem trans {first second third : Client} (h : KeepsBodies first second)
    (h' : KeepsBodies second third) : KeepsBodies first third := by
  obtain ⟨pieces, hsent, hbodies⟩ := h
  obtain ⟨pieces', hsent', hbodies'⟩ := h'
  refine ⟨pieces ++ pieces', by rw [hsent', hsent, List.append_assoc], ?_⟩
  rw [bodies, List.filterMap_append]
  exact List.append_eq_nil_iff.2 ⟨hbodies, hbodies'⟩

end KeepsBodies

/-- A head is no body. -/
theorem keepsBodies_sendHead (c : Client) (status : Number) (fields : Record HeaderRecord.Value) :
    KeepsBodies c (c.sendHead status fields).1 := by
  unfold sendHead
  split
  · exact .refl c
  · exact ⟨[.head status fields], rfl, rfl⟩

/-- A cut is no body. -/
theorem keepsBodies_cut (c : Client) : KeepsBodies c c.cut :=
  ⟨[.cut], rfl, rfl⟩

/-- The rest of an answer is no body where it is something else, or is not sent. -/
theorem keepsBodies_finish (c : Client) {rest : Sent}
    (h : rest.body? = none ∨ (c.finish rest).2 ≠ none) : KeepsBodies c (c.finish rest).1 := by
  cases hfault : nextFault c.restFaults with
  | some cause => exact ⟨[], by simp [finish, hfault], rfl⟩
  | none =>
      refine ⟨[rest], by simp [finish, hfault], ?_⟩
      rcases h with hrest | hfails
      · simp [bodies, hrest]
      · exact absurd (by simp [finish, hfault]) hfails

/-- An answer sends no body where its rest is something else, or where it fails. -/
theorem keepsBodies_answer (c : Client) {status : Number} {fields : Record HeaderRecord.Value}
    {rest : Sent} (h : rest.body? = none ∨ (c.answer status fields rest).2 ≠ none) :
    KeepsBodies c (c.answer status fields rest).1 := by
  have hhead := keepsBodies_sendHead c status fields
  unfold answer at h ⊢
  split
  · rename_i after cause hsent
    rwa [hsent] at hhead
  · rename_i after hsent
    rw [hsent] at hhead h
    exact hhead.trans (keepsBodies_finish after h)

/-- A text sends no body. -/
theorem keepsBodies_answerText (c : Client) (status : Number) (message : String) :
    KeepsBodies c (c.answerText status message).1 := by
  unfold answerText
  split
  · exact keepsBodies_cut c
  · exact keepsBodies_answer c (.inl rfl)

end Client

/-! ## Bodies after the rules -/

namespace Intake

/-- The body that a request is forwarded with: that of the rule that decides about the request, or
the one that was read. -/
def requestBody (intake : Intake) (body : Bytes) : Bytes :=
  ((Rule.forRequest intake.rules intake.port (intake.request body)).head?.bind
    (·.actions.newBody?)).getD body

/-- The body that a response is answered with: that of the rule that decides about the response,
or the one that was read. -/
def responseBody (intake : Intake) (response : Response) : Bytes :=
  ((Rule.forResponse intake.rules intake.inbound response).head?.bind
    (·.actions.newBody?)).getD response.body

/-- A request that the rules let pass has the body that they give it, or its own. -/
theorem body_onRequest {intake : Intake} {body : Bytes} {request : Request}
    (h : (intake.onRequest body).result = .ok request) :
    request.body = intake.requestBody body := by
  rw [onRequest, Rule.result_onRequest] at h
  unfold requestBody
  cases hrule : (Rule.forRequest intake.rules intake.port (intake.request body)).head? with
  | none =>
      rw [hrule] at h
      cases h
      rfl
  | some rule =>
      rw [hrule] at h
      exact (Actions.parts_of_changeRequest h).2.2.2

/-- A response that the rules let pass has the body that they give it, or its own. -/
theorem body_onResponse {intake : Intake} {upstream response : Response}
    (h : (intake.onResponse upstream).result = .ok response) :
    response.body = intake.responseBody upstream := by
  rw [onResponse, Rule.result_onResponse] at h
  unfold responseBody
  cases hrule : (Rule.forResponse intake.rules intake.inbound upstream).head? with
  | none =>
      rw [hrule] at h
      cases h
      rfl
  | some rule =>
      rw [hrule] at h
      exact (Actions.parts_of_changeResponse h).2.2

end Intake

/-! ## Ends that send no body -/

namespace Exchange

section Ends

variable (x : Exchange) (now : Number) (intake : Intake)

theorem keepsBodies_answerText (status : Number) (message : String) :
    x.client.KeepsBodies (x.answerText status message).1.client := by
  have htext := Client.keepsBodies_answerText x.client status message
  unfold answerText
  split
  · rename_i client hsent
    rwa [hsent] at htext
  · rename_i client cause hsent
    rw [hsent] at htext
    exact htext.trans (Client.keepsBodies_answerText client 500 "Internal proxy error")

/-- A refusal sends the client no body. -/
theorem keepsBodies_refuse (status : Number) (message : String) :
    x.client.KeepsBodies (x.refuse now status message).1.client :=
  x.keepsBodies_answerText status message

/-- A failure sends the client no body. -/
theorem keepsBodies_fail (failure : Failure) :
    x.client.KeepsBodies (x.fail now intake failure).1.client := by
  cases failure with
  | dropped => exact Client.keepsBodies_cut x.client
  | target fault =>
      simp only [fail]
      split
      · exact .refl x.client
      · exact x.keepsBodies_refuse now 500 _
  | cause cause =>
      simp only [fail]
      split
      · exact .refl x.client
      · exact x.keepsBodies_refuse now 502 _

/-- A response that is released sends its body, or none where the answer fails. -/
theorem bodies_releaseResponse (request : Request) (held : Held Response) :
    x.client.KeepsBodies (x.releaseResponse now intake request held).1.client ∨
      ∃ pieces, (x.releaseResponse now intake request held).1.client.sent =
        x.client.sent ++ pieces ∧ Client.bodies pieces = [held.message.body] := by
  cases hanswer : (x.client.answer held.message.status (answerFields request held)
      (.body held.message.body)).2 with
  | none => exact .inr ⟨_, sent_releaseResponse x now intake request held hanswer, rfl⟩
  | some cause =>
      left
      have hkeeps : x.client.KeepsBodies (x.client.answer held.message.status
          (answerFields request held) (.body held.message.body)).1 :=
        x.client.keepsBodies_answer (.inr (by simp [hanswer]))
      simp only [releaseResponse, answerFields] at hanswer hkeeps ⊢
      split
      · rename_i client hsent
        rw [hsent] at hanswer
        cases hanswer
      · rename_i client other hsent
        rw [hsent] at hkeeps
        exact hkeeps.trans (keepsBodies_fail { x with client } now intake (.cause other))

end Ends

/-! ## Courses -/

namespace Course

/-- A client is sent no body, or that which the rules leave to a response that was read whole. -/
theorem bodies_of_tracks {intake : Intake} {client : Client} {c : Course}
    (htracks : c.Tracks intake client) :
    client.KeepsBodies c.exchange.client ∨
      ∃ pieces upstream, c.exchange.client.sent = client.sent ++ pieces ∧
        ResponseWhole c.replies upstream ∧
        Client.bodies pieces = [intake.responseBody upstream] := by
  cases hstate : c.exchange.state with
  | active settled stage =>
      rw [htracks.client_of_active (by rw [hstate]; rfl)]
      exact .inl (.refl client)
  | ended =>
      simp only [Tracks, hstate] at htracks
      cases htracks with
      | failed x now failure hclient hexchange hclosings hfailing =>
          rw [hexchange, ← hclient]
          exact .inl (x.keepsBodies_fail now intake failure)
      | answered x now request upstream held hclient hexchange hclosings hforwarded hreading
          hholds =>
          rw [hexchange, ← hclient]
          refine (x.bodies_releaseResponse now intake request held).imp_right ?_
          rintro ⟨pieces, hsent, hbodies⟩
          refine ⟨pieces, upstream, hsent, responseReading_eq_complete_iff.1 hreading, ?_⟩
          rw [hbodies, Intake.body_onResponse hholds.1]

section Runs

variable (id : Nat) (start : Number) (config : Config) (arrival : Arrival) (client : Client)
  (trace : List (Number × Event))

/-- Any course has forwarded nothing, or a request with the body that the rules leave to one that
was read whole. -/
theorem body_forwards_run [Domain.Mapping] :
    let c := (Course.start id start (.ok config) arrival client).run trace
    c.forwards = [] ∨ ∃ intake body message, takeIn (rulesFor config) arrival = .ok intake ∧
      RequestWhole (trace.map Prod.snd) body ∧ c.forwards = [message] ∧
      message.body = intake.requestBody body := by
  refine (forwards_run id start config arrival client trace).imp_right ?_
  rintro ⟨intake, request, htake, hforwards, body, hreading, hpassed⟩
  rw [told_run_start, requestReading_eq_complete_iff] at hreading
  exact ⟨intake, body, _, htake, hreading, hforwards, Intake.body_onRequest hpassed⟩

/-- In any course a client is sent no body, or that which the rules leave to a response that was
read whole. -/
theorem bodies_run [Domain.Mapping] :
    let c := (Course.start id start (.ok config) arrival client).run trace
    client.KeepsBodies c.exchange.client ∨
      ∃ intake pieces upstream, takeIn (rulesFor config) arrival = .ok intake ∧
        c.exchange.client.sent = client.sent ++ pieces ∧ ResponseWhole c.replies upstream ∧
        Client.bodies pieces = [intake.responseBody upstream] := by
  intro c
  cases htake : takeIn (rulesFor config) arrival with
  | error refusal =>
      obtain ⟨status, text⟩ := refusal
      have hexchange := (run_of_takeIn_error id start client htake trace).1
      rw [hexchange]
      exact .inl (keepsBodies_refuse { id, started := start.floor, client } start status text)
  | ok intake =>
      refine (bodies_of_tracks (tracks_run id start client htake trace)).imp_right ?_
      rintro ⟨pieces, upstream, hsent, hwhole, hbodies⟩
      exact ⟨intake, pieces, upstream, rfl, hsent, hwhole, hbodies⟩

end Runs

/-- An exchange forwards a request only when its body is whole, and sends its client a body only
when that of the response is whole; each is the pieces in their order, or what the rule that
decides puts in its place.  Nothing is passed on of a body that breaks off. -/
theorem delivery_run [Domain.Mapping] (id : Nat) (start : Number) (config : Config)
    (arrival : Arrival) (client : Client) (trace : List (Number × Event)) :
    let c := (Course.start id start (.ok config) arrival client).run trace
    let told := trace.map Prod.snd
    (∀ message ∈ c.forwards, ∃ intake body, takeIn (rulesFor config) arrival = .ok intake ∧
      RequestWhole told body ∧ message.body = intake.requestBody body) ∧
    (∃ pieces, c.exchange.client.sent = client.sent ++ pieces ∧
      (Client.bodies pieces = [] ∨ ∃ intake upstream,
        takeIn (rulesFor config) arrival = .ok intake ∧ ResponseWhole c.replies upstream ∧
        Client.bodies pieces = [intake.responseBody upstream]) ∧
      (ResponseBreaks c.replies → Client.bodies pieces = [])) ∧
    (RequestBreaks told → c.forwards = []) := by
  intro c told
  have hforwards := body_forwards_run id start config arrival client trace
  refine ⟨?_, ?_, ?_⟩
  · intro message hmessage
    rcases hforwards with hnone | ⟨intake, body, only, htake, hwhole, hone, hbody⟩
    · rw [hnone] at hmessage
      cases hmessage
    · rw [hone, List.mem_singleton] at hmessage
      exact ⟨intake, body, htake, hwhole, hmessage ▸ hbody⟩
  · rcases bodies_run id start config arrival client trace with
      ⟨pieces, hsent, hbodies⟩ | ⟨intake, pieces, upstream, htake, hsent, hwhole, hbodies⟩
    · exact ⟨pieces, hsent, .inl hbodies, fun _ => hbodies⟩
    · refine ⟨pieces, hsent, .inr ⟨intake, upstream, htake, hwhole, hbodies⟩, ?_⟩
      intro hbreaks
      exact absurd hwhole (hbreaks.not_whole upstream)
  · intro hbreaks
    rcases hforwards with hnone | ⟨intake, body, only, htake, hwhole, -⟩
    · exact hnone
    · exact absurd hwhole (hbreaks.not_whole body)

/-! ## A response in two pieces, and one that breaks off -/

/-- The response is closed after its first piece. -/
def closedInPieces : List (Number × Event) := [
  (0, .requestEnd),
  (5, .responseHead (some 200) (.ofFlat ["Content-Length", "2"])),
  (6, .responseChunk [79]),
  (7, .responseClosed),
  (8, .responseEnd)]

/-- Both pieces are passed on, or none of them. -/
theorem delivery_run_outage :
    (∃ message ∈ ((Course.start 1 0 (.ok outage) rootRequest {}).run servedInPieces).forwards,
      ∃ intake body, takeIn (rulesFor outage) rootRequest = .ok intake ∧
        RequestWhole (servedInPieces.map Prod.snd) body ∧
        message.body = intake.requestBody body) ∧
    Client.bodies
      ((Course.start 1 0 (.ok outage) rootRequest {}).run servedInPieces).exchange.client.sent =
        [[79, 75]] ∧
    Client.bodies
      ((Course.start 1 0 (.ok outage) rootRequest {}).run closedInPieces).exchange.client.sent =
        [] := by
  refine ⟨?_, by decide +kernel, ?_⟩
  · obtain ⟨message, hmessage⟩ : ∃ message, message ∈
        ((Course.start 1 0 (.ok outage) rootRequest {}).run servedInPieces).forwards :=
      List.exists_mem_of_length_pos (by decide +kernel)
    exact ⟨message, hmessage, (delivery_run 1 0 outage rootRequest {} servedInPieces).1 _ hmessage⟩
  · have hbreaks : ResponseBreaks
        ((Course.start 1 0 (.ok outage) rootRequest {}).run closedInPieces).replies := by
      -- The request goes out with the first event, and all others are news of the response.
      have hforwards :
          ((Course.start 1 0 (.ok outage) rootRequest {}).next 0 .requestEnd).forwards ≠ [] := by
        decide +kernel
      rw [closedInPieces, run_cons, replies_run_of_ne_nil hforwards,
        next, replies_after_nil _ _ _ _ (by decide +kernel)]
      refine ⟨[_, _], .responseClosed, [.responseEnd], rfl, fun response => ?_, rfl,
        fun _ => ⟨_, _, List.mem_cons_self ..⟩⟩
      rw [← responseReading_eq_complete_iff]
      intro hcomplete
      cases hcomplete
    obtain ⟨pieces, hsent, -, hnone⟩ :=
      (delivery_run 1 0 outage rootRequest {} closedInPieces).2.1
    rw [hsent]
    exact hnone hbreaks

end Course

end Exchange

end FaultInjection
