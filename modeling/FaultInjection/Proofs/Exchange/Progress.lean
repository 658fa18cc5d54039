import FaultInjection.Proofs.Exchange.Ends
import FaultInjection.Proofs.Exchange.Reading

/-!
# Exchanges - Where a course stands

The stage of an exchange is what the events so far say: how far the request and the
response have been read, and what the rules decided about them.  An exchange that has
ended did so in one step, either by a failure that has one of five grounds or by the
release of a response.

Main definitions:

- `Course.HasForwarded`, the request that a course has forwarded.
- `Course.Failing`, the grounds of a failure.
- `Course.Tracks`, the invariant of every course.

Main results:

- `Course.tracks_next`: each event keeps the invariant.
- `Course.tracks_run`: every course has it.
-/

namespace FaultInjection

/-- A message is held because a verdict lets it pass, by the rule of the verdict. -/
def Verdict.Holds {α : Type} (verdict : Verdict α) (held : Held α) : Prop :=
  verdict.result = .ok held.message ∧ verdict.rule = held.rule

/-- The verdict of the rules on a request that has been read. -/
def Intake.onRequest (intake : Intake) (body : Bytes) : Verdict Request :=
  Rule.onRequest intake.rules intake.port (intake.request body)

/-- The verdict of the rules on a response that has been read. -/
def Intake.onResponse (intake : Intake) (response : Response) : Verdict Response :=
  Rule.onResponse intake.rules intake.inbound response

namespace Exchange

/-! ## Verdicts and delays -/

section Delays

variable {x : Exchange} {now : Number} {intake : Intake}

/-- A delay that has just begun, if there is one; one of an exchange without a client is given up
from the start. -/
def firstDelay (x : Exchange) : Option Number → Delay
  | none => .elapsed
  | some time => .start x.givenUp? time

/-- A delay is given up from the start only where the client has left. -/
theorem abandoned_of_firstDelay {time : Option Number} {cause : Cause}
    (h : firstDelay x time = .cancelled cause) : x.abandoned = true := by
  cases time with
  | none => cases h
  | some time =>
      cases hab : x.abandoned with
      | true => rfl
      | false => simp [firstDelay, givenUp?, hab, Delay.start, Delay.arm] at h

/-- A timer that fires gives no delay up. -/
theorem next_fired_ne_cancelled {delay : Delay} (h : delay.timer?.isSome) (cause : Cause) :
    delay.next .fired ≠ .cancelled cause := by
  cases delay with
  | waiting step remaining =>
      simp only [Delay.next]
      split <;> simp [Delay.arm]
  | elapsed => cases h
  | cancelled other => cases h

/-- A request that is complete is stopped by a failure, or held back for the first delay. -/
theorem judgeRequest_eq (body : Bytes) :
    x.judgeRequest now intake body =
      match (intake.onRequest body).result with
      | .error failure =>
        ((x.fail now intake failure).1,
          (intake.onRequest body).notices.map Effect.log ++ (x.fail now intake failure).2)
      | .ok message =>
        let verdict := intake.onRequest body
        let held := x.holdRequest now intake ⟨message, verdict.rule, verdict.release⟩
          (firstDelay x verdict.delay)
        (held.1, verdict.notices.map Effect.log ++ held.2) := by
  simp only [judgeRequest, Intake.onRequest]
  cases (Rule.onRequest intake.rules intake.port (intake.request body)).result with
  | error failure => rfl
  | ok message =>
      cases (Rule.onRequest intake.rules intake.port (intake.request body)).delay <;> rfl

/-- A response that is complete is stopped by a failure, or held back for the first delay. -/
theorem judgeResponse_eq (request : Request) (response : Response) :
    x.judgeResponse now intake request response =
      match (intake.onResponse response).result with
      | .error failure =>
        ((x.fail now intake failure).1,
          (intake.onResponse response).notices.map Effect.log ++ (x.fail now intake failure).2)
      | .ok message =>
        let verdict := intake.onResponse response
        let held := x.holdResponse now intake request ⟨message, verdict.rule, verdict.release⟩
          (firstDelay x verdict.delay)
        (held.1, verdict.notices.map Effect.log ++ held.2) := by
  simp only [judgeResponse, Intake.onResponse]
  cases (Rule.onResponse intake.rules intake.inbound response).result with
  | error failure => rfl
  | ok message =>
      cases (Rule.onResponse intake.rules intake.inbound response).delay <;> rfl

/-- A response that is held back or released forwards nothing. -/
theorem forwards_holdResponse (request : Request) (held : Held Response) (delay : Delay) :
    Exchange.forwards (x.holdResponse now intake request held delay).2 = [] := by
  cases delay with
  | waiting step remaining => simp [holdResponse, Effect.forwarded?]
  | elapsed => exact forwards_releaseResponse ..
  | cancelled cause => exact forwards_fail ..

/-- A request goes out even where its client has left. -/
theorem forwards_forward (request : Request) :
    Exchange.forwards (x.forward now intake request).2 =
      [intake.destination.forwarded request] := by
  simp only [forward]
  split <;> simp [Effect.forwarded?]

end Delays

namespace Course

/-- A course has forwarded a request: its body was complete, and the rules let it pass. -/
def HasForwarded (c : Course) (intake : Intake) (request : Request) : Prop :=
  c.forwards = [intake.destination.forwarded request] ∧
    ∃ body, requestReading c.told = .complete body ∧ (intake.onRequest body).result = .ok request

/-- The grounds of a failure. -/
inductive Failing (intake : Intake) (c : Course) : Failure → Prop
  /-- The body of the request did not become complete. -/
  | requestBroken {cause : Cause} : c.forwards = [] → requestReading c.told = .broken cause →
      Failing intake c (.cause cause)
  /-- A rule stopped the request. -/
  | requestStopped {body : Bytes} {failure : Failure} : c.forwards = [] →
      requestReading c.told = .complete body → (intake.onRequest body).result = .error failure →
      Failing intake c failure
  /-- The response did not become complete. -/
  | responseBroken {request : Request} {cause : Cause} : c.HasForwarded intake request →
      responseReading c.replies = .broken cause → Failing intake c (.cause cause)
  /-- A rule stopped the response. -/
  | responseStopped {request : Request} {response : Response} {failure : Failure} :
      c.HasForwarded intake request → responseReading c.replies = .complete response →
      (intake.onResponse response).result = .error failure → Failing intake c failure
  /-- The client had left. -/
  | givenUp {cause : Cause} : c.exchange.abandoned = true →
      (c.forwards = [] ∨ ∃ request, c.HasForwarded intake request) →
      Failing intake c (.cause cause)

/-- What a stage says about the events so far. -/
def At (intake : Intake) (c : Course) : Stage → Prop
  | .readingRequest body => c.forwards = [] ∧ requestReading c.told = .unfinished body
  | .holdingRequest held delay => c.forwards = [] ∧ delay.timer?.isSome ∧
      ∃ body, requestReading c.told = .complete body ∧ (intake.onRequest body).Holds held
  | .awaitingResponse request =>
    c.HasForwarded intake request ∧ responseReading c.replies = .awaited
  | .readingResponse request status headers body =>
    c.HasForwarded intake request ∧ responseReading c.replies = .unfinished status headers body
  | .holdingResponse request held delay => c.HasForwarded intake request ∧ delay.timer?.isSome ∧
      ∃ response, responseReading c.replies = .complete response ∧
        (intake.onResponse response).Holds held

/-- How an exchange with a client has ended. -/
inductive Over (intake : Intake) (client : Client) (c : Course) : Prop
  | failed (x : Exchange) (now : Number) (failure : Failure) (hclient : x.client = client)
      (hexchange : c.exchange = (x.fail now intake failure).1)
      (hclosings : c.closings = [x.failureEnd now failure])
      (hfailing : c.Failing intake failure)
  | answered (x : Exchange) (now : Number) (request : Request) (response : Response)
      (held : Held Response) (hclient : x.client = client)
      (hexchange : c.exchange = (x.releaseResponse now intake request held).1)
      (hclosings : c.closings = Exchange.closings (x.releaseResponse now intake request held).2)
      (hforwarded : c.HasForwarded intake request)
      (hreading : responseReading c.replies = .complete response)
      (hholds : (intake.onResponse response).Holds held)

/-- The state of an exchange with a client is what the events so far say. -/
def Tracks (intake : Intake) (client : Client) (c : Course) : Prop :=
  match c.exchange.state with
  | .active settled stage =>
    settled = intake ∧ c.exchange.client = client ∧ c.closings = [] ∧ c.At intake stage
  | .ended => c.Over intake client

/-! ## Ends -/

section Steps

variable {intake : Intake} {client : Client} {c : Course} {x : Exchange} {now : Number}

/-- A course at a stage has the invariant where the stage says what the events say. -/
theorem tracks_of_active {stage : Stage} (hstate : c.exchange.state = .active intake stage)
    (hclient : c.exchange.client = client) (hclosings : c.closings = [])
    (hat : c.At intake stage) : c.Tracks intake client := by
  simp only [Tracks, hstate]
  exact ⟨trivial, hclient, hclosings, hat⟩

/-- An exchange that goes on has the client that it started with. -/
theorem Tracks.client_of_active (htracks : c.Tracks intake client)
    (hactive : c.exchange.state.isEnded = false) : c.exchange.client = client := by
  cases hstate : c.exchange.state with
  | ended => rw [hstate] at hactive; cases hactive
  | active settled stage =>
      simp only [Tracks, hstate] at htracks
      exact htracks.2.1

/-- A course that ends by a failure keeps the invariant. -/
theorem tracks_of_fail {failure : Failure} (hclient : x.client = client)
    (hexchange : c.exchange = (x.fail now intake failure).1)
    (hclosings : c.closings = [x.failureEnd now failure])
    (hfailing : c.Failing intake failure) : c.Tracks intake client := by
  have hstate : c.exchange.state = .ended := by rw [hexchange, state_fail]
  simp only [Tracks, hstate]
  exact .failed x now failure hclient hexchange hclosings hfailing

/-- A course whose response is held back or released keeps the invariant. -/
theorem tracks_of_holdResponse {request : Request} {response : Response} {held : Held Response}
    {delay : Delay} (hclient : x.client = client)
    (hcancelled : ∀ cause, delay = .cancelled cause → x.abandoned = true)
    (hexchange : c.exchange = (x.holdResponse now intake request held delay).1)
    (hclosings : c.closings =
      Exchange.closings (x.holdResponse now intake request held delay).2)
    (hforwarded : c.HasForwarded intake request)
    (hreading : responseReading c.replies = .complete response)
    (hholds : (intake.onResponse response).Holds held) : c.Tracks intake client := by
  cases delay with
  | waiting step remaining =>
      simp only [holdResponse] at hexchange hclosings
      refine tracks_of_active (by rw [hexchange]) (by rw [hexchange]; exact hclient)
        (by simpa [Effect.closing?] using hclosings) ?_
      exact ⟨hforwarded, rfl, response, hreading, hholds⟩
  | elapsed =>
      have hstate : c.exchange.state = .ended := by
        rw [hexchange]
        exact state_releaseResponse ..
      simp only [Tracks, hstate]
      exact .answered x now request response held hclient hexchange hclosings hforwarded
        hreading hholds
  | cancelled cause =>
      refine tracks_of_fail hclient hexchange (by simpa [holdResponse] using hclosings) ?_
      refine .givenUp ?_ (.inr ⟨request, hforwarded⟩)
      rw [hexchange]
      simpa [holdResponse] using hcancelled cause rfl

/-- A course whose request goes out keeps the invariant. -/
theorem tracks_of_forward {request : Request} {body : Bytes} (hclient : x.client = client)
    (hexchange : c.exchange = (x.forward now intake request).1)
    (hclosings : c.closings = Exchange.closings (x.forward now intake request).2)
    (hforwards : c.forwards = [intake.destination.forwarded request])
    (hreplies : c.replies = []) (hreading : requestReading c.told = .complete body)
    (hresult : (intake.onRequest body).result = .ok request) : c.Tracks intake client := by
  have hforwarded : c.HasForwarded intake request := ⟨hforwards, body, hreading, hresult⟩
  cases hab : x.abandoned with
  | true =>
      -- The request goes out all the same, and is given up at once.
      simp only [forward, hab, if_true] at hexchange hclosings
      refine tracks_of_fail hclient hexchange (by simpa [Effect.closing?] using hclosings) ?_
      refine .givenUp ?_ (.inr ⟨request, hforwarded⟩)
      rw [hexchange, abandoned_fail, hab]
  | false =>
      simp only [forward, hab, Bool.false_eq_true, if_false] at hexchange hclosings
      refine tracks_of_active (by rw [hexchange]) (by rw [hexchange]; exact hclient)
        (by simpa [Effect.closing?] using hclosings) ?_
      exact ⟨hforwarded, by rw [hreplies, responseReading_nil]⟩

/-- A course whose request is held back or released keeps the invariant. -/
theorem tracks_of_holdRequest {body : Bytes} {held : Held Request} {delay : Delay}
    (hclient : x.client = client)
    (hcancelled : ∀ cause, delay = .cancelled cause → x.abandoned = true)
    (hexchange : c.exchange = (x.holdRequest now intake held delay).1)
    (hclosings : c.closings = Exchange.closings (x.holdRequest now intake held delay).2)
    (hforwards : c.forwards = Exchange.forwards (x.holdRequest now intake held delay).2)
    (hreplies : c.replies = []) (hreading : requestReading c.told = .complete body)
    (hholds : (intake.onRequest body).Holds held) : c.Tracks intake client := by
  cases delay with
  | waiting step remaining =>
      simp only [holdRequest] at hexchange hclosings hforwards
      refine tracks_of_active (by rw [hexchange]) (by rw [hexchange]; exact hclient)
        (by simpa [Effect.closing?] using hclosings) ?_
      exact ⟨by simpa [Effect.forwarded?] using hforwards, rfl, body, hreading, hholds⟩
  | elapsed =>
      refine tracks_of_forward hclient hexchange ?_ ?_ hreplies hreading hholds.1
      · simpa [holdRequest, releaseRequest] using hclosings
      · rw [hforwards]
        simp [holdRequest, releaseRequest, forwards_forward]
  | cancelled cause =>
      refine tracks_of_fail hclient hexchange (by simpa [holdRequest] using hclosings) ?_
      refine .givenUp ?_ (.inl (by simpa [holdRequest] using hforwards))
      rw [hexchange]
      simpa [holdRequest] using hcancelled cause rfl

/-- What has been forwarded stays so as long as nothing else is. -/
theorem HasForwarded.after {request : Request} (h : c.HasForwarded intake request)
    (event : Event) {outcome : Outcome} (hforwards : Exchange.forwards outcome.2 = []) :
    (c.after now event outcome).HasForwarded intake request := by
  obtain ⟨hsent, body, hreading, hresult⟩ := h
  refine ⟨by simp [hsent, hforwards], body, ?_, hresult⟩
  rw [told_after, requestReading_append_singleton, hreading]
  exact RequestReading.next_of_isOver rfl event

/-- Every event is news of the response to a request that has been forwarded. -/
theorem HasForwarded.responseReading_after {request : Request}
    (h : c.HasForwarded intake request) (now : Number) (event : Event) (outcome : Outcome) :
    responseReading (c.after now event outcome).replies =
      (responseReading c.replies).next event := by
  rw [replies_after_of_ne_nil, responseReading_append_singleton]
  rw [h.1]
  exact List.cons_ne_nil _ _

end Steps

/-! ## One event -/

section Events

variable {intake : Intake} {client : Client} {c : Course}
  (hclient : c.exchange.client = client) (hclosings : c.closings = [])
  (now : Number) (event : Event)

include hclient hclosings

/-- A request is read until its body is complete or fails. -/
theorem tracks_next_readingRequest {body : Bytes}
    (hstate : c.exchange.state = .active intake (.readingRequest body))
    (hat : c.At intake (.readingRequest body)) :
    (c.next now event).Tracks intake client := by
  obtain ⟨hforwards, hreading⟩ := hat
  rw [next_of_active now event hstate]
  have hreplies := c.replies_after_nil now event
    (c.exchange.nextFrom now intake (.readingRequest body) event) hforwards
  cases event with
  | requestChunk bytes =>
      simp [Tracks, At, nextFrom, hclient, hclosings, hforwards, hreading, RequestReading.next]
  | requestEnd =>
      have hcomplete : requestReading (c.told ++ [.requestEnd]) = .complete body := by
        rw [requestReading_append_singleton, hreading, RequestReading.next]
      simp only [nextFrom, judgeRequest_eq] at hreplies ⊢
      cases hresult : (intake.onRequest body).result with
      | error failure =>
          refine tracks_of_fail hclient rfl (by simp [hclosings]) ?_
          exact .requestStopped (by simp [hforwards]) hcomplete hresult
      | ok message =>
          refine tracks_of_holdRequest hclient (fun cause => abandoned_of_firstDelay) rfl ?_ ?_
            hreplies hcomplete ⟨hresult, rfl⟩
          · simp [hclosings]
          · simp [hforwards]
  | requestFailed cause =>
      refine tracks_of_fail hclient rfl (by simp [nextFrom, hclosings]) ?_
      exact .requestBroken (by simp [nextFrom, hforwards]) (by simp [hreading, RequestReading.next])
  | requestClosed =>
      refine tracks_of_fail hclient rfl (by simp [nextFrom, hclosings]) ?_
      exact .requestBroken (by simp [nextFrom, hforwards]) (by simp [hreading, RequestReading.next])
  | _ =>
      simp [Tracks, At, nextFrom, leave, hstate, hclient, hclosings, hforwards, hreading,
        RequestReading.next]

/-- A request that is held back stays so until a timer fires or the client leaves. -/
theorem tracks_next_holdingRequest {held : Held Request} {delay : Delay}
    (hstate : c.exchange.state = .active intake (.holdingRequest held delay))
    (hat : c.At intake (.holdingRequest held delay)) :
    (c.next now event).Tracks intake client := by
  obtain ⟨hforwards, htimer, body, hreading, hholds⟩ := hat
  rw [next_of_active now event hstate]
  have hreplies := c.replies_after_nil now event
    (c.exchange.nextFrom now intake (.holdingRequest held delay) event) hforwards
  have hcomplete : requestReading (c.told ++ [event]) = .complete body := by
    rw [requestReading_append_singleton, hreading]
    exact RequestReading.next_of_isOver rfl event
  cases event with
  | timerFired =>
      refine tracks_of_holdRequest hclient
        (fun cause h => absurd h (next_fired_ne_cancelled htimer cause)) rfl ?_ ?_
        hreplies hcomplete hholds
      · simp [nextFrom, hclosings]
      · simp [nextFrom, hforwards]
  | clientLeft =>
      refine tracks_of_holdRequest (x := { c.exchange with abandoned := true }) hclient
        (fun _ _ => rfl) rfl ?_ ?_ hreplies hcomplete hholds
      · simp [nextFrom, leave, hclosings, Effect.closing?]
      · simp [nextFrom, leave, hforwards, Effect.forwarded?]
  | _ =>
      refine tracks_of_active hstate hclient (by simp [nextFrom, hclosings]) ?_
      exact ⟨by simp [nextFrom, hforwards], htimer, body, hcomplete, hholds⟩

/-- A course that gives up a request that went out keeps the invariant. -/
theorem tracks_of_leave {request : Request} (hforwarded : c.HasForwarded intake request)
    {outcome : Outcome}
    (hleave : outcome = Exchange.fail { c.exchange with abandoned := true } now intake
      (.cause forwardingGivenUp)) :
    (c.after now .clientLeft outcome).Tracks intake client := by
  subst hleave
  refine tracks_of_fail (x := { c.exchange with abandoned := true }) hclient rfl ?_ ?_
  · rw [closings_after, hclosings, closings_fail]
    rfl
  · exact .givenUp (by simp) (.inr ⟨request, hforwarded.after .clientLeft (by simp)⟩)

/-- A response is awaited until its head arrives or it fails. -/
theorem tracks_next_awaitingResponse {request : Request}
    (hstate : c.exchange.state = .active intake (.awaitingResponse request))
    (hat : c.At intake (.awaitingResponse request)) :
    (c.next now event).Tracks intake client := by
  obtain ⟨hforwarded, hreading⟩ := hat
  rw [next_of_active now event hstate]
  have hnext := hforwarded.responseReading_after now event
    (c.exchange.nextFrom now intake (.awaitingResponse request) event)
  rw [hreading] at hnext
  cases event with
  | forwardingFailed cause =>
      refine tracks_of_fail hclient rfl (by simp [nextFrom, hclosings]) ?_
      exact .responseBroken (hforwarded.after _ (by simp [nextFrom])) hnext
  | responseHead status headers =>
      refine tracks_of_active rfl hclient (by simp [nextFrom, hclosings]) ?_
      exact ⟨hforwarded.after _ rfl, hnext⟩
  | clientLeft => exact tracks_of_leave hclient hclosings now hforwarded rfl
  | _ =>
      refine tracks_of_active hstate hclient (by simp [nextFrom, hclosings]) ?_
      exact ⟨hforwarded.after _ rfl, hnext⟩

/-- A response is read until it is complete or fails. -/
theorem tracks_next_readingResponse {request : Request} {status : Option Number}
    {headers : Headers} {body : Bytes}
    (hstate : c.exchange.state = .active intake (.readingResponse request status headers body))
    (hat : c.At intake (.readingResponse request status headers body)) :
    (c.next now event).Tracks intake client := by
  obtain ⟨hforwarded, hreading⟩ := hat
  rw [next_of_active now event hstate]
  have hnext := hforwarded.responseReading_after now event
    (c.exchange.nextFrom now intake (.readingResponse request status headers body) event)
  rw [hreading] at hnext
  cases event with
  | forwardingFailed cause =>
      refine tracks_of_fail hclient rfl (by simp [nextFrom, hclosings]) ?_
      exact .responseBroken (hforwarded.after _ (by simp [nextFrom])) hnext
  | responseClosed =>
      refine tracks_of_fail hclient rfl (by simp [nextFrom, hclosings]) ?_
      exact .responseBroken (hforwarded.after _ (by simp [nextFrom])) hnext
  | responseChunk bytes =>
      refine tracks_of_active rfl hclient (by simp [nextFrom, hclosings]) ?_
      exact ⟨hforwarded.after _ rfl, hnext⟩
  | responseEnd =>
      simp only [nextFrom, judgeResponse_eq] at hnext ⊢
      cases hresult : (intake.onResponse ⟨status.getD 502, headers, body⟩).result with
      | error failure =>
          simp only [hresult] at hnext
          refine tracks_of_fail hclient rfl (by simp [hclosings]) ?_
          exact .responseStopped (hforwarded.after _ (by simp)) hnext hresult
      | ok message =>
          simp only [hresult] at hnext
          refine tracks_of_holdResponse hclient (fun cause => abandoned_of_firstDelay) rfl ?_
            (hforwarded.after _ ?_) hnext ⟨hresult, rfl⟩
          · simp [hclosings]
          · simp [forwards_holdResponse]
  | clientLeft => exact tracks_of_leave hclient hclosings now hforwarded rfl
  | _ =>
      refine tracks_of_active hstate hclient (by simp [nextFrom, hclosings]) ?_
      exact ⟨hforwarded.after _ rfl, hnext⟩

/-- A response that is held back stays so until a timer fires or the client leaves. -/
theorem tracks_next_holdingResponse {request : Request} {held : Held Response} {delay : Delay}
    (hstate : c.exchange.state = .active intake (.holdingResponse request held delay))
    (hat : c.At intake (.holdingResponse request held delay)) :
    (c.next now event).Tracks intake client := by
  obtain ⟨hforwarded, htimer, response, hreading, hholds⟩ := hat
  rw [next_of_active now event hstate]
  have hnext := hforwarded.responseReading_after now event
    (c.exchange.nextFrom now intake (.holdingResponse request held delay) event)
  rw [hreading, ResponseReading.next_of_isOver rfl event] at hnext
  cases event with
  | timerFired =>
      refine tracks_of_holdResponse hclient
        (fun cause h => absurd h (next_fired_ne_cancelled htimer cause)) rfl ?_
        (hforwarded.after _ ?_) hnext hholds
      · simp [nextFrom, hclosings]
      · simp [nextFrom, forwards_holdResponse]
  | clientLeft =>
      refine tracks_of_holdResponse (x := { c.exchange with abandoned := true }) hclient
        (fun _ _ => rfl) rfl ?_ (hforwarded.after _ ?_) hnext hholds
      · simp [nextFrom, leave, hclosings, Effect.closing?]
      · simp [nextFrom, leave, forwards_holdResponse, Effect.forwarded?]
  | _ =>
      refine tracks_of_active hstate hclient (by simp [nextFrom, hclosings]) ?_
      exact ⟨hforwarded.after _ rfl, htimer, response, hnext, hholds⟩

end Events

/-! ## Any events -/

section Runs

variable {intake : Intake} {client : Client} {c : Course}

/-- The grounds of a failure do not change when an exchange that has ended is told more. -/
theorem Failing.after {failure : Failure} (h : c.Failing intake failure) (now : Number)
    (event : Event) : (c.after now event (c.exchange, [])).Failing intake failure := by
  cases h with
  | requestBroken hforwards hreading =>
      refine .requestBroken (by simp [hforwards]) ?_
      rw [told_after, requestReading_append_singleton, hreading]
      exact RequestReading.next_of_isOver rfl event
  | requestStopped hforwards hreading hresult =>
      refine .requestStopped (by simp [hforwards]) ?_ hresult
      rw [told_after, requestReading_append_singleton, hreading]
      exact RequestReading.next_of_isOver rfl event
  | responseBroken hforwarded hreading =>
      refine .responseBroken (hforwarded.after event rfl) ?_
      rw [hforwarded.responseReading_after, hreading]
      exact ResponseReading.next_of_isOver rfl event
  | responseStopped hforwarded hreading hresult =>
      refine .responseStopped (hforwarded.after event rfl) ?_ hresult
      rw [hforwarded.responseReading_after, hreading]
      exact ResponseReading.next_of_isOver rfl event
  | givenUp habandoned hforwards =>
      refine .givenUp habandoned ?_
      rcases hforwards with hnone | ⟨request, hforwarded⟩
      · exact .inl (by simp [hnone])
      · exact .inr ⟨request, hforwarded.after event rfl⟩

/-- An exchange that has ended stays as it has ended. -/
theorem Over.after (h : c.Over intake client) (now : Number) (event : Event) :
    (c.after now event (c.exchange, [])).Over intake client := by
  cases h with
  | failed x time failure hclient hexchange hclosings hfailing =>
      exact .failed x time failure hclient hexchange (by simp [hclosings])
        (hfailing.after now event)
  | answered x time request response held hclient hexchange hclosings hforwarded hreading hholds =>
      refine .answered x time request response held hclient hexchange (by simp [hclosings])
        (hforwarded.after event rfl) ?_ hholds
      rw [hforwarded.responseReading_after, hreading]
      exact ResponseReading.next_of_isOver rfl event

/-- Each event keeps the invariant of courses. -/
theorem tracks_next (h : c.Tracks intake client) (now : Number) (event : Event) :
    (c.next now event).Tracks intake client := by
  cases hstate : c.exchange.state with
  | active settled stage =>
      simp only [Tracks, hstate] at h
      obtain ⟨rfl, hclient, hclosings, hat⟩ := h
      cases stage with
      | readingRequest body =>
          exact tracks_next_readingRequest hclient hclosings now event hstate hat
      | holdingRequest held delay =>
          exact tracks_next_holdingRequest hclient hclosings now event hstate hat
      | awaitingResponse request =>
          exact tracks_next_awaitingResponse hclient hclosings now event hstate hat
      | readingResponse request status headers body =>
          exact tracks_next_readingResponse hclient hclosings now event hstate hat
      | holdingResponse request held delay =>
          exact tracks_next_holdingResponse hclient hclosings now event hstate hat
  | ended =>
      simp only [Tracks, hstate] at h
      have hover := h.after now event
      rw [next_of_ended now event hstate]
      simpa only [Tracks, exchange_after, hstate] using hover

/-- A request that is taken in begins a course that has the invariant. -/
theorem tracks_start [Domain.Mapping] (id : Nat) (now : Number) (client : Client) {config : Config}
    {arrival : Arrival} (h : takeIn (rulesFor config) arrival = .ok intake) :
    (start id now (.ok config) arrival client).Tracks intake client := by
  have hstart : start id now (.ok config) arrival client = {
      exchange := {
        id, started := now.floor, client, state := .active intake (.readingRequest []) } } := by
    simp [start, Exchange.start, h]
  rw [hstart]
  exact tracks_of_active rfl rfl rfl ⟨rfl, rfl⟩

/-- The course of a request that is taken in always has the invariant. -/
theorem tracks_run [Domain.Mapping] (id : Nat) (now : Number) (client : Client) {config : Config}
    {arrival : Arrival} (h : takeIn (rulesFor config) arrival = .ok intake)
    (trace : List (Number × Event)) :
    ((start id now (.ok config) arrival client).run trace).Tracks intake client :=
  run_induction (tracks_start id now client h) (fun _ now event hc => tracks_next hc now event)
    trace

/-- A request that is not taken in is refused at once, and nothing happens to it any more. -/
theorem run_of_takeIn_error [Domain.Mapping] (id : Nat) (now : Number) (client : Client)
    {config : Config} {arrival : Arrival} {status : Number} {message : String}
    (h : takeIn (rulesFor config) arrival = .error (status, message))
    (trace : List (Number × Event)) :
    let refused := Exchange.refuse { id, started := now.floor, client } now status message
    ((start id now (.ok config) arrival client).run trace).exchange = refused.1 ∧
      ((start id now (.ok config) arrival client).run trace).asked =
        refused.2.map (now, ·) := by
  intro refused
  have hstart : start id now (.ok config) arrival client =
      { exchange := refused.1, asked := refused.2.map (now, ·) } := by
    simp [start, Exchange.start, h, refused]
  rw [hstart]
  exact run_of_ended (state_refuse _ now status message) trace

/-- An exchange that goes on is one whose request has been taken in, and has the invariant. -/
theorem exists_tracks_of_active [Domain.Mapping] (id : Nat) (now : Number) (client : Client)
    {config : Config} {arrival : Arrival} {trace : List (Number × Event)}
    (hactive : ((start id now (.ok config) arrival client).run trace).exchange.state.isEnded =
      false) :
    ∃ intake, takeIn (rulesFor config) arrival = .ok intake ∧
      ((start id now (.ok config) arrival client).run trace).Tracks intake client := by
  cases htake : takeIn (rulesFor config) arrival with
  | error refusal =>
      -- A request that is refused has ended its exchange by the time it has arrived.
      obtain ⟨status, message⟩ := refusal
      rw [(run_of_takeIn_error id now client htake trace).1, state_refuse] at hactive
      cases hactive
  | ok intake => exact ⟨intake, rfl, tracks_run id now client htake trace⟩

end Runs

end Course

end Exchange

end FaultInjection
