import FaultInjection.Proofs.Exchange.Timers

/-!
# Exchanges - Clients that leave

A client that leaves before the end has its exchange given up.  An exchange that is
still reading the request goes on until it has read it, and is given up then; all others
end at once.  Either way the client is sent nothing more, and it is only where a rule
drops the request that the end is another than a cancellation.

Main definitions:

- `Exchange.dropsRequest`, whether a rule drops the request that was read.
- `Course.Left`, where a course stands once the client has left.

Main results:

- `Course.left_of_leave`: a client that leaves at any stage brings a course there.
- `Course.left_run`: the course stays there, whatever else happens.
- `Course.asked_of_left`: no timer is set any more.
-/

namespace FaultInjection

namespace Exchange

/-- Whether a rule drops the request, as far as it was read. -/
def dropsRequest (intake : Intake) (told : List Event) : Bool :=
  stoppedRequest? intake told == some .dropped

section Drops

variable {intake : Intake} {told : List Event}

/-- A body that does not become complete is dropped by no rule. -/
theorem dropsRequest_of_broken {cause : Cause} (h : requestReading told = .broken cause) :
    dropsRequest intake told = false := by
  rw [dropsRequest, stoppedRequest?_of_broken h]
  rfl

/-- A rule drops a request that it decides about. -/
theorem dropsRequest_of_error {body : Bytes} {failure : Failure}
    (h : requestReading told = .complete body)
    (hresult : (intake.onRequest body).result = .error failure) :
    dropsRequest intake told = true ↔ failure = .dropped := by
  rw [dropsRequest, stoppedRequest?_of_complete h, hresult]
  cases failure <;> simp [Conclusion.ofFailure]

/-- A request that the rules let pass is not dropped. -/
theorem dropsRequest_of_ok {body : Bytes} {request : Request}
    (h : requestReading told = .complete body)
    (hresult : (intake.onRequest body).result = .ok request) :
    dropsRequest intake told = false := by
  rw [dropsRequest, stoppedRequest?_of_complete h, hresult]
  rfl

/-- Whether a request is dropped does not change once it has been read. -/
theorem dropsRequest_append (h : (requestReading told).isOver = true) (event : Event) :
    dropsRequest intake (told ++ [event]) = dropsRequest intake told := by
  simp only [dropsRequest, stoppedRequest?, requestReading_append_singleton,
    RequestReading.next_of_isOver h]

end Drops

namespace Course

/-- Where a course stands once the client has left. -/
inductive Left (intake : Intake) (client : Client) (c : Course) : Prop
  /-- The request is being read, and nothing has been recorded. -/
  | reading (body : Bytes) (hstate : c.exchange.state = .active intake (.readingRequest body))
      (habandoned : c.exchange.abandoned = true) (hclient : c.exchange.client = client)
      (hclosings : c.closings = []) (hreading : requestReading c.told = .unfinished body)
  /-- The request has been read; the client has been sent nothing, unless a rule has dropped the
  request and so cut the connection. -/
  | finished (duration : Number) (hstate : c.exchange.state = .ended)
      (hreading : (requestReading c.told).isOver = true)
      (hclosings : c.closings = [(if dropsRequest intake c.told then .aborted else .cancelled,
        { duration := some (some duration) })])
      (hclient : c.exchange.client =
        if dropsRequest intake c.told then client.cut else client)

section Steps

variable {intake : Intake} {client : Client} {c : Course} {x : Exchange} (now : Number)

/-- A course that ends by a failure once its client has left is cancelled, unless a rule has
dropped the request. -/
theorem left_of_fail {failure : Failure} (hclient : x.client = client)
    (habandoned : x.abandoned = true) (hexchange : c.exchange = (x.fail now intake failure).1)
    (hclosings : c.closings = [x.failureEnd now failure])
    (hreading : (requestReading c.told).isOver = true)
    (hground : dropsRequest intake c.told = true ↔ failure = .dropped) :
    c.Left intake client := by
  have hstate : c.exchange.state = .ended := by rw [hexchange, state_fail]
  refine .finished (x.duration now) hstate hreading ?_ ?_
  · rw [hclosings]
    cases failure with
    | dropped => rw [if_pos (hground.2 rfl)]; rfl
    | target fault => simp [hground, failureEnd, habandoned]
    | cause cause => simp [hground, failureEnd, habandoned]
  · rw [hexchange, ← hclient]
    cases failure with
    | dropped => rw [if_pos (hground.2 rfl)]; rfl
    | target fault => simp [hground, fail, habandoned, giveUp]
    | cause cause => simp [hground, fail, habandoned, giveUp]

/-- A course that is given up once its request has passed the rules is cancelled. -/
theorem left_of_givenUp (cause : Cause) {body : Bytes} {request : Request}
    (hclient : x.client = client) (habandoned : x.abandoned = true)
    (hexchange : c.exchange = (x.fail now intake (.cause cause)).1)
    (hclosings : c.closings = [x.failureEnd now (.cause cause)])
    (hreading : requestReading c.told = .complete body)
    (hpassed : (intake.onRequest body).result = .ok request) : c.Left intake client := by
  refine left_of_fail now hclient habandoned hexchange hclosings (by rw [hreading]; rfl) ?_
  simp [dropsRequest_of_ok hreading hpassed]

/-- A course whose request breaks off once its client has left is cancelled. -/
theorem left_of_broken {cause : Cause} (hclient : x.client = client)
    (habandoned : x.abandoned = true)
    (hexchange : c.exchange = (x.fail now intake (.cause cause)).1)
    (hclosings : c.closings = [x.failureEnd now (.cause cause)])
    (hreading : requestReading c.told = .broken cause) : c.Left intake client := by
  refine left_of_fail now hclient habandoned hexchange hclosings (by rw [hreading]; rfl) ?_
  simp [dropsRequest_of_broken hreading]

end Steps

section Leaves

variable {intake : Intake} {client : Client} {c : Course}

/-- A client that leaves at any stage brings its course where clients have left. -/
theorem left_of_leave (htracks : c.Tracks intake client)
    (hactive : c.exchange.state.isEnded = false) (now : Number) :
    (c.next now .clientLeft).Left intake client := by
  cases hstate : c.exchange.state with
  | ended => rw [hstate] at hactive; cases hactive
  | active settled stage =>
      simp only [Tracks, hstate] at htracks
      obtain ⟨rfl, hclient, hclosings, hat⟩ := htracks
      have htold : ∀ {body : Bytes}, requestReading c.told = .complete body →
          requestReading (c.told ++ [.clientLeft]) = .complete body := fun h => by
        rw [requestReading_append_singleton, h, RequestReading.next_of_isOver rfl]
      rw [next_of_active now .clientLeft hstate]
      cases stage with
      | readingRequest body =>
          refine .reading body hstate rfl hclient (by simpa [nextFrom, leave] using hclosings) ?_
          rw [told_after, requestReading_append_singleton, hat.2]
          rfl
      | holdingRequest held delay =>
          obtain ⟨-, htimer, body, hreading, hholds⟩ := hat
          have hcancelled := Delay.next_cancelled_of_timer? htimer delayGivenUp
          refine left_of_givenUp (x := { c.exchange with abandoned := true }) now delayGivenUp
            hclient rfl ?_ ?_ (htold hreading) hholds.1
          · simp [nextFrom, leave, holdRequest, hcancelled]
          · simp [nextFrom, leave, holdRequest, hcancelled, hclosings, Effect.closing?]
      | awaitingResponse request =>
          obtain ⟨⟨-, body, hreading, hpassed⟩, -⟩ := hat
          refine left_of_givenUp (x := { c.exchange with abandoned := true }) now forwardingGivenUp
            hclient rfl rfl ?_ (htold hreading) hpassed
          simp [nextFrom, leave, hclosings]
      | readingResponse request status headers responseBody =>
          obtain ⟨⟨-, body, hreading, hpassed⟩, -⟩ := hat
          refine left_of_givenUp (x := { c.exchange with abandoned := true }) now forwardingGivenUp
            hclient rfl rfl ?_ (htold hreading) hpassed
          simp [nextFrom, leave, hclosings]
      | holdingResponse request held delay =>
          obtain ⟨⟨-, body, hreading, hpassed⟩, htimer, -⟩ := hat
          have hcancelled := Delay.next_cancelled_of_timer? htimer delayGivenUp
          refine left_of_givenUp (x := { c.exchange with abandoned := true }) now delayGivenUp
            hclient rfl ?_ ?_ (htold hreading) hpassed
          · simp [nextFrom, leave, holdResponse, hcancelled]
          · simp [nextFrom, leave, holdResponse, hcancelled, hclosings, Effect.closing?]

/-- A course whose request becomes complete once its client has left is given up. -/
theorem left_of_complete {body : Bytes} (hclient : c.exchange.client = client)
    (habandoned : c.exchange.abandoned = true) (hclosings : c.closings = []) (now : Number)
    (hcomplete : requestReading (c.told ++ [.requestEnd]) = .complete body) :
    (c.after now .requestEnd (c.exchange.judgeRequest now intake body)).Left intake client := by
  simp only [judgeRequest_eq]
  cases hresult : (intake.onRequest body).result with
  | error failure =>
      refine left_of_fail now hclient habandoned rfl (by simp [hclosings])
        (by rw [told_after, hcomplete]; rfl) ?_
      exact dropsRequest_of_error hcomplete hresult
  | ok request =>
      -- The first delay is given up from the start, and so is a request without delay.
      cases hdelay : (intake.onRequest body).delay with
      | none =>
          refine left_of_givenUp now forwardingGivenUp hclient habandoned ?_ ?_ hcomplete hresult
          · simp [firstDelay, holdRequest, releaseRequest, forward, habandoned]
          · simp [firstDelay, holdRequest, releaseRequest, forward, habandoned, hclosings,
              Effect.closing?]
      | some time =>
          refine left_of_givenUp now delayGivenUp hclient habandoned ?_ ?_ hcomplete hresult
          · simp [firstDelay, holdRequest, givenUp?, Delay.start, habandoned]
          · simp [firstDelay, holdRequest, givenUp?, Delay.start, habandoned, hclosings]

/-- A course whose client has left goes on to read its request, and is given up then. -/
theorem left_next (hleft : c.Left intake client) (now : Number) (event : Event) :
    (c.next now event).Left intake client := by
  cases hleft with
  | finished duration hstate hreading hclosings hclient =>
      rw [next_of_ended now event hstate]
      refine .finished duration hstate ?_ ?_ ?_
      · rwa [told_after, requestReading_append_singleton, RequestReading.next_of_isOver hreading]
      · rw [told_after, dropsRequest_append hreading]
        simpa using hclosings
      · rw [told_after, dropsRequest_append hreading]
        exact hclient
  | reading body hstate habandoned hclient hclosings hreading =>
      rw [next_of_active now event hstate]
      cases event with
      | requestChunk bytes =>
          refine .reading (body ++ bytes) rfl habandoned hclient
            (by simpa [nextFrom] using hclosings) ?_
          rw [told_after, requestReading_append_singleton, hreading]
          rfl
      | requestEnd =>
          refine left_of_complete hclient habandoned hclosings now ?_
          rw [requestReading_append_singleton, hreading]
          rfl
      | requestFailed cause =>
          refine left_of_broken now hclient habandoned rfl (by simp [nextFrom, hclosings]) ?_
          rw [told_after, requestReading_append_singleton, hreading]
          rfl
      | requestClosed =>
          refine left_of_broken now hclient habandoned rfl (by simp [nextFrom, hclosings]) ?_
          rw [told_after, requestReading_append_singleton, hreading]
          rfl
      | _ =>
          refine .reading body hstate (by simp [nextFrom, leave, habandoned]) hclient
            (by simpa [nextFrom, leave] using hclosings) ?_
          rw [told_after, requestReading_append_singleton, hreading]
          rfl

/-- A course whose client has left stays so, whatever else happens. -/
theorem left_run (hleft : c.Left intake client) (trace : List (Number × Event)) :
    (c.run trace).Left intake client :=
  run_induction hleft (fun _ now event h => left_next h now event) trace

/-- No message is held back once the client has left. -/
theorem Left.isHolding_eq (hleft : c.Left intake client) : c.exchange.isHolding = false := by
  cases hleft with
  | reading body hstate => simp [isHolding, hstate]
  | finished duration hstate => exact isHolding_of_ended hstate

/-- As long as an exchange goes on nothing has been recorded once the client has left. -/
theorem Left.of_active (hleft : c.Left intake client) (hactive : c.exchange.state.isEnded = false) :
    c.closings = [] ∧ c.exchange.client = client := by
  cases hleft with
  | reading body hstate habandoned hclient hclosings => exact ⟨hclosings, hclient⟩
  | finished duration hstate => rw [hstate] at hactive; cases hactive

/-- An exchange that has ended once the client has left was cancelled, or a rule dropped its
request. -/
theorem Left.of_ended (hleft : c.Left intake client) (hended : c.exchange.state.isEnded = true) :
    (∃ duration, c.closings = [(if dropsRequest intake c.told then .aborted else .cancelled,
      { duration := some (some duration) })]) ∧
    c.exchange.client = if dropsRequest intake c.told then client.cut else client := by
  cases hleft with
  | reading body hstate => rw [hstate] at hended; cases hended
  | finished duration hstate hreading hclosings hclient => exact ⟨⟨duration, hclosings⟩, hclient⟩

/-- A step after which the client has left sets no timer. -/
theorem asked_next_of_left {now : Number} {event : Event}
    (hnext : (c.next now event).Left intake client) :
    ∃ more, (c.next now event).asked = c.asked ++ more ∧
      ∀ time milliseconds, (time, .setTimer milliseconds) ∉ more := by
  refine ⟨(c.exchange.next now event).2.map (now, ·), rfl, fun time milliseconds hmem => ?_⟩
  obtain ⟨effect, heffect, heq⟩ := List.mem_map.1 hmem
  cases heq
  exact not_mem_of_not_isHolding hnext.isHolding_eq milliseconds heffect

/-- Once the client has left no timer is set any more. -/
theorem asked_of_left {now : Number} {event : Event} (hnext : (c.next now event).Left intake client)
    (trace : List (Number × Event)) :
    ∃ more, ((c.next now event).run trace).asked = c.asked ++ more ∧
      ∀ time milliseconds, (time, .setTimer milliseconds) ∉ more := by
  obtain ⟨first, hasked, hnone⟩ := asked_next_of_left hnext
  induction trace generalizing c now event first with
  | nil => exact ⟨first, hasked, hnone⟩
  | cons entry rest ih =>
      obtain ⟨later, other⟩ := entry
      have hlater := left_next hnext later other
      obtain ⟨second, hasked', hnone'⟩ := asked_next_of_left hlater
      obtain ⟨more, hmore, hrest⟩ := ih hlater second hasked' hnone'
      refine ⟨first ++ more, ?_, ?_⟩
      · rw [run_cons, hmore, hasked, List.append_assoc]
      · intro time milliseconds hmem
        rcases List.mem_append.1 hmem with hfirst | hlast
        · exact hnone time milliseconds hfirst
        · exact hrest time milliseconds hlast

end Leaves

end Course

end Exchange

end FaultInjection
