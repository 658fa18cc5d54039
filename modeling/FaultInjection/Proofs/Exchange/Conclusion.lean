import FaultInjection.Proofs.Exchange.Progress

/-!
# Exchanges - Conclusions

While the client stays and takes what it is sent, the way an exchange ends is the first
that applies of a fixed list of grounds.  It depends on the request that arrives, the
configuration, what was read of the request and what was read of the response, and on
nothing else: neither on delays nor on events that come out of turn.

Main definitions:

- `Exchange.Conclusion`, how an exchange ends for its client and in the log.
- `Exchange.conclusion?`, the first ground that applies, once one is known to.
- `Course.ClientStays`, a client that does not leave before the end.

Main results:

- `Course.conclusion_of_run`: an exchange ends as the first ground says, and forwards
  nothing where that is a ground to stop the request.
-/

namespace FaultInjection

namespace Exchange

/-! ## Conclusions -/

/-- How an exchange ends. -/
inductive Conclusion where
  /-- The client is told a status and a text. -/
  | refused (status : Number)
  /-- The connection to the client is cut. -/
  | dropped
  /-- The client is sent a response with a status. -/
  | answered (status : Number)
  deriving DecidableEq, Repr

namespace Conclusion

/-- The outcome that is recorded. -/
def outcome : Conclusion → History.Outcome
  | refused _ => .failed
  | dropped => .aborted
  | answered _ => .forwarded

/-- The status that is recorded. -/
def status? : Conclusion → Option Number
  | refused status | answered status => some status
  | dropped => none

/-- What the client is sent, and nothing besides. -/
def Sends : Conclusion → List Client.Sent → Prop
  | refused status, sent =>
    ∃ message, sent = [.head status Client.textFields, .text message]
  | dropped, sent => sent = [.cut]
  | answered status, sent => ∃ fields body, sent = [.head status fields, .body body]

/-- What an exchange records as its end, and what its client is sent. -/
def Describes (k : Conclusion) (closings : List (History.Outcome × History.Update))
    (sent : List Client.Sent) : Prop :=
  closings.map (fun close => (close.1, close.2.status)) = [(k.outcome, k.status?.map some)] ∧
    k.Sends sent

end Conclusion

/-! ## Grounds -/

/-- The first ground to stop a request, as far as it was read. -/
def stoppedRequest? (intake : Intake) (told : List Event) : Option Conclusion :=
  match requestReading told with
  | .unfinished _ => none
  | .broken _ => some (.refused 502)
  | .complete body =>
    match (Rule.forRequest intake.rules intake.port (intake.request body)).head? with
    | none => none
    | some rule =>
      if rule.actions.abort then some .dropped
      else
        match rule.actions.rewriteRequest (intake.request body) with
        | .error _ => some (.refused 500)
        | .ok _ => none

/-- What becomes of the response to a request that was forwarded, as far as it was read. -/
def concludedResponse? (intake : Intake) (replies : List Event) : Option Conclusion :=
  match responseReading replies with
  | .awaited | .unfinished .. => none
  | .broken _ => some (.refused 502)
  | .complete response =>
    match (Rule.forResponse intake.rules intake.inbound response).head? with
    | none => some (.answered response.status)
    | some rule =>
      if rule.actions.abort then some .dropped
      else some (.answered ((rule.actions.replace.bind (·.code)).getD response.status))

/-- The first ground that applies to a request that arrives, by what was read of the request and
of the response. -/
def conclusion? [Domain.Mapping] (config : Config) (arrival : Arrival) (told replies : List Event) :
    Option Conclusion :=
  match Target.parse arrival.targetText with
  | .error _ => some (.refused 400)
  | .ok target =>
    if target.scheme.any (lowerCase · != "http") then some (.refused 501)
    else
      match Destination.ofRequest? target arrival.host? with
      | none => some (.refused 400)
      | some destination =>
        let intake : Intake := {
          method := arrival.methodText
          target
          headers := arrival.headerList
          destination
          rules := if config.coversPort (.ofNat destination.port) then config.rules else [] }
        (stoppedRequest? intake told).orElse fun _ => concludedResponse? intake replies

/-- A target that can be read leaves the scheme and the host to decide. -/
theorem takeIn_of_parse [Domain.Mapping] {rules : Destination → List Rule} {arrival : Arrival}
    {target : Target} (hparse : Target.parse arrival.targetText = .ok target) :
    takeIn rules arrival =
      match foreignScheme? target with
      | some scheme => .error (501, "Unsupported scheme: " ++ scheme)
      | none =>
        match Destination.ofRequest? target arrival.host? with
        | none => .error (400, "Missing destination host")
        | some destination => .ok {
            method := arrival.methodText
            target
            headers := arrival.headerList
            destination
            rules := rules destination } := by
  have hmap (f : TargetFault → Number × String) :
      (Except.ok target).mapError f = .ok target := rfl
  rw [takeIn, hparse, hmap]
  cases hscheme : foreignScheme? target with
  | some scheme =>
      simp [bind, Except.bind, throw, throwThe, MonadExceptOf.throw, hscheme]
  | none =>
      cases hdestination : Destination.ofRequest? target arrival.host? <;>
        simp [bind, Except.bind, throw, throwThe, MonadExceptOf.throw, pure, Except.pure,
          hscheme, hdestination]

/-- What is settled about a request that is taken in comes from its head, save for the rules. -/
theorem settled_of_takeIn [Domain.Mapping] {rules : Destination → List Rule} {arrival : Arrival}
    {intake : Intake} (h : takeIn rules arrival = .ok intake) :
    Target.parse arrival.targetText = .ok intake.target ∧
      intake.method = arrival.methodText ∧ intake.headers = arrival.headerList ∧
      intake.rules = rules intake.destination := by
  cases hparse : Target.parse arrival.targetText with
  | error fault =>
      rw [takeIn, hparse] at h
      cases h
  | ok target =>
      rw [takeIn_of_parse hparse] at h
      split at h
      · cases h
      · split at h
        · cases h
        · cases h
          exact ⟨rfl, rfl, rfl, rfl⟩

/-- A request that is refused as it arrives has the status of the refusal as its ground, and any
other goes by what is read. -/
theorem conclusion?_eq [Domain.Mapping] (config : Config) (arrival : Arrival)
    (told replies : List Event) :
    conclusion? config arrival told replies =
      match takeIn (rulesFor config) arrival with
      | .error (status, _) => some (.refused status)
      | .ok intake =>
        (stoppedRequest? intake told).orElse fun _ => concludedResponse? intake replies := by
  rw [conclusion?]
  cases hparse : Target.parse arrival.targetText with
  | error fault =>
      rw [takeIn, hparse]
      rfl
  | ok target =>
      rw [takeIn_of_parse hparse]
      cases hscheme : foreignScheme? target with
      | some scheme =>
          obtain ⟨hsome, hforeign⟩ := Option.filter_eq_some_iff.1 hscheme
          have hany : target.scheme.any (lowerCase · != "http") = true := by
            rw [hsome]
            exact hforeign
          simp only [hany, if_true]
      | none =>
          have hany : target.scheme.any (lowerCase · != "http") = false := by
            cases hs : target.scheme with
            | none => rfl
            | some scheme =>
                rw [foreignScheme?, hs, Option.filter_eq_none_iff] at hscheme
                exact Bool.eq_false_iff.2 (hscheme scheme rfl)
          cases hdestination : Destination.ofRequest? target arrival.host? <;>
            simp [hany, hdestination, rulesFor, Config.rulesFor]

/-! ## Requests and responses that are stopped -/

section Grounds

variable {intake : Intake} {told replies : List Event}

/-- The conclusion that a failure comes to while the client stays. -/
def Conclusion.ofFailure : Failure → Conclusion
  | .dropped => .dropped
  | failure => .refused (failureStatus failure)

/-- A body that does not become complete is a ground to stop the request. -/
theorem stoppedRequest?_of_broken {cause : Cause} (h : requestReading told = .broken cause) :
    stoppedRequest? intake told = some (.ofFailure (.cause cause)) := by
  simp only [stoppedRequest?, h]
  rfl

/-- A rule stops a request exactly where its verdict is a failure. -/
theorem stoppedRequest?_of_complete {body : Bytes} (h : requestReading told = .complete body) :
    stoppedRequest? intake told =
      match (intake.onRequest body).result with
      | .error failure => some (.ofFailure failure)
      | .ok _ => none := by
  simp only [stoppedRequest?, h, Intake.onRequest, Rule.result_onRequest]
  cases (Rule.forRequest intake.rules intake.port (intake.request body)).head? with
  | none => rfl
  | some rule =>
      simp only [Actions.changeRequest]
      cases rule.actions.abort with
      | true => rfl
      | false =>
          cases rule.actions.rewriteRequest (intake.request body) <;> rfl

/-- A response that does not become complete concludes the exchange. -/
theorem concludedResponse?_of_broken {cause : Cause}
    (h : responseReading replies = .broken cause) :
    concludedResponse? intake replies = some (.ofFailure (.cause cause)) := by
  simp only [concludedResponse?, h]
  rfl

/-- A complete response concludes the exchange as the verdict of the rules says. -/
theorem concludedResponse?_of_complete {response : Response}
    (h : responseReading replies = .complete response) :
    concludedResponse? intake replies =
      match (intake.onResponse response).result with
      | .error failure => some (.ofFailure failure)
      | .ok message => some (.answered message.status) := by
  simp only [concludedResponse?, h, Intake.onResponse, Rule.result_onResponse]
  cases (Rule.forResponse intake.rules intake.inbound response).head? with
  | none => rfl
  | some rule =>
      simp only [Actions.changeResponse]
      cases rule.actions.abort with
      | true => rfl
      | false => cases rule.actions.append <;> cases rule.actions.replace <;> rfl

end Grounds

/-! ## Failures while the client stays -/

section Describes

variable {x : Exchange} (now : Number) (intake : Intake)

/-- A new client is sent a text whole. -/
theorem sent_refuse (hclient : x.client = {}) (status : Number) (message : String) :
    (x.refuse now status message).1.client.sent =
      [.head status Client.textFields, .text message] := by
  simp [refuse, answerText, Client.answerText, Client.answer, Client.sendHead, Client.finish,
    Client.nextFault, hclient]

/-- A refusal ends an exchange with a new client as a conclusion. -/
theorem describes_refuse (hclient : x.client = {}) (status : Number) (message : String) :
    (Conclusion.refused status).Describes (closings (x.refuse now status message).2)
      (x.refuse now status message).1.client.sent :=
  ⟨by rw [closings_refuse]; rfl, message, sent_refuse now hclient status message⟩

/-- A failure is recorded as its conclusion says while the client stays. -/
theorem failureEnd_eq (hstays : x.abandoned = false) (failure : Failure) :
    x.failureEnd now failure = ((Conclusion.ofFailure failure).outcome, {
      status := (Conclusion.ofFailure failure).status?.map some
      duration := some (some (x.duration now)) }) := by
  cases failure <;> simp [failureEnd, hstays, Conclusion.ofFailure, Conclusion.outcome,
    Conclusion.status?]

/-- A failure ends an exchange with a new client as its conclusion says. -/
theorem describes_fail (hclient : x.client = {}) (hstays : x.abandoned = false)
    (failure : Failure) :
    (Conclusion.ofFailure failure).Describes [x.failureEnd now failure]
      (x.fail now intake failure).1.client.sent := by
  refine ⟨by rw [failureEnd_eq now hstays]; rfl, ?_⟩
  cases failure with
  | dropped => simp [fail, hclient, Client.cut, Conclusion.Sends, Conclusion.ofFailure]
  | target fault =>
      refine ⟨"Rule rewrite failed: " ++ fault.message, ?_⟩
      simp only [fail, hstays, Bool.false_eq_true, if_false]
      exact sent_refuse now hclient _ _
  | cause cause =>
      refine ⟨"Proxy Error: " ++ cause.text, ?_⟩
      simp only [fail, hstays, Bool.false_eq_true, if_false]
      exact sent_refuse now hclient _ _

/-- A response that is released to a new client ends the exchange with its status. -/
theorem describes_releaseResponse (hclient : x.client = {}) (request : Request)
    (held : Held Response) :
    (Conclusion.answered held.message.status).Describes
      (closings (x.releaseResponse now intake request held).2)
      (x.releaseResponse now intake request held).1.client.sent := by
  have htaken : (x.client.answer held.message.status (answerFields request held)
      (.body held.message.body)).2 = none := by
    rw [Client.answer_isNone_iff, hclient]
    exact ⟨rfl, rfl⟩
  constructor
  · rw [closings_releaseResponse, htaken]
    rfl
  · rw [sent_releaseResponse x now intake request held htaken, hclient]
    exact ⟨_, _, rfl⟩

end Describes

/-! ## Courses -/

/-- Whether an exchange holds a message back while a timer runs. -/
def isHolding (x : Exchange) : Bool :=
  match x.state with
  | .active _ (.holdingRequest _ delay) | .active _ (.holdingResponse _ _ delay) =>
    delay.timer?.isSome
  | _ => false

namespace Course

/-- A client that does not leave before the exchange has ended. -/
def ClientStays (c : Course) : List (Number × Event) → Prop
  | [] => True
  | (now, event) :: rest =>
    (event = .clientLeft → c.exchange.state = .ended) ∧ (c.next now event).ClientStays rest

/-- A client that stays has not left when the exchange has ended. -/
theorem abandoned_run {c : Course} (hwaits : c.exchange.abandoned = false)
    {trace : List (Number × Event)} (hstays : c.ClientStays trace) :
    (c.run trace).exchange.abandoned = false := by
  induction trace generalizing c with
  | nil => exact hwaits
  | cons entry rest ih =>
      obtain ⟨now, event⟩ := entry
      obtain ⟨hleft, hrest⟩ := hstays
      have hnext : (c.next now event).exchange.abandoned = false := by
        by_cases hevent : event = .clientLeft
        · rw [next_of_ended now event (hleft hevent)]
          exact hwaits
        · rw [next, exchange_after, abandoned_next _ now hevent]
          exact hwaits
      exact ih hnext hrest

section Tracks

variable {intake : Intake} {c : Course}

/-- A failure that a client has waited for is the first ground that applies. -/
theorem conclusion_of_failing {failure : Failure} (hfailing : c.Failing intake failure)
    (hwaits : c.exchange.abandoned = false) :
    (stoppedRequest? intake c.told).orElse (fun _ => concludedResponse? intake c.replies) =
      some (.ofFailure failure) := by
  cases hfailing with
  | requestBroken hforwards hreading => rw [stoppedRequest?_of_broken hreading]; rfl
  | requestStopped hforwards hreading hresult =>
      rw [stoppedRequest?_of_complete hreading, hresult]
      rfl
  | responseBroken hforwarded hreading =>
      obtain ⟨-, body, hcomplete, hpassed⟩ := hforwarded
      rw [stoppedRequest?_of_complete hcomplete, hpassed]
      exact concludedResponse?_of_broken hreading
  | responseStopped hforwarded hreading hresult =>
      obtain ⟨-, body, hcomplete, hpassed⟩ := hforwarded
      rw [stoppedRequest?_of_complete hcomplete, hpassed]
      exact (concludedResponse?_of_complete hreading).trans (by rw [hresult])
  | givenUp habandoned hforwards =>
      -- Only an exchange without a client gives up.
      rw [hwaits] at habandoned
      cases habandoned

/-- An exchange that has ended while its client waited has ended as the first ground says. -/
theorem conclusion_of_over (hover : c.Over intake {}) (hwaits : c.exchange.abandoned = false) :
    ∃ k, (stoppedRequest? intake c.told).orElse
        (fun _ => concludedResponse? intake c.replies) = some k ∧
      k.Describes c.closings c.exchange.client.sent := by
  cases hover with
  | failed x now failure hclient hexchange hclosings hfailing =>
      refine ⟨.ofFailure failure, conclusion_of_failing hfailing hwaits, ?_⟩
      have hstays : x.abandoned = false := by
        rw [hexchange, abandoned_fail] at hwaits
        exact hwaits
      rw [hclosings, hexchange]
      exact describes_fail now intake hclient hstays failure
  | answered x now request response held hclient hexchange hclosings hforwarded hreading hholds =>
      obtain ⟨-, body, hcomplete, hpassed⟩ := hforwarded
      refine ⟨.answered held.message.status, ?_, ?_⟩
      · rw [stoppedRequest?_of_complete hcomplete, hpassed]
        exact (concludedResponse?_of_complete hreading).trans (by rw [hholds.1])
      · rw [hclosings, hexchange]
        exact describes_releaseResponse now intake hclient request held

/-- No ground applies to an exchange that goes on, unless it holds a message back. -/
theorem conclusion_of_at {stage : Stage} (hstate : c.exchange.state = .active intake stage)
    (hat : c.At intake stage) (hreplies : c.forwards = [] → c.replies = []) :
    (stoppedRequest? intake c.told).orElse
        (fun _ => concludedResponse? intake c.replies) = none ∨ c.exchange.isHolding = true := by
  cases stage with
  | readingRequest body =>
      left
      obtain ⟨hforwards, hreading⟩ := hat
      rw [hreplies hforwards]
      simp [stoppedRequest?, hreading, concludedResponse?]
  | holdingRequest held delay =>
      right
      simpa [isHolding, hstate] using hat.2.1
  | awaitingResponse request =>
      left
      obtain ⟨⟨-, body, hcomplete, hpassed⟩, hreading⟩ := hat
      rw [stoppedRequest?_of_complete hcomplete, hpassed]
      simp [concludedResponse?, hreading]
  | readingResponse request status headers body =>
      left
      obtain ⟨⟨-, whole, hcomplete, hpassed⟩, hreading⟩ := hat
      rw [stoppedRequest?_of_complete hcomplete, hpassed]
      simp [concludedResponse?, hreading]
  | holdingResponse request held delay =>
      right
      simpa [isHolding, hstate] using hat.2.1

/-- A course has forwarded nothing, or a request that was complete and passed the rules. -/
theorem forwards_of_tracks {client : Client} (htracks : c.Tracks intake client) :
    c.forwards = [] ∨ ∃ request, c.HasForwarded intake request := by
  unfold Tracks at htracks
  split at htracks
  · obtain ⟨rfl, -, -, hat⟩ := htracks
    rename_i stage _
    cases stage with
    | readingRequest body => exact .inl hat.1
    | holdingRequest held delay => exact .inl hat.1
    | awaitingResponse request => exact .inr ⟨request, hat.1⟩
    | readingResponse request status headers body => exact .inr ⟨request, hat.1⟩
    | holdingResponse request held delay => exact .inr ⟨request, hat.1⟩
  · cases htracks with
    | answered x now request response held hclient hexchange hclosings hforwarded =>
        exact .inr ⟨request, hforwarded⟩
    | failed x now failure hclient hexchange hclosings hfailing =>
        cases hfailing with
        | requestBroken hforwards => exact .inl hforwards
        | requestStopped hforwards => exact .inl hforwards
        | responseBroken hforwarded => exact .inr ⟨_, hforwarded⟩
        | responseStopped hforwarded => exact .inr ⟨_, hforwarded⟩
        | givenUp _ hforwards => exact hforwards

/-- Any course has forwarded nothing, or a request that was taken in, was complete and passed the
rules. -/
theorem forwards_run [Domain.Mapping] (id : Nat) (start : Number) (config : Config)
    (arrival : Arrival) (client : Client) (trace : List (Number × Event)) :
    let c := (Course.start id start (.ok config) arrival client).run trace
    c.forwards = [] ∨ ∃ intake request, takeIn (rulesFor config) arrival = .ok intake ∧
      c.HasForwarded intake request := by
  intro c
  cases htake : takeIn (rulesFor config) arrival with
  | error refusal =>
      obtain ⟨status, text⟩ := refusal
      obtain ⟨-, hasked⟩ := run_of_takeIn_error id start client htake trace
      exact .inl (by rw [forwards_of_asked hasked, forwards_refuse])
  | ok intake =>
      refine (forwards_of_tracks (tracks_run id start client htake trace)).imp_right ?_
      rintro ⟨request, hforwarded⟩
      exact ⟨intake, request, rfl, hforwarded⟩

/-- A request for which there is a ground to stop it is not forwarded. -/
theorem forwards_of_stoppedRequest {client : Client} (htracks : c.Tracks intake client)
    (hstopped : stoppedRequest? intake c.told ≠ none) : c.forwards = [] := by
  rcases forwards_of_tracks htracks with hnone | ⟨request, -, body, hcomplete, hpassed⟩
  · exact hnone
  · rw [stoppedRequest?_of_complete hcomplete, hpassed] at hstopped
    exact absurd rfl hstopped

end Tracks

/-- Nothing is news of the response as long as nothing has been forwarded. -/
theorem replies_run {c : Course} (hstart : c.forwards = [] → c.replies = [])
    (trace : List (Number × Event)) :
    (c.run trace).forwards = [] → (c.run trace).replies = [] := by
  refine run_induction (motive := fun c => c.forwards = [] → c.replies = []) hstart ?_ trace
  intro c now event _ hforwards
  rw [next, forwards_after, List.append_eq_nil_iff] at hforwards
  exact c.replies_after_nil now event _ hforwards.1

/-- The client of a request that arrives has not left. -/
theorem abandoned_start [Domain.Mapping] (id : Nat) (now : Number) (config : Config)
    (arrival : Arrival) (client : Client) :
    (start id now (.ok config) arrival client).exchange.abandoned = false := by
  simp only [start, Exchange.start]
  cases takeIn (rulesFor config) arrival with
  | error refusal => simp
  | ok intake => rfl

/-- An exchange whose client stays, and takes what it is sent, ends as the first ground that
applies says; it goes on as long as none applies or a timer holds a message back; and it forwards
nothing where what was read of the request is a ground to stop it. -/
theorem conclusion_of_run [Domain.Mapping] (id : Nat) (start : Number) (config : Config)
    (arrival : Arrival) (trace : List (Number × Event))
    (hstays : (Course.start id start (.ok config) arrival {}).ClientStays trace) :
    let c := (Course.start id start (.ok config) arrival {}).run trace
    let told := trace.map Prod.snd
    (c.exchange.state.isEnded = true → ∃ k, conclusion? config arrival told c.replies = some k ∧
      k.Describes c.closings c.exchange.client.sent) ∧
    (c.exchange.state.isEnded = false → c.closings = [] ∧ c.exchange.client.sent = [] ∧
      (conclusion? config arrival told c.replies = none ∨ c.exchange.isHolding = true)) ∧
    (conclusion? config arrival told [] ≠ none → c.forwards = []) := by
  intro c told
  have htold : c.told = told := by
    simp [c, told, told_run, Course.start]
  have hwaits : c.exchange.abandoned = false :=
    abandoned_run (abandoned_start id start config arrival {}) hstays
  simp only [conclusion?_eq]
  cases htake : takeIn (rulesFor config) arrival with
  | error refusal =>
      obtain ⟨status, message⟩ := refusal
      obtain ⟨hexchange, hasked⟩ := run_of_takeIn_error id start {} htake trace
      have hended : c.exchange.state.isEnded = true := by
        rw [State.isEnded_iff, hexchange, state_refuse]
      refine ⟨fun _ => ⟨.refused status, rfl, ?_⟩, fun hactive => ?_, fun _ => ?_⟩
      · rw [closings_of_asked hasked, hexchange]
        exact describes_refuse start rfl status message
      · rw [hended] at hactive
        cases hactive
      · rw [forwards_of_asked hasked, forwards_refuse]
  | ok intake =>
      have htracks : c.Tracks intake {} := tracks_run id start {} htake trace
      have hreplies : c.forwards = [] → c.replies = [] := replies_run (fun _ => rfl) trace
      rw [← htold]
      refine ⟨fun hended => ?_, fun hactive => ?_, fun hstopped => ?_⟩
      · simp only [Tracks, State.isEnded_iff.1 hended] at htracks
        exact conclusion_of_over htracks hwaits
      · cases hstate : c.exchange.state with
        | ended => rw [hstate] at hactive; cases hactive
        | active settled stage =>
            simp only [Tracks, hstate] at htracks
            obtain ⟨rfl, hclient, hclosings, hat⟩ := htracks
            refine ⟨hclosings, by rw [hclient], ?_⟩
            exact conclusion_of_at hstate hat hreplies
      · -- Without replies nothing but the request itself can be a ground.
        refine forwards_of_stoppedRequest htracks ?_
        cases hrequest : stoppedRequest? intake c.told with
        | none => simp [hrequest, concludedResponse?] at hstopped
        | some k => simp

/-! ## A response that a rule turns into an outage -/

/-- A rule that tells clients that a server is not available. -/
def outage : Config where
  listenPort := 58080
  proxyPorts := [80]
  rules := [{
    name := "outage"
    side := .response
    selector := { code := some 200 }
    actions := { replace := some { code := some 503 } } }]

/-- A request for the root of a server. -/
def rootRequest : Arrival := { target := some "http://h/" }

/-- The request is complete, and a response comes back in two pieces. -/
def servedInPieces : List (Number × Event) := [
  (0, .requestEnd),
  (5, .responseHead (some 200) (.ofFlat ["Content-Length", "2"])),
  (6, .responseChunk [79]),
  (7, .responseChunk [75]),
  (8, .responseEnd)]

/-- The rule decides what the client is told, and the exchange ends as forwarded. -/
theorem conclusion_of_run_outage :
    let c := (Course.start 1 0 (.ok outage) rootRequest {}).run servedInPieces
    (Course.start 1 0 (.ok outage) rootRequest {}).ClientStays servedInPieces ∧
      conclusion? outage rootRequest (servedInPieces.map Prod.snd) c.replies =
        some (.answered 503) ∧
      ∃ k, conclusion? outage rootRequest (servedInPieces.map Prod.snd) c.replies = some k ∧
        k.Describes c.closings c.exchange.client.sent :=
  have hstays : (Course.start 1 0 (.ok outage) rootRequest {}).ClientStays servedInPieces := by
    simp [ClientStays, servedInPieces]
  ⟨hstays, by decide +kernel,
    (conclusion_of_run 1 0 outage rootRequest servedInPieces hstays).1 (by decide +kernel)⟩

end Course

end Exchange

end FaultInjection
