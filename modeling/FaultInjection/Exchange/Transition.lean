import FaultInjection.Exchange
import FaultInjection.Rule.Verdict

/-!
# Exchanges - Transitions

An exchange starts when a request arrives; a request that names no target or no
destination is refused at once.  From then on each event takes the exchange one step
further.  An exchange that has failed answers its client with a text, unless a rule
asks for the connection to be cut or the client has left.

When the client leaves, whatever the exchange waits for is given up.  An exchange
that is still reading the request goes on until its body is complete or fails, and is
given up then.

Main definitions:

- `Exchange.start`, the exchange of a request that arrives.
- `Exchange.next`, an exchange after an event, with the effects it asks for.

Main results:

- `Exchange.next_ended`: nothing happens to an exchange that has ended.
-/

namespace FaultInjection

namespace Exchange

/-- An exchange with the effects it asks for. -/
abbrev Outcome := Exchange × List Effect

/-! ## Ends -/

/-- The effect of logging a message about exchanges. -/
def logged (level : Log.Level) (message : String) : Effect :=
  .log { level, scope := logScope, message }

/-- The effect of the end of an exchange without a status. -/
def closing (x : Exchange) (now : Number) (outcome : History.Outcome) : Effect :=
  .close outcome { duration := some (some (x.duration now)) }

/-- The effect of the end of an exchange with a status. -/
def closingWith (x : Exchange) (now : Number) (outcome : History.Outcome) (status : Number) :
    Effect :=
  .close outcome { status := some (some status), duration := some (some (x.duration now)) }

/-- The exchange ended by a fault of its own; a client that still waits is told so. -/
def collapse (x : Exchange) (reason : String) : Outcome :=
  ({ x with client := (x.client.answerText 500 "Internal proxy error").1, state := .ended },
    [logged .error ("Unhandled proxy error: " ++ reason)])

/-- The exchange ended with a text for its client. -/
def answerText (x : Exchange) (status : Number) (message : String) : Outcome :=
  match x.client.answerText status message with
  | (client, none) => ({ x with client, state := .ended }, [])
  | (client, some cause) => { x with client }.collapse cause.text

/-- The exchange ended as failed, with a text for its client. -/
def refuse (x : Exchange) (now : Number) (status : Number) (message : String) : Outcome :=
  let (ended, effects) := x.answerText status message
  (ended, x.closingWith now .failed status :: effects)

/-- The exchange given up because its client has left. -/
def giveUp (x : Exchange) (now : Number) (intake : Intake) : Outcome :=
  ({ x with state := .ended },
    [logged .debug (intake.title ++ " cancelled by client"), x.closing now .cancelled])

/-- The exchange ended by a failure. -/
def fail (x : Exchange) (now : Number) (intake : Intake) : Failure → Outcome
  | .dropped =>
    ({ x with client := x.client.cut, state := .ended },
      [logged .info (intake.title ++ " aborted by rule"), x.closing now .aborted])
  | .target fault =>
    if x.abandoned then x.giveUp now intake
    else
      let (ended, effects) := x.refuse now 500 ("Rule rewrite failed: " ++ fault.message)
      (ended,
        logged .warn (intake.title ++ ": rule produced an invalid URI: " ++ fault.message) ::
          effects)
  | .cause cause =>
    if x.abandoned then x.giveUp now intake
    else
      let (ended, effects) := x.refuse now 502 ("Proxy Error: " ++ cause.text)
      (ended, logged .warn (intake.title ++ ": upstream error: " ++ cause.text) :: effects)

/-! ## Causes -/

/-- The cause of a body that is not complete. -/
def incomplete : Cause := .error "connection closed before the body was complete"

/-- The cause of a forwarded request that is given up. -/
def forwardingGivenUp : Cause := .error "The operation was aborted"

/-- The cause of a delay that is given up. -/
def delayGivenUp : Cause := .error "This operation was aborted"

/-- The cause for which delays of an exchange are given up from the start. -/
def givenUp? (x : Exchange) : Option Cause := if x.abandoned then some delayGivenUp else none

/-! ## The response -/

/-- The effects of a rule that was applied. -/
def ruleEffects (side : Rule.Side) (rule : Option Rule) : List Effect :=
  match rule, side with
  | none, _ => []
  | some rule, .request => [.countRule .request, .amend { requestRule := some (some rule.name) }]
  | some rule, .response => [.countRule .response, .amend { responseRule := some (some rule.name) }]

/-- The effects of a message that is released. -/
def releaseEffects {α : Type} (side : Rule.Side) (held : Held α) : List Effect :=
  held.release.map Effect.log ++ ruleEffects side held.rule

/-- The exchange that answers its client with a response. -/
def releaseResponse (x : Exchange) (now : Number) (intake : Intake) (request : Request)
    (held : Held Response) : Outcome :=
  let response := held.message
  let fields := (responseHeaders request.method response.status response.headers response.body
    (held.rule.any (·.actions.replacesBody))).toRecord
  let released := releaseEffects .response held
  match x.client.answer response.status fields (.body response.body) with
  | (client, none) =>
    ({ x with client, state := .ended },
      released ++ [x.closingWith now .forwarded response.status])
  | (client, some cause) =>
    let (ended, effects) := { x with client }.fail now intake (.cause cause)
    (ended, released ++ effects)

/-- The exchange whose response is held back by a delay. -/
def holdResponse (x : Exchange) (now : Number) (intake : Intake) (request : Request)
    (held : Held Response) (delay : Delay) : Outcome :=
  match delay with
  | .waiting step _ =>
    ({ x with state := .active intake (.holdingResponse request held delay) }, [.setTimer step])
  | .elapsed => x.releaseResponse now intake request held
  | .cancelled cause => x.fail now intake (.cause cause)

/-- The exchange whose response is complete. -/
def judgeResponse (x : Exchange) (now : Number) (intake : Intake) (request : Request)
    (response : Response) : Outcome :=
  let verdict := Rule.onResponse intake.rules intake.inbound response
  let (next, effects) : Outcome :=
    match verdict.result with
    | .error failure => x.fail now intake failure
    | .ok message =>
      let held : Held Response := ⟨message, verdict.rule, verdict.release⟩
      match verdict.delay with
      | none => x.releaseResponse now intake request held
      | some time => x.holdResponse now intake request held (.start x.givenUp? time)
  (next, verdict.notices.map Effect.log ++ effects)

/-! ## The request -/

/-- The exchange that forwards a request. -/
def forward (x : Exchange) (now : Number) (intake : Intake) (request : Request) : Outcome :=
  let effect := Effect.forward (intake.destination.forwarded request)
  if x.abandoned then
    let (ended, effects) := x.fail now intake (.cause forwardingGivenUp)
    (ended, effect :: effects)
  else ({ x with state := .active intake (.awaitingResponse request) }, [effect])

/-- The exchange that forwards a request which is no longer held back. -/
def releaseRequest (x : Exchange) (now : Number) (intake : Intake) (held : Held Request) :
    Outcome :=
  let (next, effects) := x.forward now intake held.message
  (next, releaseEffects .request held ++ effects)

/-- The exchange whose request is held back by a delay. -/
def holdRequest (x : Exchange) (now : Number) (intake : Intake) (held : Held Request)
    (delay : Delay) : Outcome :=
  match delay with
  | .waiting step _ =>
    ({ x with state := .active intake (.holdingRequest held delay) }, [.setTimer step])
  | .elapsed => x.releaseRequest now intake held
  | .cancelled cause => x.fail now intake (.cause cause)

/-- The exchange whose request is complete. -/
def judgeRequest (x : Exchange) (now : Number) (intake : Intake) (body : Bytes) : Outcome :=
  let verdict := Rule.onRequest intake.rules intake.port (intake.request body)
  let (next, effects) : Outcome :=
    match verdict.result with
    | .error failure => x.fail now intake failure
    | .ok message =>
      let held : Held Request := ⟨message, verdict.rule, verdict.release⟩
      match verdict.delay with
      | none => x.releaseRequest now intake held
      | some time => x.holdRequest now intake held (.start x.givenUp? time)
  (next, verdict.notices.map Effect.log ++ effects)

/-! ## Events -/

/-- The exchange after its client has left. -/
def leave (x : Exchange) (now : Number) (intake : Intake) (stage : Stage) : Outcome :=
  let left := { x with abandoned := true }
  match stage with
  | .readingRequest _ => (left, [])
  | .holdingRequest held delay =>
    let (next, effects) := left.holdRequest now intake held (delay.next (.cancelled delayGivenUp))
    (next, .dropTimer :: effects)
  | .awaitingResponse _ => left.fail now intake (.cause forwardingGivenUp)
  | .readingResponse .. => left.fail now intake (.cause forwardingGivenUp)
  | .holdingResponse request held delay =>
    let (next, effects) :=
      left.holdResponse now intake request held (delay.next (.cancelled delayGivenUp))
    (next, .dropTimer :: effects)

/-- The exchange at some stage after an event; an event that does not concern the stage changes
nothing. -/
def nextFrom (x : Exchange) (now : Number) (intake : Intake) (stage : Stage) (event : Event) :
    Outcome :=
  match stage, event with
  | stage, .clientLeft => x.leave now intake stage
  | .readingRequest body, .requestChunk bytes =>
    ({ x with state := .active intake (.readingRequest (body ++ bytes)) }, [])
  | .readingRequest body, .requestEnd => x.judgeRequest now intake body
  | .readingRequest _, .requestFailed cause => x.fail now intake (.cause cause)
  | .readingRequest _, .requestClosed => x.fail now intake (.cause incomplete)
  | .holdingRequest held delay, .timerFired => x.holdRequest now intake held (delay.next .fired)
  | .awaitingResponse _, .forwardingFailed cause => x.fail now intake (.cause cause)
  | .awaitingResponse request, .responseHead status headers =>
    ({ x with state := .active intake (.readingResponse request status headers []) }, [])
  | .readingResponse request status headers body, .responseChunk bytes =>
    ({ x with
        state := .active intake (.readingResponse request status headers (body ++ bytes)) }, [])
  | .readingResponse request status headers body, .responseEnd =>
    x.judgeResponse now intake request ⟨status.getD 502, headers, body⟩
  | .readingResponse .., .forwardingFailed cause => x.fail now intake (.cause cause)
  | .readingResponse .., .responseClosed => x.fail now intake (.cause incomplete)
  | .holdingResponse request held delay, .timerFired =>
    x.holdResponse now intake request held (delay.next .fired)
  | _, _ => (x, [])

/-- The exchange after an event, with the effects it asks for. -/
def next (x : Exchange) (now : Number) (event : Event) : Outcome :=
  match x.state with
  | .active intake stage => x.nextFrom now intake stage event
  | .ended => (x, [])

/-! ## The start -/

/-- The scheme of a target, if it is another than the one that is served. -/
def foreignScheme? (t : Target) : Option String :=
  t.scheme.filter fun scheme => lowerCase scheme != "http"

/-- What is settled about a request, or the status and text with which it is refused. -/
def takeIn [Domain.Mapping] (rules : Destination → List Rule) (arrival : Arrival) :
    Except (Number × String) Intake := do
  let target ← (Target.parse arrival.targetText).mapError fun fault =>
    (400, "Bad request target: " ++ fault.message)
  if let some scheme := foreignScheme? target then
    throw (501, "Unsupported scheme: " ++ scheme)
  match Destination.ofRequest? target arrival.host? with
  | none => throw (400, "Missing destination host")
  | some destination =>
    return {
      method := arrival.methodText
      target
      headers := arrival.headerList
      destination
      rules := rules destination }

/-- The rules for a destination. -/
def rulesFor (config : Config) (destination : Destination) : List Rule :=
  config.rulesFor (.ofNat destination.port)

/-- The exchange of a request that arrives while a configuration is in force, or none is. -/
def start [Domain.Mapping] (id : Nat) (now : Number) (config : Except String Config)
    (arrival : Arrival) (client : Client) : Outcome :=
  let x : Exchange := { id, started := now.floor, client }
  let rules := match config with
    | .ok config => rulesFor config
    | .error _ => fun _ => []
  match takeIn rules arrival, config with
  | .error (status, message), _ => x.refuse now status message
  | .ok _, .error reason => x.collapse reason
  | .ok intake, .ok _ => ({ x with state := .active intake (.readingRequest []) }, [])

/-! ## Exchanges that have ended -/

/-- Nothing happens to an exchange that has ended. -/
theorem next_ended (x : Exchange) (now : Number) (event : Event) (h : x.state = .ended) :
    x.next now event = (x, []) := by
  simp [next, h]

end Exchange

end FaultInjection
