import FaultInjection.Proofs.Exchange.Course

/-!
# Exchanges - How they end

Each way to end an exchange leaves it ended, asks for exactly one end, forwards
nothing and keeps whether the client has left.

Main definitions:

- `Exchange.RecordsOnce`, for effects that record one end and log around it.
- `Exchange.failureEnd`, what is recorded about a failure.

Main results:

- `Exchange.recordsOnce_fail`, `Exchange.closings_releaseResponse`: an end is asked for
  exactly once.
- `Exchange.state_fail`, `Exchange.state_releaseResponse`: the exchange has ended then.
-/

namespace FaultInjection

namespace Exchange

variable (x : Exchange) (now : Number) (intake : Intake)

/-! ## One end among log entries -/

/-- Effects that record one end, with log entries before and after it. -/
def RecordsOnce (effects : List Effect) (ending : History.Outcome × History.Update) : Prop :=
  ∃ before after : List Log.Entry,
    effects = before.map Effect.log ++ .close ending.1 ending.2 :: after.map Effect.log

namespace RecordsOnce

variable {effects : List Effect} {ending : History.Outcome × History.Update}

theorem cons_log (h : RecordsOnce effects ending) (entry : Log.Entry) :
    RecordsOnce (.log entry :: effects) ending := by
  obtain ⟨before, after, rfl⟩ := h
  exact ⟨entry :: before, after, rfl⟩

theorem closings_eq (h : RecordsOnce effects ending) : closings effects = [ending] := by
  obtain ⟨before, after, rfl⟩ := h
  simp [Effect.closing?]

theorem forwards_eq (h : RecordsOnce effects ending) : forwards effects = [] := by
  obtain ⟨before, after, rfl⟩ := h
  simp [Effect.forwarded?]

theorem counts_eq (h : RecordsOnce effects ending) : counts effects = [] := by
  obtain ⟨before, after, rfl⟩ := h
  simp [Effect.counted?]

end RecordsOnce

/-! ## Texts for the client -/

@[simp]
theorem state_answerText (status : Number) (message : String) :
    (x.answerText status message).1.state = .ended := by
  unfold answerText
  split <;> rfl

@[simp]
theorem abandoned_answerText (status : Number) (message : String) :
    (x.answerText status message).1.abandoned = x.abandoned := by
  unfold answerText
  split <;> rfl

/-- A text for the client asks for log entries alone. -/
theorem exists_log_answerText (status : Number) (message : String) :
    ∃ entries : List Log.Entry, (x.answerText status message).2 = entries.map Effect.log := by
  unfold answerText
  split
  · exact ⟨[], rfl⟩
  · exact ⟨[_], rfl⟩

/-! ## Refusals -/

@[simp]
theorem state_refuse (status : Number) (message : String) :
    (x.refuse now status message).1.state = .ended :=
  x.state_answerText status message

@[simp]
theorem abandoned_refuse (status : Number) (message : String) :
    (x.refuse now status message).1.abandoned = x.abandoned :=
  x.abandoned_answerText status message

/-- A refusal is recorded as a failure with its status. -/
theorem recordsOnce_refuse (status : Number) (message : String) :
    RecordsOnce (x.refuse now status message).2
      (.failed, { status := some (some status), duration := some (some (x.duration now)) }) := by
  obtain ⟨entries, hentries⟩ := x.exists_log_answerText status message
  refine ⟨[], entries, ?_⟩
  simp only [refuse, hentries]
  rfl

@[simp]
theorem closings_refuse (status : Number) (message : String) :
    closings (x.refuse now status message).2 =
      [(.failed, { status := some (some status), duration := some (some (x.duration now)) })] :=
  (x.recordsOnce_refuse now status message).closings_eq

@[simp]
theorem forwards_refuse (status : Number) (message : String) :
    forwards (x.refuse now status message).2 = [] :=
  (x.recordsOnce_refuse now status message).forwards_eq

@[simp]
theorem counts_refuse (status : Number) (message : String) :
    counts (x.refuse now status message).2 = [] :=
  (x.recordsOnce_refuse now status message).counts_eq

/-! ## Failures -/

@[simp]
theorem state_fail (failure : Failure) : (x.fail now intake failure).1.state = .ended := by
  cases failure with
  | dropped => rfl
  | target fault =>
      simp only [fail]
      split <;> simp [giveUp]
  | cause cause =>
      simp only [fail]
      split <;> simp [giveUp]

@[simp]
theorem abandoned_fail (failure : Failure) :
    (x.fail now intake failure).1.abandoned = x.abandoned := by
  cases failure with
  | dropped => rfl
  | target fault =>
      simp only [fail]
      split <;> simp [giveUp]
  | cause cause =>
      simp only [fail]
      split <;> simp [giveUp]

/-- The status that a failure is recorded with, if its client is told one. -/
def failureStatus : Failure → Number
  | .target _ => 500
  | _ => 502

/-- What is recorded about a failure: a rule that drops the message comes before a client that
has left, and that before any other cause. -/
def failureEnd (failure : Failure) : History.Outcome × History.Update :=
  let duration := some (some (x.duration now))
  match failure, x.abandoned with
  | .dropped, _ => (.aborted, { duration })
  | _, true => (.cancelled, { duration })
  | failure, false => (.failed, { status := some (some (failureStatus failure)), duration })

/-- An exchange that is given up is recorded as cancelled. -/
theorem recordsOnce_giveUp :
    RecordsOnce (x.giveUp now intake).2
      (.cancelled, { duration := some (some (x.duration now)) }) :=
  ⟨[_], [], rfl⟩

/-- A failure is recorded exactly once. -/
theorem recordsOnce_fail (failure : Failure) :
    RecordsOnce (x.fail now intake failure).2 (x.failureEnd now failure) := by
  cases failure with
  | dropped => exact ⟨[_], [], rfl⟩
  | target fault =>
      cases h : x.abandoned with
      | true =>
          simp only [fail, failureEnd, h, if_true]
          exact x.recordsOnce_giveUp now intake
      | false =>
          simp only [fail, failureEnd, h]
          exact (x.recordsOnce_refuse now 500 _).cons_log _
  | cause cause =>
      cases h : x.abandoned with
      | true =>
          simp only [fail, failureEnd, h, if_true]
          exact x.recordsOnce_giveUp now intake
      | false =>
          simp only [fail, failureEnd, h]
          exact (x.recordsOnce_refuse now 502 _).cons_log _

@[simp]
theorem closings_fail (failure : Failure) :
    closings (x.fail now intake failure).2 = [x.failureEnd now failure] :=
  (x.recordsOnce_fail now intake failure).closings_eq

@[simp]
theorem forwards_fail (failure : Failure) : forwards (x.fail now intake failure).2 = [] :=
  (x.recordsOnce_fail now intake failure).forwards_eq

@[simp]
theorem counts_fail (failure : Failure) : counts (x.fail now intake failure).2 = [] :=
  (x.recordsOnce_fail now intake failure).counts_eq

/-! ## Messages that are released -/

section Release

variable {α : Type} (side : Rule.Side) (held : Held α)

@[simp]
theorem closings_releaseEffects : closings (releaseEffects side held) = [] := by
  unfold releaseEffects ruleEffects
  cases held.rule <;> cases side <;> simp [Effect.closing?]

@[simp]
theorem forwards_releaseEffects : forwards (releaseEffects side held) = [] := by
  unfold releaseEffects ruleEffects
  cases held.rule <;> cases side <;> simp [Effect.forwarded?]

/-- The rule of a message that is released is counted for its side. -/
@[simp]
theorem counts_releaseEffects :
    counts (releaseEffects side held) = (held.rule.map fun _ => side).toList := by
  unfold releaseEffects ruleEffects
  cases held.rule <;> cases side <;> simp [Effect.counted?]

end Release

/-! ## Answers -/

section Answer

variable (request : Request) (held : Held Response)

/-- The header fields that a released response is sent with. -/
def answerFields : Record HeaderRecord.Value :=
  (responseHeaders request.method held.message.status held.message.headers held.message.body
    (held.rule.any (·.actions.replacesBody))).toRecord

@[simp]
theorem state_releaseResponse : (x.releaseResponse now intake request held).1.state = .ended := by
  simp only [releaseResponse]
  split
  · rfl
  · simp

@[simp]
theorem abandoned_releaseResponse :
    (x.releaseResponse now intake request held).1.abandoned = x.abandoned := by
  simp only [releaseResponse]
  split
  · rfl
  · simp

@[simp]
theorem forwards_releaseResponse :
    forwards (x.releaseResponse now intake request held).2 = [] := by
  simp only [releaseResponse]
  split <;> simp [closingWith, Effect.forwarded?]

/-- The rule of a response that is released is counted, also where the answer fails. -/
@[simp]
theorem counts_releaseResponse :
    counts (x.releaseResponse now intake request held).2 =
      (held.rule.map fun _ => Rule.Side.response).toList := by
  simp only [releaseResponse]
  split <;> simp [closingWith, Effect.counted?]

/-- What is recorded about an answer: the status of the response where the client takes it, and
the failure where it does not. -/
theorem closings_releaseResponse :
    closings (x.releaseResponse now intake request held).2 =
      match (x.client.answer held.message.status (answerFields request held)
        (.body held.message.body)).2 with
      | none => [(.forwarded, {
          status := some (some held.message.status)
          duration := some (some (x.duration now)) })]
      | some cause => [x.failureEnd now (.cause cause)] := by
  simp only [releaseResponse, answerFields]
  split
  · rename_i client h
    simp [h, closingWith, Effect.closing?]
  · rename_i client cause h
    simp [h]
    rfl

/-- A client that takes an answer is sent the status, the fields and the body of the response. -/
theorem sent_releaseResponse
    (h : (x.client.answer held.message.status (answerFields request held)
      (.body held.message.body)).2 = none) :
    (x.releaseResponse now intake request held).1.client.sent = x.client.sent ++
      [.head held.message.status (answerFields request held), .body held.message.body] := by
  have hsent := Client.sent_answer h
  simp only [releaseResponse, answerFields] at h hsent ⊢
  split
  · rename_i client hanswer
    rwa [hanswer] at hsent
  · rename_i client cause hanswer
    rw [hanswer] at h
    cases h

end Answer

/-! ## Clients that have left -/

section Abandoned

variable (request : Request)

@[simp]
theorem abandoned_forward :
    (x.forward now intake request).1.abandoned = x.abandoned := by
  simp only [forward]
  split <;> simp

@[simp]
theorem abandoned_holdRequest (held : Held Request) (delay : Delay) :
    (x.holdRequest now intake held delay).1.abandoned = x.abandoned := by
  cases delay <;> simp [holdRequest, releaseRequest]

@[simp]
theorem abandoned_holdResponse (held : Held Response) (delay : Delay) :
    (x.holdResponse now intake request held delay).1.abandoned = x.abandoned := by
  cases delay <;> simp [holdResponse]

@[simp]
theorem abandoned_judgeRequest (body : Bytes) :
    (x.judgeRequest now intake body).1.abandoned = x.abandoned := by
  simp only [judgeRequest]
  split
  · simp
  · split <;> simp [releaseRequest]

@[simp]
theorem abandoned_judgeResponse (response : Response) :
    (x.judgeResponse now intake request response).1.abandoned = x.abandoned := by
  simp only [judgeResponse]
  split
  · simp
  · split <;> simp

/-- Only the departure of the client makes an exchange one whose client has left. -/
theorem abandoned_next {event : Event} (h : event ≠ .clientLeft) :
    (x.next now event).1.abandoned = x.abandoned := by
  unfold next
  split
  · unfold nextFrom
    split <;> first | rfl | simp | exact absurd rfl h
  · rfl

end Abandoned

end Exchange

end FaultInjection
