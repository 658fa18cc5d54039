import FaultInjection.Proofs.Exchange.Conclusion

/-!
# Exchanges - Timers

An exchange sets a timer exactly where it begins to hold a message back, or goes on to
do so when a timer has fired, and it drops the timer where its client leaves meanwhile.
So a timer runs exactly while a message is held back.

Main definitions:

- `Exchange.timings`, what effects ask for about timers.
- `Exchange.Arms`, a step that sets a timer exactly where a message is held back then.
- `Exchange.Rewinds`, what one step does about timers.

Main results:

- `Exchange.rewinds_next`: each step does one of these things.
- `Exchange.not_mem_of_not_isHolding`: no timer is set where no message is held back.
-/

namespace FaultInjection

/-- A delay that is cancelled waits no longer. -/
theorem Delay.timer?_next_cancelled (delay : Delay) (cause : Cause) :
    (delay.next (.cancelled cause)).timer? = none := by
  cases delay <;> rfl

/-- A delay that is cancelled while its timer runs is cancelled for that cause. -/
theorem Delay.next_cancelled_of_timer? {delay : Delay} (h : delay.timer?.isSome) (cause : Cause) :
    delay.next (.cancelled cause) = .cancelled cause := by
  cases delay with
  | waiting step remaining => rfl
  | elapsed => cases h
  | cancelled other => cases h

namespace Exchange

/-! ## Effects about timers -/

/-- Whether an effect is about timers. -/
def Effect.isTiming : Effect → Bool
  | .setTimer _ | .dropTimer => true
  | _ => false

/-- What effects ask for about timers. -/
def timings (effects : List Effect) : List Effect := effects.filter Effect.isTiming

@[simp]
theorem timings_nil : timings [] = [] :=
  rfl

@[simp]
theorem timings_append (first second : List Effect) :
    timings (first ++ second) = timings first ++ timings second :=
  List.filter_append ..

@[simp]
theorem timings_cons (effect : Effect) (rest : List Effect) :
    timings (effect :: rest) =
      if effect.isTiming then effect :: timings rest else timings rest :=
  List.filter_cons

/-- Log entries are not about timers. -/
@[simp]
theorem timings_map_log (entries : List Log.Entry) : timings (entries.map Effect.log) = [] := by
  simp [timings, Effect.isTiming]

/-- A timer that is set is among what effects ask for about timers. -/
theorem setTimer_mem_timings_iff {effects : List Effect} {milliseconds : Number} :
    .setTimer milliseconds ∈ timings effects ↔ .setTimer milliseconds ∈ effects :=
  List.mem_filter.trans (and_iff_left rfl)

theorem RecordsOnce.timings_eq {effects : List Effect}
    {ending : History.Outcome × History.Update} (h : RecordsOnce effects ending) :
    timings effects = [] := by
  obtain ⟨before, after, rfl⟩ := h
  simp [Effect.isTiming]

/-! ## Steps that set timers -/

/-- No message is held back in the end, and no timer is set. -/
def Idles (outcome : Outcome) : Prop := outcome.1.isHolding = false ∧ timings outcome.2 = []

/-- A timer is set exactly where a message is held back in the end. -/
def Arms (outcome : Outcome) : Prop :=
  Idles outcome ∨
    (outcome.1.isHolding = true ∧ ∃ milliseconds, timings outcome.2 = [.setTimer milliseconds])

/-- An exchange that has ended holds nothing back. -/
theorem isHolding_of_ended {x : Exchange} (h : x.state = .ended) : x.isHolding = false := by
  simp [isHolding, h]

section Steps

variable (x : Exchange) (now : Number) (intake : Intake)

@[simp]
theorem timings_fail (failure : Failure) : timings (x.fail now intake failure).2 = [] :=
  (x.recordsOnce_fail now intake failure).timings_eq

/-- A failure leaves no timer running. -/
theorem idles_fail (failure : Failure) : Idles (x.fail now intake failure) :=
  ⟨isHolding_of_ended (state_fail ..), timings_fail ..⟩

theorem arms_fail (failure : Failure) : Arms (x.fail now intake failure) :=
  .inl (x.idles_fail now intake failure)

@[simp]
theorem timings_releaseEffects {α : Type} (side : Rule.Side) (held : Held α) :
    timings (releaseEffects side held) = [] := by
  unfold releaseEffects ruleEffects
  cases held.rule <;> cases side <;> simp [Effect.isTiming]

/-- A request that is no longer held back leaves no timer running. -/
theorem idles_holdRequest (held : Held Request) {delay : Delay} (h : delay.timer? = none) :
    Idles (x.holdRequest now intake held delay) := by
  cases delay with
  | waiting step remaining => cases h
  | elapsed =>
      simp only [holdRequest, releaseRequest, forward]
      split
      · exact ⟨isHolding_of_ended (state_fail ..), by simp [Effect.isTiming]⟩
      · exact ⟨rfl, by simp [Effect.isTiming]⟩
  | cancelled cause => exact x.idles_fail now intake _

/-- A response that is no longer held back leaves no timer running. -/
theorem idles_holdResponse (request : Request) (held : Held Response) {delay : Delay}
    (h : delay.timer? = none) : Idles (x.holdResponse now intake request held delay) := by
  cases delay with
  | waiting step remaining => cases h
  | elapsed =>
      refine ⟨isHolding_of_ended (state_releaseResponse ..), ?_⟩
      simp only [holdResponse, releaseResponse]
      split <;> simp [closingWith, Effect.isTiming]
  | cancelled cause => exact x.idles_fail now intake _

/-- A request that is held back has a timer set. -/
theorem arms_holdRequest (held : Held Request) (delay : Delay) :
    Arms (x.holdRequest now intake held delay) := by
  cases delay with
  | waiting step remaining => exact .inr ⟨rfl, step, rfl⟩
  | elapsed => exact .inl (x.idles_holdRequest now intake held rfl)
  | cancelled cause => exact .inl (x.idles_holdRequest now intake held rfl)

/-- A response that is held back has a timer set. -/
theorem arms_holdResponse (request : Request) (held : Held Response) (delay : Delay) :
    Arms (x.holdResponse now intake request held delay) := by
  cases delay with
  | waiting step remaining => exact .inr ⟨rfl, step, rfl⟩
  | elapsed => exact .inl (x.idles_holdResponse now intake request held rfl)
  | cancelled cause => exact .inl (x.idles_holdResponse now intake request held rfl)

/-- A request that is complete has a timer set where it is held back. -/
theorem arms_judgeRequest (body : Bytes) : Arms (x.judgeRequest now intake body) := by
  rw [judgeRequest_eq]
  cases (intake.onRequest body).result with
  | error failure => simpa [Arms, Idles] using x.arms_fail now intake failure
  | ok message => simpa [Arms, Idles] using x.arms_holdRequest now intake _ _

/-- A response that is complete has a timer set where it is held back. -/
theorem arms_judgeResponse (request : Request) (response : Response) :
    Arms (x.judgeResponse now intake request response) := by
  rw [judgeResponse_eq]
  cases (intake.onResponse response).result with
  | error failure => simpa [Arms, Idles] using x.arms_fail now intake failure
  | ok message => simpa [Arms, Idles] using x.arms_holdResponse now intake request _ _

/-- A request that arrives holds nothing back. -/
theorem idles_start [Domain.Mapping] (id : Nat) (config : Except String Config)
    (arrival : Arrival) (client : Client) : Idles (start id now config arrival client) := by
  simp only [start]
  split
  · exact ⟨isHolding_of_ended (state_refuse ..), (recordsOnce_refuse _ now _ _).timings_eq⟩
  · exact ⟨isHolding_of_ended rfl, rfl⟩
  · exact ⟨rfl, rfl⟩

end Steps

/-! ## One event -/

/-- What a step does about timers. -/
inductive Rewinds (x : Exchange) (event : Event) (outcome : Outcome) : Prop
  /-- A message is held back as before, unless its timer has fired. -/
  | kept (hevent : x.isHolding = true → event ≠ .timerFired)
      (hholding : outcome.1.isHolding = x.isHolding) (htimings : timings outcome.2 = [])
  /-- Where no timer is running any more, one is set if a message is held back. -/
  | armed (hfree : x.isHolding = true → event = .timerFired) (harms : Arms outcome)
  /-- The timer is dropped, and nothing is held back any more. -/
  | dropped (hevent : event = .clientLeft) (hholding : outcome.1.isHolding = false)
      (htimings : timings outcome.2 = [.dropTimer])

/-- Each step does one of these things about timers. -/
theorem rewinds_next (x : Exchange) (now : Number) (event : Event) :
    x.Rewinds event (x.next now event) := by
  cases hstate : x.state with
  | ended =>
      rw [next_ended x now event hstate]
      exact .kept (by simp [isHolding, hstate]) rfl rfl
  | active intake stage =>
      simp only [next, hstate]
      cases stage with
      | readingRequest body =>
          have hfree : x.isHolding = false := by simp [isHolding, hstate]
          cases event with
          | requestEnd => exact .armed (by simp [hfree]) (x.arms_judgeRequest now intake body)
          | requestFailed cause => exact .armed (by simp [hfree]) (x.arms_fail now intake _)
          | requestClosed => exact .armed (by simp [hfree]) (x.arms_fail now intake _)
          | _ => exact .kept (by simp [hfree]) (by simp [nextFrom, leave, isHolding, hstate]) rfl
      | holdingRequest held delay =>
          cases event with
          | timerFired => exact .armed (fun _ => rfl) (x.arms_holdRequest now intake held _)
          | clientLeft =>
              obtain ⟨hholding, htimings⟩ := idles_holdRequest { x with abandoned := true } now
                intake held (delay.timer?_next_cancelled delayGivenUp)
              refine .dropped rfl hholding ?_
              simp [nextFrom, leave, htimings, Effect.isTiming]
          | _ => exact .kept (by simp) rfl rfl
      | awaitingResponse request =>
          have hfree : x.isHolding = false := by simp [isHolding, hstate]
          cases event with
          | forwardingFailed cause => exact .armed (by simp [hfree]) (x.arms_fail now intake _)
          | clientLeft =>
              exact .armed (by simp [hfree]) (arms_fail { x with abandoned := true } now intake _)
          | _ => exact .kept (by simp [hfree]) (by simp [nextFrom, isHolding, hstate]) rfl
      | readingResponse request status headers body =>
          have hfree : x.isHolding = false := by simp [isHolding, hstate]
          cases event with
          | forwardingFailed cause => exact .armed (by simp [hfree]) (x.arms_fail now intake _)
          | responseClosed => exact .armed (by simp [hfree]) (x.arms_fail now intake _)
          | responseEnd =>
              exact .armed (by simp [hfree]) (x.arms_judgeResponse now intake request _)
          | clientLeft =>
              exact .armed (by simp [hfree]) (arms_fail { x with abandoned := true } now intake _)
          | _ => exact .kept (by simp [hfree]) (by simp [nextFrom, isHolding, hstate]) rfl
      | holdingResponse request held delay =>
          cases event with
          | timerFired =>
              exact .armed (fun _ => rfl) (x.arms_holdResponse now intake request held _)
          | clientLeft =>
              obtain ⟨hholding, htimings⟩ := idles_holdResponse { x with abandoned := true } now
                intake request held (delay.timer?_next_cancelled delayGivenUp)
              refine .dropped rfl hholding ?_
              simp [nextFrom, leave, htimings, Effect.isTiming]
          | _ => exact .kept (by simp) rfl rfl

/-- A step after which no message is held back has set no timer. -/
theorem not_mem_of_not_isHolding {x : Exchange} {now : Number} {event : Event}
    (hfree : (x.next now event).1.isHolding = false) (milliseconds : Number) :
    .setTimer milliseconds ∉ (x.next now event).2 := by
  intro hmem
  have htiming := setTimer_mem_timings_iff.2 hmem
  cases x.rewinds_next now event with
  | kept hevent hholding htimings => simp [htimings] at htiming
  | armed hbefore harms =>
      rcases harms with ⟨-, htimings⟩ | ⟨hholding, -⟩
      · simp [htimings] at htiming
      · simp [hfree] at hholding
  | dropped hevent hholding htimings => simp [htimings] at htiming

end Exchange

end FaultInjection
