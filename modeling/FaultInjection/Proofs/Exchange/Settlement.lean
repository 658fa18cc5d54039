import FaultInjection.Proofs.Exchange.Progress
import Mathlib.Data.List.Induction

/-!
# Exchanges - Settlement

An exchange asks to be recorded as ended once, and by the time it has ended.  Of each
side it counts one rule at most, and it counts exactly the rules whose actions were
completed: first one for the request, and that only when the request goes out, then
one for the response, and that only when the exchange ends.

Main definitions:

- `Exchange.State.sides`, the sides whose rules can have been counted.
- `Course.Settled`, what an exchange has asked to be recorded.

Main results:

- `Exchange.sides_next`: a step counts no side that can have been counted before.
- `Exchange.counts_next`: a step counts the rule whose actions it completes.
- `Course.settled_run`: every course is settled.
-/

namespace FaultInjection

namespace Exchange

/-- The sides whose rules can have been counted. -/
def State.sides : State → List Rule.Side
  | .active _ (.readingRequest _) | .active _ (.holdingRequest _ _) => []
  | .active _ _ => [.request]
  | .ended => [.request, .response]

/-- An exchange that has ended can have counted a rule of either side. -/
theorem sides_of_ended {state : State} (h : state = .ended) :
    state.sides = [.request, .response] := by
  rw [h]
  rfl

/-! ## Rules that are counted -/

section Counts

variable (x : Exchange) (now : Number) (intake : Intake)

@[simp]
theorem counts_forward (request : Request) : counts (x.forward now intake request).2 = [] := by
  simp only [forward]
  split <;> simp [Effect.counted?]

/-- The rule of a request is counted once its delay is over. -/
theorem counts_holdRequest (held : Held Request) (delay : Delay) :
    counts (x.holdRequest now intake held delay).2 =
      ((released? held delay).map fun _ => Rule.Side.request).toList := by
  cases delay <;> simp [holdRequest, releaseRequest, released?, Effect.counted?]

/-- The rule of a response is counted once its delay is over. -/
theorem counts_holdResponse (request : Request) (held : Held Response) (delay : Delay) :
    counts (x.holdResponse now intake request held delay).2 =
      ((released? held delay).map fun _ => Rule.Side.response).toList := by
  cases delay <;> simp [holdResponse, released?, Effect.counted?]

/-- A message is released at once where its verdict lets it go at once. -/
theorem released?_firstDelay {α : Type} (verdict : Verdict α) (message : α)
    (h : verdict.result = .ok message) :
    released? ⟨message, verdict.rule, verdict.release⟩ (firstDelay x verdict.delay) =
      immediate? verdict := by
  unfold immediate?
  rw [h]
  cases verdict.delay with
  | none => rfl
  | some time =>
      simp only [firstDelay, Delay.start]
      split <;> rfl

/-- The rule of a request that is complete is counted where it lets the request go at once. -/
theorem counts_judgeRequest (body : Bytes) :
    counts (x.judgeRequest now intake body).2 =
      ((immediate? (intake.onRequest body)).map fun _ => Rule.Side.request).toList := by
  rw [judgeRequest_eq]
  cases hresult : (intake.onRequest body).result with
  | error failure => simp [immediate?, hresult]
  | ok message => simp [counts_holdRequest, released?_firstDelay x _ message hresult]

/-- The rule of a response that is complete is counted where it lets the response go at once. -/
theorem counts_judgeResponse (request : Request) (response : Response) :
    counts (x.judgeResponse now intake request response).2 =
      ((immediate? (intake.onResponse response)).map fun _ => Rule.Side.response).toList := by
  rw [judgeResponse_eq]
  cases hresult : (intake.onResponse response).result with
  | error failure => simp [immediate?, hresult]
  | ok message => simp [counts_holdResponse, released?_firstDelay x _ message hresult]

end Counts

/-! ## Sides -/

section Sides

variable (x : Exchange) (now : Number) (intake : Intake)

/-- A failure counts nothing, so it can follow whatever has been counted. -/
theorem sides_fail {counted : List Rule.Side} (failure : Failure)
    (h : counted.Sublist [.request, .response]) :
    (counted ++ counts (x.fail now intake failure).2).Sublist
      (x.fail now intake failure).1.state.sides := by
  rw [counts_fail, List.append_nil, sides_of_ended (state_fail ..)]
  exact h

/-- A request that goes out can have had its rule counted. -/
theorem sides_forward (request : Request) :
    [Rule.Side.request].Sublist (x.forward now intake request).1.state.sides := by
  simp only [forward]
  split
  · rw [sides_of_ended (state_fail ..)]
    simp
  · exact List.Sublist.refl _

/-- The rule of a request is counted as the request goes out. -/
theorem sides_holdRequest (held : Held Request) (delay : Delay) :
    (counts (x.holdRequest now intake held delay).2).Sublist
      (x.holdRequest now intake held delay).1.state.sides := by
  rw [counts_holdRequest]
  cases delay with
  | waiting step remaining => exact List.nil_sublist _
  | elapsed =>
      refine List.Sublist.trans ?_ (x.sides_forward now intake held.message)
      cases hrule : held.rule <;> simp [released?, hrule]
  | cancelled cause => exact List.nil_sublist _

/-- The rule of a response is counted as the exchange ends. -/
theorem sides_holdResponse (request : Request) (held : Held Response) (delay : Delay) :
    (Rule.Side.request :: counts (x.holdResponse now intake request held delay).2).Sublist
      (x.holdResponse now intake request held delay).1.state.sides := by
  rw [counts_holdResponse]
  cases delay with
  | waiting step remaining => exact List.Sublist.refl _
  | elapsed =>
      simp only [holdResponse]
      rw [sides_of_ended (state_releaseResponse ..)]
      cases hrule : held.rule <;> simp [released?, hrule]
  | cancelled cause =>
      simp only [holdResponse]
      rw [sides_of_ended (state_fail ..)]
      simp [released?]

/-- The rule of a request is counted as the request goes out. -/
theorem sides_judgeRequest (body : Bytes) :
    (counts (x.judgeRequest now intake body).2).Sublist
      (x.judgeRequest now intake body).1.state.sides := by
  rw [judgeRequest_eq]
  cases (intake.onRequest body).result with
  | error failure => simp
  | ok message => simpa using x.sides_holdRequest now intake _ _

/-- The rule of a response is counted as the exchange ends. -/
theorem sides_judgeResponse (request : Request) (response : Response) :
    (Rule.Side.request :: counts (x.judgeResponse now intake request response).2).Sublist
      (x.judgeResponse now intake request response).1.state.sides := by
  rw [judgeResponse_eq]
  cases (intake.onResponse response).result with
  | error failure =>
      rw [sides_of_ended (state_fail ..)]
      simp
  | ok message => simpa using x.sides_holdResponse now intake request _ _

end Sides

/-! ## One event -/

/-- A step counts no side that can have been counted before, and the request's side first. -/
theorem sides_next (x : Exchange) (now : Number) (event : Event) :
    (x.state.sides ++ counts (x.next now event).2).Sublist (x.next now event).1.state.sides := by
  cases hstate : x.state with
  | ended => simp [next, hstate]
  | active intake stage =>
      simp only [next, hstate]
      cases stage with
      | readingRequest body =>
          cases event with
          | requestEnd => exact x.sides_judgeRequest now intake body
          | _ => simp [nextFrom, leave, State.sides]
      | holdingRequest held delay =>
          cases event with
          | timerFired => exact x.sides_holdRequest now intake held _
          | clientLeft =>
              simpa [nextFrom, leave, State.sides, Effect.counted?] using
                sides_holdRequest { x with abandoned := true } now intake held _
          | _ => simp [nextFrom, State.sides]
      | awaitingResponse request =>
          cases event with
          | forwardingFailed cause => exact x.sides_fail now intake _ (by simp [State.sides])
          | clientLeft =>
              exact sides_fail { x with abandoned := true } now intake _ (by simp [State.sides])
          | _ => simp [nextFrom, State.sides, hstate]
      | readingResponse request status headers body =>
          cases event with
          | forwardingFailed cause => exact x.sides_fail now intake _ (by simp [State.sides])
          | responseClosed => exact x.sides_fail now intake _ (by simp [State.sides])
          | clientLeft =>
              exact sides_fail { x with abandoned := true } now intake _ (by simp [State.sides])
          | responseEnd => exact x.sides_judgeResponse now intake request _
          | _ => simp [nextFrom, State.sides, hstate]
      | holdingResponse request held delay =>
          cases event with
          | timerFired => exact x.sides_holdResponse now intake request held _
          | clientLeft =>
              simpa [nextFrom, leave, State.sides, Effect.counted?] using
                sides_holdResponse { x with abandoned := true } now intake request held _
          | _ => simp [nextFrom, State.sides, hstate]

/-- Whether no delay of a stage is over before the stage is. -/
def Stage.IsTimed : Stage → Prop
  | .holdingRequest _ delay | .holdingResponse _ _ delay => delay.timer?.isSome
  | _ => True

/-- A delay that is cancelled while its timer runs releases nothing. -/
theorem released?_cancelled {α : Type} {delay : Delay} (h : delay.timer?.isSome)
    (held : Held α) (cause : Cause) : released? held (delay.next (.cancelled cause)) = none := by
  cases delay with
  | waiting step remaining => rfl
  | elapsed => cases h
  | cancelled other => cases h

/-- A step counts exactly the rule whose actions it completes. -/
theorem counts_next (x : Exchange) (now : Number) (event : Event)
    (htimed : ∀ intake stage, x.state = .active intake stage → stage.IsTimed) :
    counts (x.next now event).2 = ((x.completed? event).map Prod.fst).toList := by
  cases hstate : x.state with
  | ended => simp [next, completed?, hstate]
  | active intake stage =>
      have hstage := htimed intake stage hstate
      simp only [next, completed?, hstate]
      cases stage with
      | readingRequest body =>
          cases event with
          | requestEnd =>
              simp only [nextFrom, counts_judgeRequest, Option.map_map]
              rfl
          | _ => simp [nextFrom, leave]
      | holdingRequest held delay =>
          cases event with
          | timerFired =>
              simp only [nextFrom, counts_holdRequest, Option.map_map]
              rfl
          | clientLeft =>
              simp [nextFrom, leave, Effect.counted?, counts_holdRequest,
                released?_cancelled hstage]
          | _ => simp [nextFrom]
      | awaitingResponse request => cases event <;> simp [nextFrom, leave]
      | readingResponse request status headers body =>
          cases event with
          | responseEnd =>
              simp only [nextFrom, counts_judgeResponse, Option.map_map]
              rfl
          | _ => simp [nextFrom, leave]
      | holdingResponse request held delay =>
          cases event with
          | timerFired =>
              simp only [nextFrom, counts_holdResponse, Option.map_map]
              rfl
          | clientLeft =>
              simp [nextFrom, leave, Effect.counted?, counts_holdResponse,
                released?_cancelled hstage]
          | _ => simp [nextFrom]

/-! ## Courses -/

namespace Course

/-- What an exchange has asked to be recorded: its end, once it has ended, and the rules whose
actions were completed, one of each side at most. -/
structure Settled (c : Course) : Prop where
  length_closings : c.closings.length = if c.exchange.state.isEnded then 1 else 0
  outcome_ne_pending : ∀ close ∈ c.closings, close.1 ≠ .pending
  counts_eq : Exchange.counts (c.asked.map Prod.snd) = c.applied.map Prod.fst
  nodup_sides : (c.applied.map Prod.fst).Nodup

section Ends

variable (x : Exchange) (now : Number)

/-- The end that is recorded of a failure is one. -/
theorem failureEnd_ne_pending (failure : Failure) : (x.failureEnd now failure).1 ≠ .pending := by
  unfold failureEnd
  split <;> simp

/-- An answer is recorded as one end. -/
theorem exists_closings_releaseResponse (intake : Intake) (request : Request)
    (held : Held Response) :
    ∃ close, Exchange.closings (x.releaseResponse now intake request held).2 = [close] ∧
      close.1 ≠ .pending := by
  rw [closings_releaseResponse]
  split
  · exact ⟨_, rfl, by simp⟩
  · exact ⟨_, rfl, failureEnd_ne_pending x now _⟩

end Ends

section Runs

variable (id : Nat) (now : Number) (config : Config) (arrival : Arrival) (client : Client)
  (trace : List (Number × Event))

/-- An exchange has one end recorded when it has ended, and none before. -/
theorem closings_run [Domain.Mapping] :
    let c := (start id now (.ok config) arrival client).run trace
    (c.exchange.state.isEnded = false ∧ c.closings = []) ∨
      (c.exchange.state.isEnded = true ∧ ∃ close, c.closings = [close] ∧ close.1 ≠ .pending) := by
  intro c
  cases htake : takeIn (rulesFor config) arrival with
  | error refusal =>
      obtain ⟨status, message⟩ := refusal
      obtain ⟨hexchange, hasked⟩ := run_of_takeIn_error id now client htake trace
      right
      refine ⟨?_, (.failed, _), by rw [closings_of_asked hasked, closings_refuse], by simp⟩
      rw [State.isEnded_iff, hexchange, state_refuse]
  | ok intake =>
      have htracks : c.Tracks intake client := tracks_run id now client htake trace
      cases hstate : c.exchange.state with
      | active settled stage =>
          simp only [Tracks, hstate] at htracks
          exact .inl ⟨rfl, htracks.2.2.1⟩
      | ended =>
          simp only [Tracks, hstate] at htracks
          refine .inr ⟨rfl, ?_⟩
          cases htracks with
          | failed x time failure hclient hexchange hclosings hfailing =>
              exact ⟨_, hclosings, failureEnd_ne_pending x time failure⟩
          | answered x time request response held hclient hexchange hclosings =>
              rw [hclosings]
              exact exists_closings_releaseResponse x time intake request held

/-- A stage that holds a message back has a timer that runs. -/
theorem isTimed_run [Domain.Mapping] {intake : Intake} {stage : Stage}
    (hstate : ((start id now (.ok config) arrival client).run trace).exchange.state =
      .active intake stage) : stage.IsTimed := by
  obtain ⟨settled, -, htracks⟩ := exists_tracks_of_active id now client (by rw [hstate]; rfl)
  simp only [Tracks, hstate] at htracks
  obtain ⟨-, -, -, hat⟩ := htracks
  cases stage with
  | holdingRequest held delay => exact hat.2.1
  | holdingResponse request held delay => exact hat.2.1
  | _ => trivial

/-- An exchange counts the rules whose actions were completed, in that order. -/
theorem counts_run [Domain.Mapping] :
    let c := (start id now (.ok config) arrival client).run trace
    Exchange.counts (c.asked.map Prod.snd) = c.applied.map Prod.fst ∧
      (c.applied.map Prod.fst).Sublist c.exchange.state.sides := by
  -- The last event is taken off, since what it counts depends on the state before it.
  induction trace using List.reverseRecOn with
  | nil =>
      have hcounts :
          Exchange.counts (Exchange.start id now (.ok config) arrival client).2 = [] := by
        simp only [Exchange.start]
        cases takeIn (rulesFor config) arrival <;> simp
      simp [start, Function.comp_def, hcounts]
  | append_singleton earlier entry ih =>
      obtain ⟨time, event⟩ := entry
      obtain ⟨hcounts, hsides⟩ := ih
      have hnext := counts_next _ time event
        (fun intake stage => isTimed_run id now config arrival client earlier)
      rw [run_append, run_cons, run_nil]
      simp only [next, after, List.map_append, List.map_map, Function.comp_def, List.map_id',
        counts_append]
      have happlied : ∀ new : Option (Rule.Side × Rule),
          new.toList.map Prod.fst = (new.map Prod.fst).toList := by
        intro new
        cases new <;> rfl
      rw [happlied, ← hnext, hcounts]
      exact ⟨rfl, (hsides.append_right _).trans (sides_next _ time event)⟩

/-- Every course is settled: it has asked for one end when it has ended, and it counts what it
completes, the request's rule first. -/
theorem settled_run [Domain.Mapping] :
    ((start id now (.ok config) arrival client).run trace).Settled := by
  obtain ⟨hcounts, hsides⟩ := counts_run id now config arrival client trace
  have hnodup : ∀ state : State, state.sides.Nodup := by
    intro state
    unfold State.sides
    split <;> decide
  rcases closings_run id now config arrival client trace with
    ⟨hactive, hclosings⟩ | ⟨hended, close, hclosings, houtcome⟩
  · exact ⟨by rw [hactive, hclosings]; rfl, by simp [hclosings], hcounts,
      (hnodup _).sublist hsides⟩
  · exact ⟨by rw [hended, hclosings]; rfl, by simpa [hclosings] using houtcome, hcounts,
      (hnodup _).sublist hsides⟩

end Runs

end Course

end Exchange

end FaultInjection
