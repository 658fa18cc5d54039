import FaultInjection.Proofs.Exchange.Course

/-!
# Exchanges - Numbers

An exchange carries the number under which it is recorded, but nothing that it does
depends on the number.  So the same request that arrives at the same time under another
number has the same course, save for the number itself.

Main definitions:

- `Exchange.renumbered` and `Course.renumbered`, the same under another number.

Main results:

- `Exchange.next_renumbered`: an event has the same effects whatever the number.
- `Exchange.id_next`: an exchange keeps its number.
- `Course.run_start_renumbered`: the course of a request does not depend on its number.
-/

namespace FaultInjection

namespace Exchange

/-- The exchange under another number. -/
def renumbered (x : Exchange) (id : Nat) : Exchange := { x with id }

/-- An exchange under another number, with the effects it asks for. -/
def Outcome.renumbered (outcome : Outcome) (id : Nat) : Outcome :=
  (outcome.1.renumbered id, outcome.2)

section Steps

variable (x : Exchange) (now : Number) (intake : Intake) (id : Nat)

@[simp]
theorem client_renumbered : (x.renumbered id).client = x.client :=
  rfl

@[simp]
theorem abandoned_renumbered : (x.renumbered id).abandoned = x.abandoned :=
  rfl

@[simp]
theorem state_renumbered : (x.renumbered id).state = x.state :=
  rfl

/-! ## Ends -/

theorem answerText_renumbered (status : Number) (message : String) :
    (x.renumbered id).answerText status message = (x.answerText status message).renumbered id := by
  rcases h : x.client.answerText status message with ⟨client, cause | cause⟩ <;>
    simp [answerText, h, renumbered, Outcome.renumbered, collapse]

theorem refuse_renumbered (status : Number) (message : String) :
    (x.renumbered id).refuse now status message = (x.refuse now status message).renumbered id := by
  simp only [refuse, answerText_renumbered]
  rfl

theorem fail_renumbered (failure : Failure) :
    (x.renumbered id).fail now intake failure = (x.fail now intake failure).renumbered id := by
  cases failure with
  | dropped => rfl
  | target fault =>
      simp only [fail, refuse_renumbered, abandoned_renumbered]
      split <;> rfl
  | cause cause =>
      simp only [fail, refuse_renumbered, abandoned_renumbered]
      split <;> rfl

/-- Effects that come before others are those of the exchange under another number. -/
theorem prepend_renumbered {id : Nat} {first second : Outcome}
    (h : first = second.renumbered id) (effects : List Effect) :
    ((first.1, effects ++ first.2) : Outcome) =
      Outcome.renumbered (second.1, effects ++ second.2) id := by
  rw [h]
  rfl

theorem releaseResponse_renumbered (request : Request) (held : Held Response) :
    (x.renumbered id).releaseResponse now intake request held =
      (x.releaseResponse now intake request held).renumbered id := by
  simp only [releaseResponse, client_renumbered]
  split
  · rfl
  · rename_i client cause h
    exact prepend_renumbered (fail_renumbered { x with client } now intake id _) _

theorem holdResponse_renumbered (request : Request) (held : Held Response) (delay : Delay) :
    (x.renumbered id).holdResponse now intake request held delay =
      (x.holdResponse now intake request held delay).renumbered id := by
  cases delay with
  | waiting step remaining => rfl
  | elapsed => exact x.releaseResponse_renumbered now intake id request held
  | cancelled cause => exact x.fail_renumbered now intake id (.cause cause)

theorem judgeResponse_renumbered (request : Request) (response : Response) :
    (x.renumbered id).judgeResponse now intake request response =
      (x.judgeResponse now intake request response).renumbered id := by
  simp only [judgeResponse]
  refine prepend_renumbered ?_ _
  split
  · exact x.fail_renumbered now intake id _
  · split
    · exact x.releaseResponse_renumbered now intake id request _
    · exact x.holdResponse_renumbered now intake id request _ _

theorem forward_renumbered (request : Request) :
    (x.renumbered id).forward now intake request =
      (x.forward now intake request).renumbered id := by
  cases h : x.abandoned with
  | true =>
      simp only [forward, abandoned_renumbered, h, if_true]
      exact prepend_renumbered (x.fail_renumbered now intake id _) [_]
  | false =>
      simp only [forward, abandoned_renumbered, h]
      rfl

theorem holdRequest_renumbered (held : Held Request) (delay : Delay) :
    (x.renumbered id).holdRequest now intake held delay =
      (x.holdRequest now intake held delay).renumbered id := by
  cases delay with
  | waiting step remaining => rfl
  | elapsed => exact prepend_renumbered (x.forward_renumbered now intake id held.message) _
  | cancelled cause => exact x.fail_renumbered now intake id (.cause cause)

theorem judgeRequest_renumbered (body : Bytes) :
    (x.renumbered id).judgeRequest now intake body =
      (x.judgeRequest now intake body).renumbered id := by
  simp only [judgeRequest]
  refine prepend_renumbered ?_ _
  split
  · exact x.fail_renumbered now intake id _
  · split
    · exact prepend_renumbered (x.forward_renumbered now intake id _) _
    · exact x.holdRequest_renumbered now intake id _ _

/-! ## Events -/

theorem leave_renumbered (stage : Stage) :
    (x.renumbered id).leave now intake stage = (x.leave now intake stage).renumbered id := by
  cases stage with
  | readingRequest body => rfl
  | holdingRequest held delay =>
      exact prepend_renumbered
        (holdRequest_renumbered { x with abandoned := true } now intake id held _) [_]
  | awaitingResponse request =>
      exact fail_renumbered { x with abandoned := true } now intake id (.cause forwardingGivenUp)
  | readingResponse request status headers body =>
      exact fail_renumbered { x with abandoned := true } now intake id (.cause forwardingGivenUp)
  | holdingResponse request held delay =>
      exact prepend_renumbered
        (holdResponse_renumbered { x with abandoned := true } now intake id request held _) [_]

theorem nextFrom_renumbered (stage : Stage) (event : Event) :
    (x.renumbered id).nextFrom now intake stage event =
      (x.nextFrom now intake stage event).renumbered id := by
  unfold nextFrom
  split
  · exact x.leave_renumbered now intake id _
  · rfl
  · exact x.judgeRequest_renumbered now intake id _
  · exact x.fail_renumbered now intake id _
  · exact x.fail_renumbered now intake id _
  · exact x.holdRequest_renumbered now intake id _ _
  · exact x.fail_renumbered now intake id _
  · rfl
  · rfl
  · exact x.judgeResponse_renumbered now intake id _ _
  · exact x.fail_renumbered now intake id _
  · exact x.fail_renumbered now intake id _
  · exact x.holdResponse_renumbered now intake id _ _ _
  · rfl

/-- What an event does to an exchange does not depend on its number. -/
theorem next_renumbered (event : Event) :
    (x.renumbered id).next now event = (x.next now event).renumbered id := by
  simp only [next, state_renumbered]
  split
  · exact x.nextFrom_renumbered now _ id _ event
  · rfl

/-- An exchange keeps its number. -/
theorem id_next (event : Event) : (x.next now event).1.id = x.id := by
  have hsame := x.next_renumbered now x.id event
  exact congrArg (fun outcome : Outcome => outcome.1.id) hsame

/-- What a request does as it arrives does not depend on the number of its exchange. -/
theorem start_renumbered [Domain.Mapping] (other : Nat) (config : Except String Config)
    (arrival : Arrival) (client : Client) :
    start other now config arrival client =
      (start id now config arrival client).renumbered other := by
  simp only [start]
  split
  · exact refuse_renumbered { id, started := now.floor, client } now other _ _
  · rfl
  · rfl

/-- An exchange has the number under which it starts. -/
theorem id_start [Domain.Mapping] (config : Except String Config) (arrival : Arrival)
    (client : Client) :
    (start id now config arrival client).1.id = id := by
  rw [start_renumbered now id id]
  rfl

end Steps

/-! ## Courses -/

namespace Course

/-- The course under another number. -/
def renumbered (c : Course) (id : Nat) : Course :=
  { c with exchange := c.exchange.renumbered id }

/-- An event makes of a course under another number what it makes of the course. -/
theorem next_renumbered (c : Course) (id : Nat) (now : Number) (event : Event) :
    (c.renumbered id).next now event = (c.next now event).renumbered id := by
  simp only [next, after, renumbered, Exchange.next_renumbered]
  rfl

/-- Events make of a course under another number what they make of the course. -/
theorem run_renumbered (c : Course) (id : Nat) (trace : List (Number × Event)) :
    (c.renumbered id).run trace = (c.run trace).renumbered id := by
  induction trace generalizing c with
  | nil => rfl
  | cons entry rest ih =>
      obtain ⟨now, event⟩ := entry
      rw [run_cons, run_cons, next_renumbered, ih]

/-- The course of a request under one number is its course under any other. -/
theorem run_start_renumbered [Domain.Mapping] (id other : Nat) (now : Number)
    (config : Except String Config) (arrival : Arrival) (client : Client)
    (trace : List (Number × Event)) :
    (start other now config arrival client).run trace =
      ((start id now config arrival client).run trace).renumbered other := by
  have hstart : start other now config arrival client =
      (start id now config arrival client).renumbered other := by
    simp only [start, start_renumbered now id other]
    rfl
  rw [hstart, run_renumbered]

end Course

end Exchange

end FaultInjection
