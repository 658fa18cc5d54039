import FaultInjection.Proofs.Exchange.Course
import Mathlib.Data.List.Basic

/-!
# Exchanges - What is read

The body of a request, and a response with its body, are read from the events of an
exchange alone, without a look at the exchange.  Pieces count in the order in which
they arrive, the first event that ends a body decides what it is, and what comes after
that is of no account.

Main definitions:

- `RequestReading` and `requestReading`, how far the body of a request has been read.
- `ResponseReading` and `responseReading`, how far a response has been read.
- `RequestWhole` and `ResponseWhole`, events that make up a whole body.
- `RequestBreaks` and `ResponseBreaks`, events in which a body breaks off before its end.

Main results:

- `RequestReading.next_of_isOver` and `ResponseReading.next_of_isOver`: nothing changes
  what has been read to its end.
- `requestReading_eq_complete_iff` and `responseReading_eq_complete_iff`: what is read is
  complete exactly where the events make up a whole body.
- `RequestBreaks.not_whole` and `ResponseBreaks.not_whole`: what breaks off is not whole.
-/

namespace FaultInjection

namespace Exchange

/-! ## Requests -/

/-- How far the body of a request has been read. -/
inductive RequestReading where
  | unfinished (body : Bytes)
  | complete (body : Bytes)
  | broken (cause : Cause)
  deriving Repr

namespace RequestReading

/-- What has been read after one more event. -/
def next : RequestReading → Event → RequestReading
  | unfinished body, .requestChunk bytes => unfinished (body ++ bytes)
  | unfinished body, .requestEnd => complete body
  | unfinished _, .requestFailed cause => broken cause
  | unfinished _, .requestClosed => broken incomplete
  | reading, _ => reading

/-- Whether a body has been read to its end. -/
def isOver : RequestReading → Bool
  | unfinished _ => false
  | _ => true

/-- Nothing changes a body that has been read to its end. -/
theorem next_of_isOver {reading : RequestReading} (h : reading.isOver = true) (event : Event) :
    reading.next event = reading := by
  cases reading with
  | unfinished body => cases h
  | complete body => rfl
  | broken cause => rfl

end RequestReading

/-- What has been read of the body of a request. -/
def requestReading (events : List Event) : RequestReading :=
  events.foldl RequestReading.next (.unfinished [])

@[simp]
theorem requestReading_append_singleton (events : List Event) (event : Event) :
    requestReading (events ++ [event]) = (requestReading events).next event := by
  simp [requestReading]

/-! ## Responses -/

/-- How far a response has been read. -/
inductive ResponseReading where
  | awaited
  | unfinished (status : Option Number) (headers : Headers) (body : Bytes)
  | complete (response : Response)
  | broken (cause : Cause)
  deriving Repr

namespace ResponseReading

/-- What has been read after one more event. -/
def next : ResponseReading → Event → ResponseReading
  | awaited, .responseHead status headers => unfinished status headers []
  | awaited, .forwardingFailed cause => broken cause
  | unfinished status headers body, .responseChunk bytes =>
    unfinished status headers (body ++ bytes)
  | unfinished status headers body, .responseEnd => complete ⟨status.getD 502, headers, body⟩
  | unfinished .., .forwardingFailed cause => broken cause
  | unfinished .., .responseClosed => broken incomplete
  | reading, _ => reading

/-- Whether a response has been read to its end. -/
def isOver : ResponseReading → Bool
  | complete _ | broken _ => true
  | _ => false

/-- Nothing changes a response that has been read to its end. -/
theorem next_of_isOver {reading : ResponseReading} (h : reading.isOver = true) (event : Event) :
    reading.next event = reading := by
  cases reading with
  | awaited => cases h
  | unfinished status headers body => cases h
  | complete response => rfl
  | broken cause => rfl

end ResponseReading

/-- What has been read of a response. -/
def responseReading (events : List Event) : ResponseReading :=
  events.foldl ResponseReading.next .awaited

@[simp]
theorem responseReading_nil : responseReading [] = .awaited :=
  rfl

@[simp]
theorem responseReading_append_singleton (events : List Event) (event : Event) :
    responseReading (events ++ [event]) = (responseReading events).next event := by
  simp [responseReading]

/-! ## Whole requests -/

/-- The part of the body of a request that an event brings. -/
def Event.requestPiece : Event → Bytes
  | .requestChunk bytes => bytes
  | _ => []

/-- Whether an event breaks off the body of a request. -/
def Event.breaksRequest : Event → Bool
  | .requestFailed _ | .requestClosed => true
  | _ => false

/-- Whether an event ends the body of a request, whole or not. -/
def Event.endsRequest : Event → Bool
  | .requestEnd => true
  | event => event.breaksRequest

/-- Events that make up the whole body of a request: the body ends before anything breaks it off,
and it is the pieces up to there in their order. -/
def RequestWhole (events : List Event) (body : Bytes) : Prop :=
  ∃ before after, events = before ++ .requestEnd :: after ∧
    (∀ event ∈ before, event.endsRequest = false) ∧ body = before.flatMap Event.requestPiece

/-- Events in which the body of a request breaks off before it is whole. -/
def RequestBreaks (events : List Event) : Prop :=
  ∃ before event after, events = before ++ event :: after ∧
    (∀ body, ¬ RequestWhole before body) ∧ event.breaksRequest = true

namespace RequestReading

/-- A piece joins the body, and any other event that does not end the body leaves it. -/
theorem next_of_unended {event : Event} (h : event.endsRequest = false) (body : Bytes) :
    (unfinished body).next event = unfinished (body ++ event.requestPiece) := by
  cases event with
  | requestEnd => cases h
  | requestFailed cause => cases h
  | requestClosed => cases h
  | requestChunk bytes => rfl
  | _ => simp [next, Event.requestPiece]

/-- What breaks off a body leaves it broken. -/
theorem next_of_breaks {event : Event} (h : event.breaksRequest = true) (body : Bytes) :
    ∃ cause, (unfinished body).next event = broken cause := by
  cases event with
  | requestFailed cause => exact ⟨cause, rfl⟩
  | requestClosed => exact ⟨incomplete, rfl⟩
  | _ => cases h

/-- Events after the end of a body change nothing. -/
theorem foldl_of_isOver {reading : RequestReading} (h : reading.isOver = true)
    (events : List Event) : events.foldl next reading = reading :=
  List.foldl_fixed' (next_of_isOver h) events

/-- Pieces join what has been read as long as the body does not end. -/
theorem foldl_of_unended {events : List Event} (h : ∀ event ∈ events, event.endsRequest = false)
    (body : Bytes) :
    events.foldl next (unfinished body) =
      unfinished (body ++ events.flatMap Event.requestPiece) := by
  induction events generalizing body with
  | nil => simp
  | cons event rest ih =>
      rw [List.forall_mem_cons] at h
      rw [List.foldl_cons, next_of_unended h.1, ih h.2, List.flatMap_cons, List.append_assoc]

/-- A body that becomes complete does so at its end, with the pieces up to there. -/
theorem exists_of_foldl_eq_complete {events : List Event} {read body : Bytes}
    (h : events.foldl next (unfinished read) = complete body) :
    ∃ before after, events = before ++ .requestEnd :: after ∧
      (∀ event ∈ before, event.endsRequest = false) ∧
      body = read ++ before.flatMap Event.requestPiece := by
  -- The events are followed up to the first that ends the body.
  induction events generalizing read with
  | nil => cases h
  | cons event rest ih =>
      rw [List.foldl_cons] at h
      cases hends : event.endsRequest with
      | false =>
          rw [next_of_unended hends] at h
          obtain ⟨before, after, rfl, hbefore, rfl⟩ := ih h
          exact ⟨event :: before, after, rfl, List.forall_mem_cons.2 ⟨hends, hbefore⟩, by simp⟩
      | true =>
          by_cases hbreaks : event.breaksRequest = true
          · obtain ⟨cause, hnext⟩ := next_of_breaks hbreaks read
            rw [hnext, foldl_of_isOver rfl] at h
            cases h
          · obtain rfl : event = .requestEnd := by
              cases event <;> first | rfl | exact absurd hends hbreaks
            rw [next, foldl_of_isOver rfl] at h
            cases h
            exact ⟨[], rest, rfl, by simp, by simp⟩

end RequestReading

/-- What is read of a request is complete exactly where the events make up a whole body. -/
theorem requestReading_eq_complete_iff {events : List Event} {body : Bytes} :
    requestReading events = .complete body ↔ RequestWhole events body := by
  constructor
  · intro h
    obtain ⟨before, after, hevents, hbefore, hbody⟩ :=
      RequestReading.exists_of_foldl_eq_complete h
    exact ⟨before, after, hevents, hbefore, by simpa using hbody⟩
  · rintro ⟨before, after, rfl, hbefore, rfl⟩
    rw [requestReading, List.foldl_append, RequestReading.foldl_of_unended hbefore,
      List.foldl_cons, RequestReading.next, RequestReading.foldl_of_isOver rfl, List.nil_append]

/-- The body of a request that breaks off is not whole, whatever comes after that. -/
theorem RequestBreaks.not_whole {events : List Event} (h : RequestBreaks events) (body : Bytes) :
    ¬ RequestWhole events body := by
  obtain ⟨before, event, after, rfl, hbefore, hevent⟩ := h
  rw [← requestReading_eq_complete_iff, requestReading, List.foldl_append, List.foldl_cons]
  cases hreading : before.foldl RequestReading.next (.unfinished []) with
  | complete read => exact absurd (requestReading_eq_complete_iff.1 hreading) (hbefore read)
  | broken cause =>
      rw [RequestReading.next_of_isOver rfl, RequestReading.foldl_of_isOver rfl]
      simp
  | unfinished read =>
      obtain ⟨cause, hnext⟩ := RequestReading.next_of_breaks hevent read
      rw [hnext, RequestReading.foldl_of_isOver rfl]
      simp

/-! ## Whole responses -/

/-- The part of the body of a response that an event brings. -/
def Event.responsePiece : Event → Bytes
  | .responseChunk bytes => bytes
  | _ => []

/-- Whether an event shows what comes of a request that was forwarded. -/
def Event.opensResponse : Event → Bool
  | .responseHead .. | .forwardingFailed _ => true
  | _ => false

/-- Whether an event breaks off the body of a response. -/
def Event.breaksResponse : Event → Bool
  | .forwardingFailed _ | .responseClosed => true
  | _ => false

/-- Whether an event ends the body of a response, whole or not. -/
def Event.endsResponse : Event → Bool
  | .responseEnd => true
  | event => event.breaksResponse

/-- Events that make up a whole response: a head comes, the body ends before anything breaks it
off, and it is the pieces between the two in their order. -/
def ResponseWhole (events : List Event) (response : Response) : Prop :=
  ∃ before status headers during after,
    events = before ++ .responseHead status headers :: (during ++ .responseEnd :: after) ∧
    (∀ event ∈ before, event.opensResponse = false) ∧
    (∀ event ∈ during, event.endsResponse = false) ∧
    response = ⟨status.getD 502, headers, during.flatMap Event.responsePiece⟩

/-- Events in which a response breaks off before it is whole; only what has a head can be closed. -/
def ResponseBreaks (events : List Event) : Prop :=
  ∃ before event after, events = before ++ event :: after ∧
    (∀ response, ¬ ResponseWhole before response) ∧ event.breaksResponse = true ∧
    (event = .responseClosed → ∃ status headers, .responseHead status headers ∈ before)

namespace ResponseReading

/-- A response is awaited until something shows what comes of the request. -/
theorem next_awaited_of_unopened {event : Event} (h : event.opensResponse = false) :
    awaited.next event = awaited := by
  cases event with
  | responseHead status headers => cases h
  | forwardingFailed cause => cases h
  | _ => rfl

/-- A piece joins the body, and any other event that does not end the body leaves it. -/
theorem next_of_unended {event : Event} (h : event.endsResponse = false) (status : Option Number)
    (headers : Headers) (body : Bytes) :
    (unfinished status headers body).next event =
      unfinished status headers (body ++ event.responsePiece) := by
  cases event with
  | responseEnd => cases h
  | forwardingFailed cause => cases h
  | responseClosed => cases h
  | responseChunk bytes => rfl
  | _ => simp [next, Event.responsePiece]

/-- What breaks off a body leaves the response broken. -/
theorem next_of_breaks {event : Event} (h : event.breaksResponse = true) (status : Option Number)
    (headers : Headers) (body : Bytes) :
    ∃ cause, (unfinished status headers body).next event = broken cause := by
  cases event with
  | forwardingFailed cause => exact ⟨cause, rfl⟩
  | responseClosed => exact ⟨incomplete, rfl⟩
  | _ => cases h

/-- A response for which something has shown what comes of the request stays so. -/
theorem next_ne_awaited {reading : ResponseReading} (h : reading ≠ awaited) (event : Event) :
    reading.next event ≠ awaited := by
  cases reading with
  | awaited => exact absurd rfl h
  | unfinished status headers body => cases event <;> exact nofun
  | complete response => exact h
  | broken cause => exact h

/-- Events after the end of a response change nothing. -/
theorem foldl_of_isOver {reading : ResponseReading} (h : reading.isOver = true)
    (events : List Event) : events.foldl next reading = reading :=
  List.foldl_fixed' (next_of_isOver h) events

/-- A response is awaited as long as nothing shows what comes of the request. -/
theorem foldl_of_unopened {events : List Event}
    (h : ∀ event ∈ events, event.opensResponse = false) :
    events.foldl next awaited = awaited := by
  induction events with
  | nil => rfl
  | cons event rest ih =>
      rw [List.forall_mem_cons] at h
      rw [List.foldl_cons, next_awaited_of_unopened h.1, ih h.2]

/-- Pieces join what has been read as long as the body does not end. -/
theorem foldl_of_unended {events : List Event} (h : ∀ event ∈ events, event.endsResponse = false)
    (status : Option Number) (headers : Headers) (body : Bytes) :
    events.foldl next (unfinished status headers body) =
      unfinished status headers (body ++ events.flatMap Event.responsePiece) := by
  induction events generalizing body with
  | nil => simp
  | cons event rest ih =>
      rw [List.forall_mem_cons] at h
      rw [List.foldl_cons, next_of_unended h.1, ih h.2, List.flatMap_cons, List.append_assoc]

/-- A response that is no longer awaited stays so. -/
theorem foldl_ne_awaited {reading : ResponseReading} (h : reading ≠ awaited)
    (events : List Event) : events.foldl next reading ≠ awaited := by
  induction events generalizing reading with
  | nil => exact h
  | cons event rest ih => exact ih (next_ne_awaited h event)

/-- A body that becomes complete does so at its end, with the pieces up to there. -/
theorem exists_of_foldl_eq_complete {events : List Event} {status : Option Number}
    {headers : Headers} {read : Bytes} {response : Response}
    (h : events.foldl next (unfinished status headers read) = complete response) :
    ∃ during after, events = during ++ .responseEnd :: after ∧
      (∀ event ∈ during, event.endsResponse = false) ∧
      response = ⟨status.getD 502, headers, read ++ during.flatMap Event.responsePiece⟩ := by
  -- The events are followed up to the first that ends the body.
  induction events generalizing read with
  | nil => cases h
  | cons event rest ih =>
      rw [List.foldl_cons] at h
      cases hends : event.endsResponse with
      | false =>
          rw [next_of_unended hends] at h
          obtain ⟨during, after, rfl, hduring, rfl⟩ := ih h
          exact ⟨event :: during, after, rfl, List.forall_mem_cons.2 ⟨hends, hduring⟩, by simp⟩
      | true =>
          by_cases hbreaks : event.breaksResponse = true
          · obtain ⟨cause, hnext⟩ := next_of_breaks hbreaks status headers read
            rw [hnext, foldl_of_isOver rfl] at h
            cases h
          · obtain rfl : event = .responseEnd := by
              cases event <;> first | rfl | exact absurd hends hbreaks
            rw [next, foldl_of_isOver rfl] at h
            cases h
            exact ⟨[], rest, rfl, by simp, by simp⟩

/-- A response that becomes complete does so after a head. -/
theorem responseWhole_of_foldl {events : List Event} {response : Response}
    (h : events.foldl next awaited = complete response) : ResponseWhole events response := by
  induction events with
  | nil => cases h
  | cons event rest ih =>
      rw [List.foldl_cons] at h
      cases hopens : event.opensResponse with
      | false =>
          rw [next_awaited_of_unopened hopens] at h
          obtain ⟨before, status, headers, during, after, rfl, hbefore, hduring, rfl⟩ := ih h
          exact ⟨event :: before, status, headers, during, after, rfl,
            List.forall_mem_cons.2 ⟨hopens, hbefore⟩, hduring, rfl⟩
      | true =>
          cases event with
          | responseHead status headers =>
              obtain ⟨during, after, rfl, hduring, rfl⟩ := exists_of_foldl_eq_complete h
              exact ⟨[], status, headers, during, after, rfl, by simp, hduring, by simp⟩
          | forwardingFailed cause =>
              rw [next, foldl_of_isOver rfl] at h
              cases h
          | _ => cases hopens

end ResponseReading

/-- What is read of a response is complete exactly where the events make up a whole one. -/
theorem responseReading_eq_complete_iff {events : List Event} {response : Response} :
    responseReading events = .complete response ↔ ResponseWhole events response := by
  constructor
  · exact ResponseReading.responseWhole_of_foldl
  · rintro ⟨before, status, headers, during, after, rfl, hbefore, hduring, rfl⟩
    rw [responseReading, List.foldl_append, ResponseReading.foldl_of_unopened hbefore,
      List.foldl_cons, ResponseReading.next, List.foldl_append,
      ResponseReading.foldl_of_unended hduring, List.foldl_cons, ResponseReading.next,
      ResponseReading.foldl_of_isOver rfl, List.nil_append]

/-- A response is no longer awaited once a head has come. -/
theorem responseReading_ne_awaited {events : List Event} {status : Option Number}
    {headers : Headers} (h : .responseHead status headers ∈ events) :
    responseReading events ≠ .awaited := by
  obtain ⟨before, after, rfl⟩ := List.append_of_mem h
  rw [responseReading, List.foldl_append, List.foldl_cons]
  refine ResponseReading.foldl_ne_awaited ?_ after
  cases before.foldl ResponseReading.next .awaited <;> exact nofun

/-- A response that breaks off is not whole, whatever comes after that. -/
theorem ResponseBreaks.not_whole {events : List Event} (h : ResponseBreaks events)
    (response : Response) : ¬ ResponseWhole events response := by
  obtain ⟨before, event, after, rfl, hbefore, hevent, hclosed⟩ := h
  rw [← responseReading_eq_complete_iff, responseReading, List.foldl_append, List.foldl_cons]
  cases hreading : before.foldl ResponseReading.next .awaited with
  | complete read => exact absurd (responseReading_eq_complete_iff.1 hreading) (hbefore read)
  | broken cause =>
      rw [ResponseReading.next_of_isOver rfl, ResponseReading.foldl_of_isOver rfl]
      simp
  | unfinished status headers body =>
      obtain ⟨cause, hnext⟩ := ResponseReading.next_of_breaks hevent status headers body
      rw [hnext, ResponseReading.foldl_of_isOver rfl]
      simp
  | awaited =>
      -- Nothing but a failure can break off what has no head yet.
      cases event with
      | forwardingFailed cause =>
          rw [ResponseReading.next, ResponseReading.foldl_of_isOver rfl]
          simp
      | responseClosed =>
          obtain ⟨status, headers, hmem⟩ := hclosed rfl
          exact absurd hreading (responseReading_ne_awaited hmem)
      | _ => cases hevent

end Exchange

end FaultInjection
