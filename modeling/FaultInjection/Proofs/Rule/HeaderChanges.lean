import FaultInjection.Proofs.Headers.Replacing
import FaultInjection.Proofs.Rule.Changes
import FaultInjection.Proofs.Trial

/-!
# Rules - What becomes of headers

Actions append pairs to the headers of a message and then put entries in the place of headers.
Told name by name, a header has the values of its entries if there are any, and otherwise its
own with the appended ones behind them.  Requests and responses are treated alike here, and
what actions have for the other side plays no part.

Main definitions:

- `Actions.ChangesHeaders`, for the headers that a message has afterwards.
- `Actions.AgreeOnRequests` and `Actions.AgreeOnResponses`, for actions that differ in nothing
  that counts for this side.

Main results:

- `Actions.changesHeaders`: the headers of requests and responses that come out, and
  what the verdicts on them depend on.
-/

namespace FaultInjection

namespace Actions

variable {actions other : Actions}

/-! ## Headers name by name -/

/-- The pairs that actions append. -/
def addedPairs (actions : Actions) : List (String × String) :=
  (actions.append.bind Additions.headers).getD []

/-- The entries that actions put in the place of headers. -/
def entries (actions : Actions) : Headers :=
  ⟨(actions.replace.bind Replacements.headers).getD []⟩

/-- What actions make of the headers of a message. -/
structure ChangesHeaders (actions : Actions) (before after : Headers) : Prop where
  /-- A name that occurs among the entries has their values, in order; any other name has its own
  and then the appended ones. -/
  values : ∀ name, after.getAll name =
    if actions.entries.contains name then actions.entries.getAll name
    else before.getAll name ++ (Headers.mk actions.addedPairs).getAll name
  /-- The pairs of names that do not occur among the entries stand as they are written, in the order
  of the old headers and the appended pairs. -/
  others : after.toList.filter (fun pair => !actions.entries.contains pair.1) =
    (before.toList ++ actions.addedPairs).filter fun pair => !actions.entries.contains pair.1

/-- Entries that are optional are none where they are absent. -/
theorem replacePresent_eq (h : Headers) (entries : Option (List (String × String))) :
    h.replacePresent entries = h.replaceAll (entries.getD []) := by
  cases entries <;> rfl

/-- The headers that actions put in place of others are what actions make of them. -/
theorem changesHeaders_newHeaders (actions : Actions) (h : Headers) :
    ChangesHeaders actions h (actions.newHeaders h) := by
  have hnew : actions.newHeaders h =
      (h.appendAll actions.addedPairs).replaceAll actions.entries.toList := replacePresent_eq _ _
  rw [hnew]
  constructor
  · intro name
    rw [Headers.getAll_replaceAll, Headers.getAll_appendAll]
  · exact Headers.filter_replaceAll _ _

/-! ## What counts for one side -/

/-- Actions that differ in nothing but the status of responses. -/
structure AgreeOnRequests (actions other : Actions) : Prop where
  abort : actions.abort = other.abort
  delay : actions.delay = other.delay
  query : actions.append.bind Additions.query = other.append.bind Additions.query
  added : actions.append.bind Additions.headers = other.append.bind Additions.headers
  path : actions.replace.bind Replacements.path = other.replace.bind Replacements.path
  method : actions.replace.bind Replacements.method = other.replace.bind Replacements.method
  body : actions.replace.bind Replacements.body = other.replace.bind Replacements.body
  parameters : actions.replace.bind Replacements.parameters =
    other.replace.bind Replacements.parameters
  headers : actions.replace.bind Replacements.headers = other.replace.bind Replacements.headers

/-- Actions that differ in nothing but the target and the method of requests. -/
structure AgreeOnResponses (actions other : Actions) : Prop where
  abort : actions.abort = other.abort
  delay : actions.delay = other.delay
  added : actions.append.bind Additions.headers = other.append.bind Additions.headers
  code : actions.replace.bind Replacements.code = other.replace.bind Replacements.code
  body : actions.replace.bind Replacements.body = other.replace.bind Replacements.body
  headers : actions.replace.bind Replacements.headers = other.replace.bind Replacements.headers

/-- Actions that agree on requests give the same verdict. -/
theorem AgreeOnRequests.onRequest_eq (h : AgreeOnRequests actions other) (request : Request) :
    actions.onRequest request = other.onRequest request := by
  have htarget : actions.newTarget = other.newTarget := by
    funext target
    simp only [newTarget, h.query, h.path, h.parameters]
  have hnew : actions.newRequest request = other.newRequest request := by
    funext target
    simp only [newRequest, newHeaders, newBody?, h.method, h.added, h.headers, h.body]
  have hchange : actions.changeRequest request = other.changeRequest request := by
    rw [changeRequest_eq, changeRequest_eq, h.abort, htarget, hnew]
  simp only [onRequest, hchange, h.delay]

/-- Actions that agree on responses give the same verdict. -/
theorem AgreeOnResponses.onResponse_eq (h : AgreeOnResponses actions other)
    (response : Response) : actions.onResponse response = other.onResponse response := by
  have hnew : actions.newResponse response = other.newResponse response := by
    simp only [newResponse, newHeaders, newBody?, h.code, h.added, h.headers, h.body]
  have hchange : actions.changeResponse response = other.changeResponse response := by
    rw [changeResponse_eq, changeResponse_eq, h.abort, hnew]
  simp only [onResponse, hchange, h.delay]

/-! ## Messages -/

section Messages

variable (plan : Cancellation) (threshold : Log.Level) (trial : Trial)

/-- What actions make of the headers of a request that comes out. -/
theorem changesHeaders_of_onRequest {request changed : Request}
    (h : (trial.carryOut plan threshold (actions.onRequest request)).2 = .ok changed) :
    ChangesHeaders actions request.headers changed.headers := by
  have hchange : actions.changeRequest request = .ok changed :=
    Trial.result_of_carryOut plan threshold trial h
  obtain ⟨-, target, -, rfl⟩ := changeRequest_eq_ok_iff.1 hchange
  exact changesHeaders_newHeaders actions request.headers

/-- What actions make of the headers of a response that comes out. -/
theorem changesHeaders_of_onResponse {response changed : Response}
    (h : (trial.carryOut plan threshold (actions.onResponse response)).2 = .ok changed) :
    ChangesHeaders actions response.headers changed.headers := by
  have hchange : actions.changeResponse response = .ok changed :=
    Trial.result_of_carryOut plan threshold trial h
  rw [(parts_of_changeResponse hchange).2.1]
  exact changesHeaders_newHeaders actions response.headers

end Messages

/-- What actions make of the headers of requests and responses that come out, and what the verdicts
on these do not depend on. -/
theorem changesHeaders (actions : Actions) :
    (∀ request changed plan threshold (trial : Trial),
      (trial.carryOut plan threshold (actions.onRequest request)).2 = .ok changed →
      ChangesHeaders actions request.headers changed.headers) ∧
    (∀ response changed plan threshold (trial : Trial),
      (trial.carryOut plan threshold (actions.onResponse response)).2 = .ok changed →
      ChangesHeaders actions response.headers changed.headers) ∧
    (∀ other, AgreeOnRequests actions other →
      ∀ request, actions.onRequest request = other.onRequest request) ∧
    ∀ other, AgreeOnResponses actions other →
      ∀ response, actions.onResponse response = other.onResponse response := by
  refine ⟨?_, ?_, fun other h => h.onRequest_eq, fun other h => h.onResponse_eq⟩
  · intro request changed plan threshold trial h
    exact changesHeaders_of_onRequest plan threshold trial h
  · intro response changed plan threshold trial h
    exact changesHeaders_of_onResponse plan threshold trial h

/-- Entries of one name in two spellings replace an own header and an appended one together. -/
theorem changesHeaders_spellings :
    let added := [("x-B", "4"), ("x-c", "5")]
    let replacements : Replacements :=
      { headers := some [("X-b", "6"), ("x-d", "7"), ("x-B", "8")] }
    let actions : Actions := {
      append := some { query := some "q=1", headers := some added }
      replace := some replacements }
    let other : Actions :=
      { append := some { headers := some added }, replace := some replacements }
    let response : Response := ⟨200, ⟨[("X-A", "1"), ("x-b", "2"), ("X-a", "3")]⟩, []⟩
    let after : Headers :=
      ⟨[("X-A", "1"), ("X-a", "3"), ("x-c", "5"), ("X-b", "6"), ("X-b", "8"), ("x-d", "7")]⟩
    ChangesHeaders actions response.headers after ∧ after.getAll "X-B" = ["6", "8"] ∧
      AgreeOnResponses actions other ∧
      actions.onResponse response = other.onResponse response ∧
      ∀ plan threshold (trial : Trial),
        (trial.carryOut plan threshold (actions.onResponse response)).2 = .ok ⟨200, after, []⟩ := by
  intro added replacements actions other response after
  have hnew : actions.newResponse response = ⟨200, after, []⟩ := by decide +kernel
  have hout : ∀ plan threshold (trial : Trial),
      (trial.carryOut plan threshold (actions.onResponse response)).2 = .ok ⟨200, after, []⟩ := by
    intro plan threshold trial
    refine Trial.carryOut_of_delay_eq_none plan threshold trial rfl ?_
    change actions.changeResponse response = .ok _
    rw [changeResponse_eq, hnew]
    rfl
  have hagree : AgreeOnResponses actions other := ⟨rfl, rfl, rfl, rfl, rfl, rfl⟩
  obtain ⟨-, hresponses, -, hsame⟩ := changesHeaders actions
  exact ⟨hresponses response ⟨200, after, []⟩ {} .debug {} (hout {} .debug {}), by decide +kernel,
    hagree, hsame other hagree response, hout⟩

end Actions

end FaultInjection
