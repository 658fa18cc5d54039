import FaultInjection.Proofs.Target.WellFormed
import FaultInjection.Rule.Verdict

/-!
# Rules - What actions change

Actions that change a message change each of its parts on its own: the target of a
request goes through three rewrites one after the other, and the method, the headers
and the body take what the actions have for them.

Main definitions:

- `Actions.newTarget`, `Actions.newHeaders` and `Actions.newBody?`, what actions put in
  place of the parts of a message.
- `Actions.newRequest` and `Actions.newResponse`, the message that is made of them.

Main results:

- `Actions.changeRequest_eq` and `Actions.changeResponse_eq`: what actions make of a
  message, or why they stop it.
- `Actions.parts_of_changeRequest` and `Actions.parts_of_changeResponse`: the parts of a
  changed message.
-/

namespace FaultInjection

/-- Without pairs to append headers stay as they are. -/
@[simp] theorem Headers.appendPresent_none (h : Headers) : h.appendPresent none = h := by
  simp [appendPresent, appendAll]

namespace Actions

variable {actions : Actions}

/-! ## The parts -/

/-- The target that actions put in place of a request's own. -/
def newTarget (actions : Actions) (target : Target) : Except TargetFault Target := do
  let extended ← target.appendQuery (actions.append.bind Additions.query)
  let placed ← extended.replacePath (actions.replace.bind Replacements.path)
  placed.replaceParameters (actions.replace.bind Replacements.parameters)

/-- The headers that actions put in place of a message's own. -/
def newHeaders (actions : Actions) (headers : Headers) : Headers :=
  (headers.appendPresent (actions.append.bind Additions.headers)).replacePresent
    (actions.replace.bind Replacements.headers)

/-- The body that actions put in place of a message's own. -/
def newBody? (actions : Actions) : Option Bytes := actions.replace.bind Replacements.body

/-- The request that actions make of another, with a target for it. -/
def newRequest (actions : Actions) (request : Request) (target : Target) : Request := {
  method := (actions.replace.bind Replacements.method).getD request.method
  target
  headers := actions.newHeaders request.headers
  body := actions.newBody?.getD request.body }

/-- The response that actions make of another. -/
def newResponse (actions : Actions) (response : Response) : Response := {
  status := (actions.replace.bind Replacements.code).getD response.status
  headers := actions.newHeaders response.headers
  body := actions.newBody?.getD response.body }

/-! ## Requests -/

section Requests

variable {request changed : Request}

/-- A target is rewritten where it can go through all three rewrites. -/
theorem newTarget_eq_ok_iff {t u : Target} :
    actions.newTarget t = .ok u ↔ ∃ extended placed,
      t.appendQuery (actions.append.bind Additions.query) = .ok extended ∧
      extended.replacePath (actions.replace.bind Replacements.path) = .ok placed ∧
      placed.replaceParameters (actions.replace.bind Replacements.parameters) = .ok u := by
  simp only [newTarget, bind_eq_ok_iff, exists_and_left]

/-- What additions make of a request. -/
theorem append_eq (request : Request) :
    (match actions.append with
      | some additions => additions.toRequest request
      | none => .ok request) =
    (request.target.appendQuery (actions.append.bind Additions.query)).map fun target =>
      { request with
        target
        headers := request.headers.appendPresent (actions.append.bind Additions.headers) } := by
  cases actions.append with
  | none => simp [Target.appendQuery, Except.map]
  | some additions =>
      change additions.toRequest request = (request.target.appendQuery additions.query).map _
      unfold Additions.toRequest
      cases request.target.appendQuery additions.query <;> rfl

/-- What replacements make of a request. -/
theorem replace_eq (request : Request) :
    (match actions.replace with
      | some replacements => replacements.inRequest request
      | none => .ok request) =
    (request.target.replacePath (actions.replace.bind Replacements.path) >>= fun placed =>
      placed.replaceParameters (actions.replace.bind Replacements.parameters)).map fun target => {
        method := (actions.replace.bind Replacements.method).getD request.method
        target
        headers := request.headers.replacePresent (actions.replace.bind Replacements.headers)
        body := actions.newBody?.getD request.body } := by
  unfold newBody?
  cases actions.replace with
  | none => rfl
  | some replacements =>
      change replacements.inRequest request = (request.target.replacePath replacements.path >>=
        fun placed => placed.replaceParameters replacements.parameters).map _
      unfold Replacements.inRequest
      cases request.target.replacePath replacements.path with
      | error fault => rfl
      | ok placed =>
          change (placed.replaceParameters replacements.parameters >>= _) =
            (placed.replaceParameters replacements.parameters).map _
          cases placed.replaceParameters replacements.parameters <;> rfl

/-- Actions rewrite the target of a request, and change its other parts on their own. -/
theorem rewriteRequest_eq (request : Request) :
    actions.rewriteRequest request =
      (actions.newTarget request.target).map (actions.newRequest request) := by
  have hjoined : actions.rewriteRequest request =
      (match actions.append with
        | some additions => additions.toRequest request
        | none => .ok request) >>= fun extended =>
      (match actions.replace with
        | some replacements => replacements.inRequest extended
        | none => .ok extended) := by
    rw [rewriteRequest]
    cases actions.append <;> cases actions.replace <;> rfl
  rw [hjoined, append_eq, newTarget]
  cases request.target.appendQuery (actions.append.bind Additions.query) with
  | error fault => rfl
  | ok extended => exact replace_eq _

/-- A request is dropped, stopped by an ill-formed target, or changed. -/
theorem changeRequest_eq (request : Request) :
    actions.changeRequest request =
      if actions.abort then .error .dropped
      else
        match actions.newTarget request.target with
        | .error fault => .error (.target fault)
        | .ok target => .ok (actions.newRequest request target) := by
  rw [changeRequest, rewriteRequest_eq]
  cases actions.newTarget request.target <;> rfl

/-- A request is changed where its target can be rewritten. -/
theorem changeRequest_eq_ok_iff :
    actions.changeRequest request = .ok changed ↔ actions.abort = false ∧
      ∃ target, actions.newTarget request.target = .ok target ∧
        changed = actions.newRequest request target := by
  rw [changeRequest_eq]
  cases actions.abort with
  | true => simp
  | false => cases actions.newTarget request.target <;> simp [eq_comm]

/-- What actions make of a request, part by part. -/
theorem parts_of_changeRequest (h : actions.changeRequest request = .ok changed) :
    (∃ extended placed,
      request.target.appendQuery (actions.append.bind Additions.query) = .ok extended ∧
      extended.replacePath (actions.replace.bind Replacements.path) = .ok placed ∧
      placed.replaceParameters (actions.replace.bind Replacements.parameters) =
        .ok changed.target) ∧
      changed.method = (actions.replace.bind Replacements.method).getD request.method ∧
      changed.headers =
        (request.headers.appendPresent (actions.append.bind Additions.headers)).replacePresent
          (actions.replace.bind Replacements.headers) ∧
      changed.body = actions.newBody?.getD request.body := by
  obtain ⟨-, target, htarget, rfl⟩ := changeRequest_eq_ok_iff.1 h
  exact ⟨newTarget_eq_ok_iff.1 htarget, rfl, rfl, rfl⟩

end Requests

/-! ## Responses -/

/-- A response is dropped or changed. -/
theorem changeResponse_eq (response : Response) :
    actions.changeResponse response =
      if actions.abort then .error .dropped else .ok (actions.newResponse response) := by
  unfold changeResponse newResponse newHeaders newBody?
  cases actions.append <;> cases actions.replace <;>
    simp [Additions.toResponse, Replacements.inResponse, Headers.replacePresent]

/-- What actions make of a response, part by part. -/
theorem parts_of_changeResponse {response changed : Response}
    (h : actions.changeResponse response = .ok changed) :
    changed.status = ((actions.replace.bind Replacements.code).getD response.status) ∧
      changed.headers =
        (response.headers.appendPresent (actions.append.bind Additions.headers)).replacePresent
          (actions.replace.bind Replacements.headers) ∧
      changed.body = actions.newBody?.getD response.body := by
  rw [changeResponse_eq] at h
  split at h
  · cases h
  · obtain rfl := Except.ok.inj h
    exact ⟨rfl, rfl, rfl⟩

end Actions

end FaultInjection
