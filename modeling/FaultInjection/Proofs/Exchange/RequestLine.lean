import FaultInjection.Proofs.Exchange.Conclusion
import FaultInjection.Proofs.Rule.Changes
import FaultInjection.Proofs.Target.WellFormed

/-!
# Exchanges - Request lines

Whatever request arrives and whatever the rules append and replace, the text that a
request is forwarded with may stand on a request line.  It is the path and query of a
target that was read and then rewritten, and such targets are well formed; a rewrite
that would make another text stops the request.

Main results:

- `Actions.reachable_changeRequest`: actions make targets that can come about.
- `Target.isSafe_forwardedPath`: a well-formed target is asked for with a safe text.
- `Course.requestLine_run`: no exchange forwards a text that is not safe.
-/

namespace FaultInjection

/-! ## Targets of changed requests -/

/-- Actions make a target that can come about. -/
theorem Actions.reachable_changeRequest {actions : Actions} {request changed : Request}
    (h : Target.Reachable request.target) (hchange : actions.changeRequest request = .ok changed) :
    Target.Reachable changed.target := by
  obtain ⟨⟨extended, placed, hquery, hpath, hparameters⟩, -⟩ := parts_of_changeRequest hchange
  exact ((h.appended _ hquery).pathReplaced _ hpath).parametersReplaced _ hparameters

/-- A request that the rules let pass has a target that can come about. -/
theorem Intake.reachable_onRequest {intake : Intake} {body : Bytes} {request : Request}
    (h : Target.Reachable intake.target) (hpassed : (intake.onRequest body).result = .ok request) :
    Target.Reachable request.target := by
  rw [onRequest, Rule.result_onRequest] at hpassed
  cases hrule : (Rule.forRequest intake.rules intake.port (intake.request body)).head? with
  | none =>
      rw [hrule] at hpassed
      cases hpassed
      exact h
  | some rule =>
      rw [hrule] at hpassed
      exact Actions.reachable_changeRequest h hpassed

/-! ## Texts on request lines -/

/-- A well-formed target is asked for with a text that may stand on a request line. -/
theorem Target.isSafe_forwardedPath {t : Target} (ht : t.IsWellFormed) :
    PathAndQuery.IsSafe t.forwardedPath := by
  unfold forwardedPath
  cases hp : t.pathAndQuery with
  | none =>
      refine PathAndQuery.isSafe_text ⟨.inr ⟨⟨[], rfl⟩, by decide⟩, ?_⟩
      simp
  | some p => exact PathAndQuery.isSafe_text (ht.pathAndQuery p hp)

namespace Exchange

namespace Course

/-- The targets that reading and rewriting make are well formed.  Hence no exchange, whatever
request arrives and whatever the rules are, forwards a text that may not stand on a request
line. -/
theorem requestLine_run [Domain.Mapping] :
    (∀ t, Target.Reachable t → t.IsWellFormed) ∧
    ∀ (id : Nat) (start : Number) (config : Config) (arrival : Arrival) (client : Client)
      (trace : List (Number × Event)),
      ∀ message ∈ ((Course.start id start (.ok config) arrival client).run trace).forwards,
        PathAndQuery.IsSafe message.path := by
  refine ⟨fun t => Target.isWellFormed_of_reachable, ?_⟩
  intro id start config arrival client trace message hmessage
  rcases forwards_run id start config arrival client trace with
    hnone | ⟨intake, request, htake, hforwards, body, -, hpassed⟩
  · rw [hnone] at hmessage
    cases hmessage
  · rw [hforwards, List.mem_singleton] at hmessage
    have hread : Target.Reachable intake.target := .read (settled_of_takeIn htake).1
    rw [hmessage]
    exact Target.isSafe_forwardedPath
      (Target.isWellFormed_of_reachable (Intake.reachable_onRequest hread hpassed))

/-! ## A parameter that holds the end of a line -/

/-- A rule that leads requests elsewhere, with a parameter that holds the end of a line. -/
def detour : Config where
  listenPort := 58080
  proxyPorts := [80]
  rules := [{
    name := "detour"
    side := .request
    selector := {}
    actions := {
      append := some { query := some "q=1" }
      replace := some { path := some "/b", parameters := some [("r", "x y\r\n")] } } }]

/-- A request with a query. -/
def queryRequest : Arrival := { target := some "http://h/a?p=0" }

/-- The target that is read is well formed, and the rewritten one is asked for on one line. -/
theorem requestLine_run_detour :
    (∃ t, Target.parse "http://h/a?p=0" = .ok t ∧ Target.Reachable t ∧ t.IsWellFormed) ∧
    ∃ message ∈ ((Course.start 1 0 (.ok detour) queryRequest {}).run [(0, .requestEnd)]).forwards,
      message.path = "/b?p=0&q=1&r=x+y%0D%0A" ∧ PathAndQuery.IsSafe message.path := by
  obtain ⟨t, hparse⟩ : ∃ t, Target.parse "http://h/a?p=0" = .ok t :=
    ⟨⟨some "http", some "h", some ⟨"/a", some "p=0"⟩⟩, by rfl⟩
  obtain ⟨message, hmessage, hpath⟩ : ∃ message ∈
      ((Course.start 1 0 (.ok detour) queryRequest {}).run [(0, .requestEnd)]).forwards,
      message.path = "/b?p=0&q=1&r=x+y%0D%0A" := by
    decide +kernel
  refine ⟨⟨t, hparse, .read hparse, ?_⟩, message, hmessage, hpath, ?_⟩
  · exact requestLine_run.1 t (.read hparse)
  · exact requestLine_run.2 1 0 detour queryRequest {} [(0, .requestEnd)] message hmessage

end Course

end Exchange

end FaultInjection
