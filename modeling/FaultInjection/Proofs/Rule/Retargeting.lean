import FaultInjection.Proofs.Rule.Changes
import FaultInjection.Proofs.Target.Steps
import FaultInjection.Proofs.Trial

/-!
# Rules - What becomes of the target of a request

Actions append a fragment to the query of a request, replace its path and write parameters
over those of the query, in this order.  Each rewrite works on what the one before it made:
the parameters that are written last lie over those of the fragment, and these over those of
the request.  A target that a rewrite cannot make stops the request.

Main definitions:

- `Actions.fragment?`, `Actions.path?` and `Actions.parameters?`, what actions have for a target.
- `Actions.Retargets`, for the target that a request has afterwards.
- `Actions.FailsOn`, for a target that cannot be rewritten.

Main results:

- `Actions.retargets_of_newTarget`: the target after all three rewrites.
- `Actions.retargets_onRequest`: what becomes of a request whose target was read.
-/

namespace FaultInjection

namespace Actions

variable {actions : Actions} {t u : Target}

/-! ## Rewritten targets -/

/-- The fragment that actions append to a query; an empty one is none. -/
def fragment? (actions : Actions) : Option String :=
  (actions.append.bind Additions.query).bind Target.nonempty?

/-- The path that actions put in place of another; an empty one is the root. -/
def path? (actions : Actions) : Option String :=
  (actions.replace.bind Replacements.path).map Target.orRoot

/-- The parameters that actions write over those of a query. -/
def parameters? (actions : Actions) : Option Parameters :=
  actions.replace.bind Replacements.parameters

/-- What actions make of the target of a request. -/
structure Retargets (actions : Actions) (t u : Target) : Prop where
  scheme : u.scheme = t.scheme
  authority : u.authority = t.authority
  /-- An authority alone stays as it is. -/
  authorityForm : t.isAuthorityForm = true → u = t
  /-- The path is that of the actions, or else the old one.  Where there was none, it is the root
  if there is something to put into the query. -/
  path : t.isAuthorityForm = false → u.path? = actions.path?.or
    (t.path?.or (if actions.fragment?.isSome || actions.parameters?.isSome then some "/" else none))
  /-- Without parameters to write the fragment goes behind the old query. -/
  query : t.isAuthorityForm = false → actions.parameters? = none →
    u.query? = Target.joinedQuery? t.query? actions.fragment?
  /-- Parameters are written over those of the fragment, and these over those of the old query. -/
  parameters : t.isAuthorityForm = false → ∀ written, actions.parameters? = some written →
    ∃ own added, Parameters.decode (t.query?.getD "") = .ok own ∧
      Parameters.decode (actions.fragment?.getD "") = .ok added ∧
      Parameters.decode (u.query?.getD "") = .ok ((own.overlay added).overlay written)

/-- The first rewrite that cannot be made of a target, after those before it, fails with a fault. -/
inductive FailsOn (actions : Actions) (t : Target) (fault : TargetFault) : Prop
  | append (h : t.appendQuery (actions.append.bind Additions.query) = .error fault) :
      FailsOn actions t fault
  | path {extended : Target}
      (happend : t.appendQuery (actions.append.bind Additions.query) = .ok extended)
      (h : extended.replacePath (actions.replace.bind Replacements.path) = .error fault) :
      FailsOn actions t fault
  | parameters {extended placed : Target}
      (happend : t.appendQuery (actions.append.bind Additions.query) = .ok extended)
      (hpath : extended.replacePath (actions.replace.bind Replacements.path) = .ok placed)
      (h : placed.replaceParameters (actions.replace.bind Replacements.parameters) =
        .error fault) : FailsOn actions t fault

/-- A target cannot be rewritten where one of the rewrites fails. -/
theorem newTarget_eq_error_iff {fault : TargetFault} :
    actions.newTarget t = .error fault ↔ FailsOn actions t fault := by
  simp only [newTarget, bind_eq_error_iff]
  constructor
  · rintro (h | ⟨extended, happend, h | ⟨placed, hpath, h⟩⟩)
    · exact .append h
    · exact .path happend h
    · exact .parameters happend hpath h
  · rintro (h | ⟨happend, h⟩ | ⟨happend, hpath, h⟩)
    · exact .inl h
    · exact .inr ⟨_, happend, .inl h⟩
    · exact .inr ⟨_, happend, .inr ⟨_, hpath, h⟩⟩

/-- An authority alone that can be rewritten stays as it is. -/
theorem eq_of_newTarget (hform : t.isAuthorityForm = true) (h : actions.newTarget t = .ok u) :
    u = t := by
  obtain ⟨extended, placed, happend, hpath, hparameters⟩ := newTarget_eq_ok_iff.1 h
  obtain rfl := Target.eq_of_isAuthorityForm hform (Target.eq_or_of_appendQuery happend)
  obtain rfl := Target.eq_of_isAuthorityForm hform (Target.eq_or_of_replacePath hpath)
  exact Target.eq_of_isAuthorityForm hform (Target.eq_or_of_replaceParameters hparameters)

/-- A target other than an authority alone, after the fragment and the path. -/
def Placed (actions : Actions) (t placed : Target) : Prop :=
  Target.MovedTo t placed (actions.path?.or (t.path?.or (actions.fragment?.map fun _ => "/")))
    (Target.joinedQuery? t.query? actions.fragment?)

/-- The fragment and the path are put into a target other than an authority alone. -/
theorem placed_of_replacePath {extended placed : Target} (ht : Target.Reachable t)
    (hform : t.isAuthorityForm = false)
    (happend : t.appendQuery (actions.append.bind Additions.query) = .ok extended)
    (hpath : extended.replacePath (actions.replace.bind Replacements.path) = .ok placed) :
    Placed actions t placed := by
  have hextended := Target.movedTo_of_appendQuery (Target.isWellFormed_of_reachable ht) happend
  have hplaced := Target.movedTo_of_replacePath (.appended _ ht happend)
    (hextended.isAuthorityForm_eq.trans hform) hpath
  constructor
  · rw [hplaced.scheme, hextended.scheme]
  · rw [hplaced.authority, hextended.authority]
  · rw [hplaced.path, hextended.path]
    rfl
  · rw [hplaced.query, hextended.query]
    rfl

/-- Without parameters to write the target is one after the fragment and the path. -/
theorem Placed.retargets {placed : Target} (h : Placed actions t placed)
    (hform : t.isAuthorityForm = false) (hnone : actions.parameters? = none) :
    Retargets actions t placed where
  scheme := h.scheme
  authority := h.authority
  authorityForm hauthority := by simp [hform] at hauthority
  path _ := by
    rw [h.path, hnone]
    cases actions.fragment? <;> simp
  query _ _ := h.query
  parameters _ written hwritten := by simp [hnone] at hwritten

/-- Parameters are written over those of the fragment, and these over those of the query. -/
theorem Placed.retargets_of_replaceParameters {placed : Target} {written : Parameters}
    (h : Placed actions t placed) (hplaced : placed.IsWellFormed)
    (hform : t.isAuthorityForm = false) (hwritten : actions.parameters? = some written)
    (hu : placed.replaceParameters (some written) = .ok u) : Retargets actions t u := by
  obtain ⟨whole, hwhole, hmoved⟩ := Target.movedTo_of_replaceParameters hplaced hu
  rw [h.query] at hwhole
  obtain ⟨own, hown, added, hadded, rfl⟩ := Target.decode_joinedQuery?_eq_ok_iff.1 hwhole
  -- What is written is read again as it is, since each key occurs in it once.
  have hkeys : ((own.overlay added).overlay written).keys.Nodup :=
    QueryBytes.nodup_keys_overlay
      (QueryBytes.nodup_keys_of_decode? (Parameters.decode_eq_ok_iff.1 hwhole)) written
  constructor
  · exact hmoved.scheme.trans h.scheme
  · exact hmoved.authority.trans h.authority
  · simp [hform]
  · intro _
    rw [hmoved.path, h.path, hwritten]
    cases actions.path? <;> cases t.path? <;> cases actions.fragment? <;> simp
  · simp [hwritten]
  · intro _ other hother
    obtain rfl : written = other := Option.some.inj (hwritten.symm.trans hother)
    refine ⟨own, added, hown, hadded, ?_⟩
    rw [hmoved.query, Target.getD_nonempty?, Parameters.decode_eq_ok_iff,
      Parameters.decode?_encode hkeys]

/-- The target of a request after all three rewrites. -/
theorem retargets_of_newTarget (ht : Target.Reachable t) (h : actions.newTarget t = .ok u) :
    Retargets actions t u := by
  cases hform : t.isAuthorityForm with
  | true =>
      obtain rfl := eq_of_newTarget hform h
      exact ⟨rfl, rfl, fun _ => rfl, by simp [hform], by simp [hform], by simp [hform]⟩
  | false =>
      obtain ⟨extended, placed, happend, hpath, hparameters⟩ := newTarget_eq_ok_iff.1 h
      have hplaced := placed_of_replacePath ht hform happend hpath
      have hreachable : Target.Reachable placed := .pathReplaced _ (.appended _ ht happend) hpath
      change placed.replaceParameters actions.parameters? = .ok u at hparameters
      cases hwritten : actions.parameters? with
      | none =>
          rw [hwritten] at hparameters
          obtain rfl := Except.ok.inj hparameters
          exact hplaced.retargets hform hwritten
      | some written =>
          rw [hwritten] at hparameters
          exact hplaced.retargets_of_replaceParameters
            (Target.isWellFormed_of_reachable hreachable) hform hwritten hparameters

/-! ## Requests -/

/-- The result of actions that do not drop a request is that of the rewrites of its target. -/
theorem result_onRequest_of_newTarget (request : Request) (habort : actions.abort = false) :
    (actions.onRequest request).result =
      match actions.newTarget request.target with
      | .error fault => .error (.target fault)
      | .ok target => .ok (actions.newRequest request target) := by
  change actions.changeRequest request = _
  rw [changeRequest_eq, habort]
  rfl

/-- What becomes of a request whose target was read, under actions that do not drop it.  If it
comes out, its target is rewritten, and its method and body are those of the actions or else its
own.  It ends in an ill-formed target exactly where one of the rewrites fails. -/
theorem retargets_onRequest {raw : String} {request : Request}
    (hparse : Target.parse raw = .ok request.target) (habort : actions.abort = false)
    (plan : Cancellation) (threshold : Log.Level) (trial : Trial) :
    (∀ changed, (trial.carryOut plan threshold (actions.onRequest request)).2 = .ok changed →
      Retargets actions request.target changed.target ∧
      changed.method = (actions.replace.bind Replacements.method).getD request.method ∧
      changed.body = (actions.replace.bind Replacements.body).getD request.body) ∧
    (∀ fault, (trial.carryOut plan threshold (actions.onRequest request)).2 =
      .error (.failed (.target fault)) ↔ FailsOn actions request.target fault) ∧
    (actions.delay = none → (∀ fault, ¬ FailsOn actions request.target fault) →
      ∃ changed, (trial.carryOut plan threshold (actions.onRequest request)).2 = .ok changed) := by
  have hresult := result_onRequest_of_newTarget request habort
  refine ⟨fun changed hchanged => ?_, fun fault => ?_, fun hdelay hnone => ?_⟩
  · have hchange : actions.changeRequest request = .ok changed :=
      Trial.result_of_carryOut plan threshold trial hchanged
    obtain ⟨-, target, htarget, rfl⟩ := changeRequest_eq_ok_iff.1 hchange
    exact ⟨retargets_of_newTarget (.read hparse) htarget, rfl, rfl⟩
  · rw [Trial.carryOut_eq_target_iff, hresult, ← newTarget_eq_error_iff]
    cases actions.newTarget request.target <;> simp
  · cases htarget : actions.newTarget request.target with
    | error fault => exact absurd (newTarget_eq_error_iff.1 htarget) (hnone fault)
    | ok target =>
        rw [htarget] at hresult
        exact ⟨_, Trial.carryOut_of_delay_eq_none plan threshold trial hdelay hresult⟩

/-- A target without a path is given the root, and parameters are written over a fragment. -/
theorem retargets_onRequest_fragment :
    let actions : Actions := {
      append := some { query := some "a=1&b=%20" }
      replace := some {
        path := some "", method := some "POST", parameters := some [("b", "2"), ("c", "\u00e9")] } }
    let request : Request := ⟨"GET", ⟨some "http", some "h", none⟩, .empty, []⟩
    let target : Target := ⟨some "http", some "h", some ⟨"/", some "a=1&b=2&c=%C3%A9"⟩⟩
    Target.parse "http://h" = .ok request.target ∧ actions.abort = false ∧
      (∀ fault, ¬ FailsOn actions request.target fault) ∧
      ∀ plan threshold (trial : Trial),
        (trial.carryOut plan threshold (actions.onRequest request)).2 =
          .ok ⟨"POST", target, .empty, []⟩ ∧
        Retargets actions request.target target := by
  intro actions request target
  have hparse : Target.parse "http://h" = .ok request.target := by decide +kernel
  have hnew : actions.newTarget request.target = .ok target := by decide +kernel
  have hnone : ∀ fault, ¬ FailsOn actions request.target fault := by
    intro fault hfails
    rw [← newTarget_eq_error_iff, hnew] at hfails
    cases hfails
  have habort : actions.abort = false := rfl
  refine ⟨hparse, habort, hnone, fun plan threshold trial => ?_⟩
  obtain ⟨hout, -, hcomes⟩ := retargets_onRequest hparse habort plan threshold trial
  obtain ⟨changed, hchanged⟩ := hcomes rfl hnone
  have hsame : changed = ⟨"POST", target, .empty, []⟩ := by
    have hchange : actions.changeRequest request = .ok changed :=
      Trial.result_of_carryOut plan threshold trial hchanged
    obtain ⟨-, other, hother, rfl⟩ := changeRequest_eq_ok_iff.1 hchange
    rw [hnew] at hother
    obtain rfl := Except.ok.inj hother
    rfl
  subst hsame
  exact ⟨hchanged, (hout _ hchanged).1⟩

end Actions

end FaultInjection
