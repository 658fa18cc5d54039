import FaultInjection.Proofs.Config.Delays
import FaultInjection.Proofs.Delay.Steps
import FaultInjection.Proofs.Exchange.Timers
import FaultInjection.Proofs.Proxy.Moment
import FaultInjection.Proofs.RuleSource.Session

/-!
# Proxies - Lengths of timers

No configuration that is loaded has a negative delay.  The rules that an exchange goes by come
from a configuration, and the timers that it sets from the delays of its rules, so that no timer
is set for less than no time.

Main definitions:

- `Rule.NoneNegative`, `Exchange.NoneNegative` and `Proxy.NoneNegative`, the absence of negative
  delays.
- `Exchange.Proceeds`, what a step of an exchange keeps and how long its timers run.

Main results:

- `Config.noneNegative_of_load`: no configuration that is loaded has a negative delay.
- `Exchange.proceeds_next`: what one step of an exchange keeps.
- `Proxy.noneNegative_attend`: what each moment keeps.
-/

namespace FaultInjection

/-! ## Delays that are not negative -/

/-- No delay of some rules is negative. -/
def Rule.NoneNegative (rules : List Rule) : Prop :=
  ∀ rule ∈ rules, ∀ delay ∈ rule.actions.delay, delay.IsNonneg

/-- A configuration that is read from a document has no negative delay. -/
theorem Config.noneNegative_of_ofDocument {document : Option Document} {file : Option String}
    {config : Config} (h : ofDocument document file = .ok config) :
    Rule.NoneNegative config.rules := by
  intro rule hrule delay hdelay
  have hread := Schema.hasRulesOf_of_config (Schema.ofDocument_eq_ok_iff.1 h)
  obtain ⟨index, hindex⟩ := List.mem_iff_getElem?.1 hrule
  obtain ⟨hless, -⟩ := List.getElem?_eq_some_iff.1 hindex
  obtain ⟨d, hd⟩ : ∃ d, (Document.rules document)[index]? = some d :=
    ⟨_, List.getElem?_eq_getElem (hread.length_eq ▸ hless)⟩
  obtain ⟨hamount, hinfinite⟩ :=
    Rule.hasDelayOf_of_isReadFrom (hread.isReadFrom index rule d hindex hd)
  by_cases hover : d.DelayOverflows
  · rw [hinfinite hover] at hdelay
    exact .inr (Option.some.inj hdelay).symm
  · exact .inl (hamount.2 hover delay hdelay)

/-- A configuration that is loaded from a file has no negative delay. -/
theorem Config.noneNegative_of_load {files : Files} {path : String} {config : Config}
    (h : load files path = .ok config) : Rule.NoneNegative config.rules := by
  unfold load at h
  split at h
  · unfold ofText at h
    split at h
    · exact noneNegative_of_ofDocument h
    · cases h
  · cases h

/-- A rule that decides holds a message back for a delay of its own. -/
theorem Rule.isNonneg_delay_onRequest {rules : List Rule} (hrules : NoneNegative rules)
    {port : Number} {request : Request} {time : Number}
    (h : (onRequest rules port request).delay = some time) : time.IsNonneg := by
  unfold onRequest at h
  split at h
  · cases h
  · rename_i rule hrule
    exact hrules rule (List.mem_of_find?_eq_some hrule) time h

theorem Rule.isNonneg_delay_onResponse {rules : List Rule} (hrules : NoneNegative rules)
    {inbound : Inbound} {response : Response} {time : Number}
    (h : (onResponse rules inbound response).delay = some time) : time.IsNonneg := by
  unfold onResponse at h
  split at h
  · cases h
  · rename_i rule hrule
    exact hrules rule (List.mem_of_find?_eq_some hrule) time h

/-- A timer for the next step of a time that is not negative runs for no less than no time. -/
theorem Delay.isNonneg_of_timer?_arm {time step : Number} (h : time.IsNonneg)
    (hstep : (arm time).timer? = some step) : step.IsNonneg := by
  cases hstep
  exact h.min (longestStep_eq ▸ Number.isNonneg_finite _)

/-- Nor does a later timer of a delay run for less, whatever remains of it. -/
theorem Delay.isNonneg_of_timer?_next {delay : Delay} {step : Number}
    (hstep : (delay.next .fired).timer? = some step) : step.IsNonneg := by
  cases delay with
  | waiting before remaining =>
      rw [next] at hstep
      split at hstep
      · rename_i hmore
        exact isNonneg_of_timer?_arm (Number.isNonneg_of_zero_lt hmore) hstep
      · cases hstep
  | elapsed => cases hstep
  | cancelled cause => cases hstep

namespace Exchange

/-! ## One step -/

/-- An exchange that goes on does so with what is settled about its request, and it sets no timer
for less than no time. -/
structure Proceeds (intake : Intake) (outcome : Outcome) : Prop where
  settled : ∀ other stage, outcome.1.state = .active other stage → other = intake
  timers : ∀ milliseconds, .setTimer milliseconds ∈ outcome.2 → milliseconds.IsNonneg

section Steps

variable {x : Exchange} {now : Number} {intake : Intake}

/-- An exchange that asks for nothing about timers sets none. -/
theorem not_mem_of_timings_eq_nil {effects : List Effect} (h : timings effects = [])
    (milliseconds : Number) : .setTimer milliseconds ∉ effects := by
  rw [← setTimer_mem_timings_iff, h]
  exact List.not_mem_nil

/-- What an exchange asks for besides timers makes no difference. -/
theorem Proceeds.prepend {outcome : Outcome} (h : Proceeds intake outcome) {before : List Effect}
    (hbefore : ∀ milliseconds, .setTimer milliseconds ∉ before) :
    Proceeds intake (outcome.1, before ++ outcome.2) := by
  refine ⟨h.settled, fun milliseconds hmem => ?_⟩
  rcases List.mem_append.1 hmem with hfirst | hlater
  · exact absurd hfirst (hbefore milliseconds)
  · exact h.timers milliseconds hlater

/-- An exchange that has ended sets no timer. -/
theorem proceeds_of_ended {outcome : Outcome} (hstate : outcome.1.state = .ended)
    (htimings : timings outcome.2 = []) : Proceeds intake outcome := by
  refine ⟨fun other stage hactive => ?_, fun milliseconds hmem => ?_⟩
  · rw [hstate] at hactive
    cases hactive
  · exact absurd hmem (not_mem_of_timings_eq_nil htimings milliseconds)

theorem proceeds_fail (x : Exchange) (now : Number) (intake : Intake) (failure : Failure) :
    Proceeds intake (x.fail now intake failure) :=
  proceeds_of_ended (state_fail ..) (timings_fail ..)

/-- A request that is held back has the timer of its delay. -/
theorem proceeds_holdRequest (held : Held Request) {delay : Delay}
    (h : ∀ step, delay.timer? = some step → step.IsNonneg) :
    Proceeds intake (x.holdRequest now intake held delay) := by
  cases delay with
  | waiting step remaining =>
      refine ⟨fun other stage hactive => ?_, fun milliseconds hmem => ?_⟩
      · cases hactive
        rfl
      · cases List.mem_singleton.1 hmem
        exact h step rfl
  | elapsed =>
      have htimings : timings (x.holdRequest now intake held .elapsed).2 = [] :=
        (x.idles_holdRequest now intake held rfl).2
      refine ⟨fun other stage hactive => ?_, fun milliseconds hmem => ?_⟩
      · simp only [holdRequest, releaseRequest, forward] at hactive
        split at hactive
        · rw [state_fail] at hactive
          cases hactive
        · cases hactive
          rfl
      · exact absurd hmem (not_mem_of_timings_eq_nil htimings milliseconds)
  | cancelled cause => exact x.proceeds_fail now intake (.cause cause)

/-- A response that is held back has the timer of its delay. -/
theorem proceeds_holdResponse (request : Request) (held : Held Response) {delay : Delay}
    (h : ∀ step, delay.timer? = some step → step.IsNonneg) :
    Proceeds intake (x.holdResponse now intake request held delay) := by
  cases delay with
  | waiting step remaining =>
      refine ⟨fun other stage hactive => ?_, fun milliseconds hmem => ?_⟩
      · cases hactive
        rfl
      · cases List.mem_singleton.1 hmem
        exact h step rfl
  | elapsed =>
      exact proceeds_of_ended (state_releaseResponse ..)
        (x.idles_holdResponse now intake request held rfl).2
  | cancelled cause => exact x.proceeds_fail now intake (.cause cause)

/-- The first timer of a message runs for no less than no time, if the delay of its rule does. -/
theorem isNonneg_of_timer?_firstDelay {time : Option Number}
    (h : ∀ milliseconds, time = some milliseconds → milliseconds.IsNonneg) {step : Number}
    (hstep : (firstDelay x time).timer? = some step) : step.IsNonneg := by
  cases time with
  | none => cases hstep
  | some milliseconds =>
      cases hgiven : x.givenUp? with
      | none =>
          rw [firstDelay, hgiven] at hstep
          exact Delay.isNonneg_of_timer?_arm (h milliseconds rfl) hstep
      | some cause =>
          rw [firstDelay, hgiven] at hstep
          cases hstep

variable (hrules : Rule.NoneNegative intake.rules)

include hrules

theorem proceeds_judgeRequest (body : Bytes) :
    Proceeds intake (x.judgeRequest now intake body) := by
  rw [judgeRequest_eq]
  cases (intake.onRequest body).result with
  | error failure => exact (x.proceeds_fail now intake failure).prepend (by simp)
  | ok message =>
      refine (proceeds_holdRequest _ fun step hstep => ?_).prepend (by simp)
      exact isNonneg_of_timer?_firstDelay (fun _ h => Rule.isNonneg_delay_onRequest hrules h) hstep

theorem proceeds_judgeResponse (request : Request) (response : Response) :
    Proceeds intake (x.judgeResponse now intake request response) := by
  rw [judgeResponse_eq]
  cases (intake.onResponse response).result with
  | error failure => exact (x.proceeds_fail now intake failure).prepend (by simp)
  | ok message =>
      refine (proceeds_holdResponse request _ fun step hstep => ?_).prepend (by simp)
      exact isNonneg_of_timer?_firstDelay (fun _ h => Rule.isNonneg_delay_onResponse hrules h) hstep

/-- Each step of an exchange proceeds. -/
theorem proceeds_next {stage : Stage} (hstate : x.state = .active intake stage) (event : Event) :
    Proceeds intake (x.next now event) := by
  have hgone : ∀ (delay : Delay) (step : Number),
      (delay.next (.cancelled delayGivenUp)).timer? = some step → step.IsNonneg := by
    intro delay step hstep
    rw [delay.timer?_next_cancelled] at hstep
    cases hstep
  have hdrop : ∀ milliseconds, .setTimer milliseconds ∉ [Effect.dropTimer] := by simp
  have hgoesOn : ∀ (other : Exchange) (later : Stage), other.state = .active intake later →
      Proceeds intake (other, []) := by
    intro other later hlater
    refine ⟨fun found at' hactive => ?_, nofun⟩
    rw [hlater] at hactive
    cases hactive
    rfl
  simp only [next, hstate]
  cases stage with
  | readingRequest body =>
      cases event with
      | requestEnd => exact proceeds_judgeRequest hrules body
      | requestFailed cause => exact x.proceeds_fail now intake (.cause cause)
      | requestClosed => exact x.proceeds_fail now intake (.cause incomplete)
      | _ => exact hgoesOn _ _ (by first | rfl | exact hstate)
  | holdingRequest held delay =>
      cases event with
      | timerFired => exact proceeds_holdRequest held fun _ => Delay.isNonneg_of_timer?_next
      | clientLeft => exact (proceeds_holdRequest held (hgone delay)).prepend hdrop
      | _ => exact hgoesOn _ _ hstate
  | awaitingResponse request =>
      cases event with
      | forwardingFailed cause => exact x.proceeds_fail now intake (.cause cause)
      | clientLeft =>
          exact proceeds_fail { x with abandoned := true } now intake (.cause forwardingGivenUp)
      | _ => exact hgoesOn _ _ (by first | rfl | exact hstate)
  | readingResponse request status headers body =>
      cases event with
      | forwardingFailed cause => exact x.proceeds_fail now intake (.cause cause)
      | responseClosed => exact x.proceeds_fail now intake (.cause incomplete)
      | responseEnd => exact proceeds_judgeResponse hrules request _
      | clientLeft =>
          exact proceeds_fail { x with abandoned := true } now intake (.cause forwardingGivenUp)
      | _ => exact hgoesOn _ _ (by first | rfl | exact hstate)
  | holdingResponse request held delay =>
      cases event with
      | timerFired =>
          exact proceeds_holdResponse request held fun _ => Delay.isNonneg_of_timer?_next
      | clientLeft => exact (proceeds_holdResponse request held (hgone delay)).prepend hdrop
      | _ => exact hgoesOn _ _ hstate

end Steps

/-- No delay of the rules that an exchange goes by is negative. -/
def NoneNegative (x : Exchange) : Prop :=
  ∀ intake stage, x.state = .active intake stage → Rule.NoneNegative intake.rules

/-- A step keeps to rules without negative delays, and sets no timer for less than no time. -/
theorem noneNegative_next {x : Exchange} (h : x.NoneNegative) (now : Number) (event : Event) :
    (x.next now event).1.NoneNegative ∧
      ∀ milliseconds, .setTimer milliseconds ∈ (x.next now event).2 → milliseconds.IsNonneg := by
  cases hstate : x.state with
  | active intake stage =>
      have hproceeds : Proceeds intake (x.next now event) :=
        proceeds_next (h intake stage hstate) hstate event
      refine ⟨fun other later hactive => ?_, hproceeds.timers⟩
      rw [hproceeds.settled other later hactive]
      exact h intake stage hstate
  | ended =>
      rw [next_ended x now event hstate]
      exact ⟨h, nofun⟩

/-- An exchange that has ended goes by no rules. -/
theorem noneNegative_of_ended {x : Exchange} (h : x.state = .ended) : x.NoneNegative := by
  intro intake stage hactive
  rw [h] at hactive
  cases hactive

/-- An exchange that starts goes by rules of the configuration, and sets no timer. -/
theorem noneNegative_start [Domain.Mapping] (id : Nat) (now : Number)
    {config : Except String Config} (arrival : Arrival) (client : Client)
    (h : ∀ found, config = .ok found → Rule.NoneNegative found.rules) :
    (start id now config arrival client).1.NoneNegative ∧
      ∀ milliseconds, .setTimer milliseconds ∉ (start id now config arrival client).2 := by
  refine ⟨?_, not_mem_of_timings_eq_nil (idles_start now id config arrival client).2⟩
  simp only [start]
  split
  · exact noneNegative_of_ended (state_refuse ..)
  · exact noneNegative_of_ended rfl
  · rename_i settled found htaken
    have hrules : settled.rules = rulesFor found settled.destination :=
      (settled_of_takeIn htaken).2.2.2
    intro intake stage hactive rule hrule
    cases hactive
    rw [hrules, rulesFor, Config.rulesFor] at hrule
    split at hrule
    · exact h found rfl rule hrule
    · cases hrule

end Exchange

/-! ## A proxy -/

/-- No delay of a rule that is in force, or that an exchange goes by, is negative. -/
structure Proxy.NoneNegative (p : Proxy) : Prop where
  config : ∀ config ∈ p.source.config, Rule.NoneNegative config.rules
  exchanges : ∀ x ∈ p.exchanges, x.NoneNegative

namespace RuleSource

variable {s : RuleSource} {files : Files} {config : Config}

/-- A configuration in force after a load was so before, or it is what the file holds. -/
theorem config_reload (h : (s.reload files).source.config = some config) :
    s.config = some config ∨ Config.load files s.path = .ok config := by
  unfold reload at h
  split at h
  · rename_i loaded hload
    cases h
    exact .inr hload
  · exact .inl h

end RuleSource

namespace Proxy

/-- What happens apart from the exchanges puts no negative delay in force. -/
theorem noneNegative_keepUp {p : Proxy} (h : p.NoneNegative) (files : Files) (what : Upkeep) :
    (p.keepUp files what).NoneNegative := by
  have hreload : ∀ config ∈ (p.source.reload files).source.config,
      Rule.NoneNegative config.rules := by
    intro config hconfig
    rcases RuleSource.config_reload hconfig with hold | hload
    · exact h.config config hold
    · exact Config.noneNegative_of_load hload
  refine ⟨?_, fun x hx => h.exchanges x ((p.kept_keepUp files what).exchanges ▸ hx)⟩
  cases what with
  | administered method path =>
      simp only [keepUp]
      cases hasks : Admin.asksReload method path with
      | true =>
          rw [Admin.handle_of_asksReload hasks]
          exact hreload
      | false =>
          rw [(Admin.handle_of_not_asksReload hasks).1]
          exact h.config
  | reloaded => exact hreload
  | sourceStarted watch =>
      simp only [keepUp, RuleSource.start]
      split
      · split <;> exact hreload
      · exact hreload
  | sourceStopped => exact h.config
  | fileEvent watcher event =>
      simp only [keepUp, RuleSource.fileEvent]
      split
      · exact hreload
      · exact h.config

/-- No moment puts a negative delay in force, and no timer is set for less than no time. -/
theorem noneNegative_attend [Domain.Mapping] {p : Proxy} (h : p.NoneNegative) (m : Moment) :
    (p.attend m).1.NoneNegative ∧
      ∀ id milliseconds, (id, .setTimer milliseconds) ∈ (p.attend m).2 →
        milliseconds.IsNonneg := by
  cases p.attends m with
  | started arrival client hm =>
      rw [p.attend_arrived hm]
      have hcurrent : ∀ found, p.source.current = .ok found → Rule.NoneNegative found.rules := by
        intro found hfound
        refine h.config found ?_
        unfold RuleSource.current at hfound
        split at hfound
        · rename_i config hconfig
          cases hfound
          exact hconfig
        · cases hfound
      obtain ⟨hstart, htimers⟩ := Exchange.noneNegative_start (p.history.lastId + 1) m.time arrival
        client hcurrent
      refine ⟨⟨h.config, fun x hx => ?_⟩, fun id milliseconds hmem => ?_⟩
      · rcases List.mem_append.1 hx with hold | hnew
        · exact h.exchanges x hold
        · rw [List.mem_singleton.1 hnew]
          exact hstart
      · obtain ⟨effect, heffect, heq⟩ := List.mem_map.1 hmem
        cases heq
        exact absurd heffect (htimers milliseconds)
  | stepped id event x hm hx =>
      rw [p.attend_told hm hx]
      obtain ⟨hnext, htimers⟩ :=
        Exchange.noneNegative_next (h.exchanges x (List.mem_of_find?_eq_some hx)) m.time event
      refine ⟨⟨h.config, fun y hy => ?_⟩, fun other milliseconds hmem => ?_⟩
      · obtain ⟨old, hold, rfl⟩ := List.mem_map.1 hy
        split
        · exact hnext
        · exact h.exchanges old hold
      · obtain ⟨effect, heffect, heq⟩ := List.mem_map.1 hmem
        cases heq
        exact htimers milliseconds heffect
  | rested hm hx q hkept hattend =>
      cases hwhat : m.what with
      | arrived arrival client => exact absurd hwhat (hm arrival client)
      | told id event =>
          simp only [attend, hwhat, deliver, hx id event hwhat]
          exact ⟨h, fun _ _ hmem => absurd hmem List.not_mem_nil⟩
      | upkeep what =>
          simp only [attend, hwhat]
          exact ⟨noneNegative_keepUp h m.files what,
            fun _ _ hmem => absurd hmem List.not_mem_nil⟩

end Proxy

end FaultInjection
