import FaultInjection.Proofs.Exchange.Destination
import FaultInjection.Proofs.Exchange.Timers
import FaultInjection.Proofs.Proxy.Accounting
import FaultInjection.Proofs.Proxy.Logbook

/-!
# Exchanges - Traffic outside of the ports

A configuration may name the destination ports that its rules are for.  An exchange with
another port goes as if there were no rules: nothing is held back, no rule cuts it off,
and neither the counts of a history nor its entries have anything to tell of rules.  With
no ports named, rules are for all of them.

Main definitions:

- `Config.Excludes` and `Config.Includes`, whether rules are for where a request goes.
- `Exchange.Unruled` and `Exchange.IsPlain`, an exchange without rules and what it asks for.
- `Course.WithoutRules`, a course that rules had no part in.

Main results:

- `Exchange.isPlain_next`: each step of an exchange without rules keeps it so.
- `Course.withoutRules_run`: no rule has a part in such an exchange.
- `Course.confined_to_ports`: rules have no say in where requests go, nor in exchanges outside
  of their ports.
-/

namespace FaultInjection

/-! ## Ports of a configuration -/

/-- A port of a destination is a number. -/
theorem Number.ofNat_ne_notANumber (n : Nat) : ofNat n ≠ notANumber := by
  simp only [ofNat, ofInt, ofQuotient, ofMagnitude]
  split <;> simp

/-- The rules are for a port that stands among the ports, or for every port where none does. -/
theorem Config.coversPort_iff (config : Config) (port : Nat) :
    config.coversPort (.ofNat port) = true ↔
      config.proxyPorts = [] ∨ .ofNat port ∈ config.proxyPorts := by
  have hsame : ∀ listed : Number, listed.same (.ofNat port) = true ↔ listed = .ofNat port := by
    intro listed
    rw [Number.same_eq_true_iff]
    exact ⟨fun h => h.1, fun h => ⟨h, h ▸ Number.ofNat_ne_notANumber port⟩⟩
  simp [coversPort, hsame]

/-- There are ports, and the one that the head of a request leads to is not among them. -/
def Config.Excludes [Domain.Mapping] (config : Config) (arrival : Arrival) : Prop :=
  config.proxyPorts ≠ [] ∧
    ∀ destination, arrival.destination? = some destination →
      .ofNat destination.port ∉ config.proxyPorts

/-- The port that the head of a request leads to is among the ports. -/
def Config.Includes [Domain.Mapping] (config : Config) (arrival : Arrival) : Prop :=
  ∀ destination, arrival.destination? = some destination →
    .ofNat destination.port ∈ config.proxyPorts

/-- There are no rules for a request outside of the ports. -/
theorem Config.Excludes.rulesFor_eq [Domain.Mapping] {config : Config} {arrival : Arrival}
    (h : config.Excludes arrival) {destination : Destination}
    (hdestination : arrival.destination? = some destination) :
    Exchange.rulesFor config destination = [] := by
  have hport : ¬ config.coversPort (.ofNat destination.port) = true := by
    rw [config.coversPort_iff]
    exact not_or.2 ⟨h.1, h.2 destination hdestination⟩
  rw [Exchange.rulesFor, Config.rulesFor, if_neg hport]

/-! ## What a history tells about rules -/

/-- How many rules were applied on each side, how many exchanges they ended, and which of them
stand in the entries. -/
structure History.RuleTraces where
  requestRulesApplied : Nat
  responseRulesApplied : Nat
  aborted : Nat
  named : List (Number × Option String × Option String)

/-- What a history tells about rules. -/
def History.ruleTraces (h : History) : History.RuleTraces where
  requestRulesApplied := h.tallies.requestRulesApplied
  responseRulesApplied := h.tallies.responseRulesApplied
  aborted := h.tallies.aborted
  named := h.entries.map fun pair => (pair.1, pair.2.requestRule, pair.2.responseRule)

namespace Exchange

/-! ## Effects that rules have no part in -/

/-- An effect that rules have no part in: a log entry, a request that goes out, or an end that is
not the doing of a rule and names none. -/
inductive Effect.IsPlain : Effect → Prop
  | log (entry : Log.Entry) : IsPlain (.log entry)
  | forward (message : Forwarded) : IsPlain (.forward message)
  | close {outcome : History.Outcome} {update : History.Update} (houtcome : outcome ≠ .aborted)
      (hrequest : update.requestRule = none) (hresponse : update.responseRule = none) :
      IsPlain (.close outcome update)

namespace Effect.IsPlain

variable {effect : Effect}

/-- Such an effect names no rule in the entry of its exchange. -/
theorem rules_revise (h : effect.IsPlain) (e : History.Entry) :
    (effect.revise e).requestRule = e.requestRule ∧
      (effect.revise e).responseRule = e.responseRule := by
  cases h with
  | log entry => exact ⟨rfl, rfl⟩
  | forward message => exact ⟨rfl, rfl⟩
  | close houtcome hrequest hresponse =>
      simp [Effect.revise, History.Update.apply, hrequest, hresponse]

/-- Such an effect leaves what a history tells about rules as it is. -/
theorem ruleTraces_record (h : effect.IsPlain) (id : Nat) (history : History) :
    (Proxy.record id history effect).ruleTraces = history.ruleTraces := by
  cases h with
  | log entry => rfl
  | forward message => rfl
  | @close outcome update houtcome hrequest hresponse =>
      have hrules := rules_revise (.close houtcome hrequest hresponse)
      have htallies : (Proxy.record id history (.close outcome update)).tallies =
          history.tallies.countEnd outcome := Chronicle.tallies_record ..
      simp only [History.ruleTraces, htallies, Proxy.entries_record, List.map_map]
      have hcounts : ∀ t : History.Tallies,
          (t.countEnd outcome).requestRulesApplied = t.requestRulesApplied ∧
            (t.countEnd outcome).responseRulesApplied = t.responseRulesApplied ∧
            (t.countEnd outcome).aborted = t.aborted := by
        intro t
        cases outcome with
        | aborted => exact absurd rfl houtcome
        | _ => exact ⟨rfl, rfl, rfl⟩
      obtain ⟨hrequests, hresponses, haborted⟩ := hcounts history.tallies
      rw [hrequests, hresponses, haborted]
      congr 1
      refine List.map_congr_left fun pair _ => ?_
      by_cases hkey : pair.1 = .whole id
      · simp [hkey, hrules]
      · simp [hkey]

/-- Such an effect is not about timers. -/
theorem isTiming_eq (h : effect.IsPlain) : effect.isTiming = false := by
  cases h <;> rfl

/-- Such an effect is no end by a rule. -/
theorem closing?_ne (h : effect.IsPlain) (update : History.Update) :
    effect.closing? ≠ some (.aborted, update) := by
  cases h with
  | log entry => nofun
  | forward message => nofun
  | close houtcome => exact fun heq => houtcome (congrArg Prod.fst (Option.some.inj heq))

end Effect.IsPlain

/-- Effects that rules have no part in name none in the entry of their exchange. -/
theorem rules_reviseAll {effects : List Effect} (h : ∀ effect ∈ effects, effect.IsPlain)
    (e : History.Entry) :
    (reviseAll e effects).requestRule = e.requestRule ∧
      (reviseAll e effects).responseRule = e.responseRule := by
  induction effects generalizing e with
  | nil => exact ⟨rfl, rfl⟩
  | cons effect rest ih =>
      obtain ⟨hfirst, hrest⟩ := List.forall_mem_cons.1 h
      obtain ⟨hrequest, hresponse⟩ := hfirst.rules_revise e
      obtain ⟨hrequests, hresponses⟩ := ih hrest (effect.revise e)
      exact ⟨hrequests.trans hrequest, hresponses.trans hresponse⟩

/-- Effects around one end are plain if the end is. -/
theorem RecordsOnce.isPlain {effects : List Effect} {ending : History.Outcome × History.Update}
    (h : RecordsOnce effects ending) (hend : (Effect.close ending.1 ending.2).IsPlain) :
    ∀ effect ∈ effects, effect.IsPlain := by
  obtain ⟨before, after, rfl⟩ := h
  intro effect hmem
  simp only [List.mem_append, List.mem_cons, List.mem_map] at hmem
  rcases hmem with ⟨entry, -, rfl⟩ | rfl | ⟨entry, -, rfl⟩
  · exact .log entry
  · exact hend
  · exact .log entry

/-! ## Exchanges without rules -/

/-- There are no rules for an exchange, and nothing is held back. -/
def Unruled (x : Exchange) : Prop :=
  match x.state with
  | .active _ (.holdingRequest ..) | .active _ (.holdingResponse ..) => False
  | .active intake _ => intake.rules = []
  | .ended => True

/-- An exchange goes on without rules, and asks for nothing that they have a part in. -/
def IsPlain (outcome : Outcome) : Prop :=
  outcome.1.Unruled ∧ ∀ effect ∈ outcome.2, effect.IsPlain

/-- An exchange that has ended has no rules any more. -/
theorem unruled_of_ended {x : Exchange} (h : x.state = .ended) : x.Unruled := by
  simp [Unruled, h]

/-- An exchange without rules may ask for nothing. -/
theorem Unruled.isPlain {x : Exchange} (h : x.Unruled) : IsPlain (x, []) :=
  ⟨h, List.forall_mem_nil _⟩

/-- One more effect that rules have no part in. -/
theorem IsPlain.cons {x : Exchange} {effects : List Effect} {effect : Effect}
    (h : IsPlain (x, effects)) (heffect : effect.IsPlain) : IsPlain (x, effect :: effects) :=
  ⟨h.1, List.forall_mem_cons.2 ⟨heffect, h.2⟩⟩

section Steps

variable {x : Exchange} (now : Number) {intake : Intake}

/-- A refusal is no matter of rules. -/
theorem isPlain_refuse (status : Number) (message : String) :
    IsPlain (x.refuse now status message) :=
  ⟨unruled_of_ended (state_refuse ..),
    (x.recordsOnce_refuse now status message).isPlain (.close (by simp) rfl rfl)⟩

/-- A failure is no matter of rules where the cause is another. -/
theorem isPlain_fail (cause : Cause) : IsPlain (x.fail now intake (.cause cause)) := by
  refine ⟨unruled_of_ended (state_fail ..), (x.recordsOnce_fail now intake _).isPlain ?_⟩
  cases hleft : x.abandoned with
  | true =>
      simp only [failureEnd, hleft]
      exact .close (by simp) rfl rfl
  | false =>
      simp only [failureEnd, hleft]
      exact .close (by simp) rfl rfl

/-- A request goes out without rules. -/
theorem isPlain_forward (hrules : intake.rules = []) (request : Request) :
    IsPlain (x.forward now intake request) := by
  simp only [forward]
  split
  · exact (isPlain_fail now _).cons (.forward _)
  · exact ⟨hrules, by simpa using .forward _⟩

/-- A request that is complete goes out as it is. -/
theorem judgeRequest_of_rules_nil (hrules : intake.rules = []) (body : Bytes) :
    x.judgeRequest now intake body = x.forward now intake (intake.request body) := by
  rw [judgeRequest, hrules]
  rfl

/-- A response that is complete is released as it is. -/
theorem judgeResponse_of_rules_nil (hrules : intake.rules = []) (request : Request)
    (response : Response) :
    x.judgeResponse now intake request response =
      x.releaseResponse now intake request ⟨response, none, []⟩ := by
  rw [judgeResponse, hrules]
  rfl

/-- A response that no rule has changed is released without rules. -/
theorem isPlain_releaseResponse (request : Request) (response : Response) :
    IsPlain (x.releaseResponse now intake request ⟨response, none, []⟩) := by
  refine ⟨unruled_of_ended (state_releaseResponse ..), ?_⟩
  simp only [releaseResponse, releaseEffects, ruleEffects, List.map_nil, List.nil_append]
  split
  · simpa [closingWith] using .close (by simp) rfl rfl
  · exact (isPlain_fail now _).2

/-- Each step of an exchange without rules keeps it so. -/
theorem isPlain_next (h : x.Unruled) (event : Event) : IsPlain (x.next now event) := by
  cases hstate : x.state with
  | ended =>
      rw [next_ended x now event hstate]
      exact h.isPlain
  | active intake stage =>
      simp only [next, hstate]
      have hsame : IsPlain (x, []) := h.isPlain
      simp only [Unruled, hstate] at h
      cases stage with
      | readingRequest body =>
          cases event with
          | requestChunk bytes => exact Unruled.isPlain h
          | requestEnd =>
              simp only [nextFrom, judgeRequest_of_rules_nil now h]
              exact isPlain_forward now h _
          | requestFailed cause => exact isPlain_fail now cause
          | requestClosed => exact isPlain_fail now incomplete
          | clientLeft =>
              refine Unruled.isPlain ?_
              simpa [Unruled, hstate] using h
          | _ => exact hsame
      | awaitingResponse request =>
          cases event with
          | forwardingFailed cause => exact isPlain_fail now cause
          | responseHead status headers => exact Unruled.isPlain h
          | clientLeft => exact isPlain_fail now forwardingGivenUp
          | _ => exact hsame
      | readingResponse request status headers body =>
          cases event with
          | responseChunk bytes => exact Unruled.isPlain h
          | responseEnd =>
              simp only [nextFrom, judgeResponse_of_rules_nil now h]
              exact isPlain_releaseResponse now request _
          | forwardingFailed cause => exact isPlain_fail now cause
          | responseClosed => exact isPlain_fail now incomplete
          | clientLeft => exact isPlain_fail now forwardingGivenUp
          | _ => exact hsame
      -- Nothing is held back without rules.
      | holdingRequest held delay => exact h.elim
      | holdingResponse request held delay => exact h.elim

/-- No event completes the actions of a rule where there are no rules. -/
theorem completed?_of_unruled (h : x.Unruled) (event : Event) : x.completed? event = none := by
  cases hstate : x.state with
  | ended => simp [completed?, hstate]
  | active intake stage =>
      simp only [Unruled, hstate] at h
      simp only [completed?, hstate]
      cases stage with
      | readingRequest body =>
          cases event with
          | requestEnd =>
              simp only [h]
              rfl
          | _ => rfl
      | awaitingResponse request => cases event <;> rfl
      | readingResponse request status headers body =>
          cases event with
          | responseEnd =>
              simp only [h]
              rfl
          | _ => rfl
      | holdingRequest held delay => exact h.elim
      | holdingResponse request held delay => exact h.elim

end Steps

/-- An exchange starts without rules outside of the ports. -/
theorem isPlain_start [Domain.Mapping] {config : Config} {arrival : Arrival}
    (h : config.Excludes arrival) (id : Nat) (now : Number) (client : Client) :
    IsPlain (start id now (.ok config) arrival client) := by
  simp only [start]
  cases htake : takeIn (rulesFor config) arrival with
  | error refusal =>
      obtain ⟨status, message⟩ := refusal
      exact isPlain_refuse now status message
  | ok intake =>
      have hrules : intake.rules = [] := by
        rw [(settled_of_takeIn htake).2.2.2]
        exact h.rulesFor_eq (destination_of_takeIn htake)
      exact Unruled.isPlain hrules

namespace Course

/-! ## Courses -/

/-- No rule had a part in a course: none was completed, nothing was held back and no rule ended it;
its entry names no rule, and nothing that it asks for changes what a history tells about rules. -/
structure WithoutRules (c : Course) : Prop where
  applied : c.applied = []
  timings : Exchange.timings (c.asked.map Prod.snd) = []
  not_aborted : ∀ update, (.aborted, update) ∉ c.closings
  unnamed : ∀ id now arrival,
    let e := reviseAll (Proxy.entryOf id now arrival) (c.asked.map Prod.snd)
    e.requestRule = none ∧ e.responseRule = none
  ruleTraces : ∀ effect ∈ c.asked.map Prod.snd, ∀ id history,
    (Proxy.record id history effect).ruleTraces = history.ruleTraces

/-- An exchange without rules has completed none, and has asked for nothing that they have a part
in. -/
structure KeepsPlain (c : Course) : Prop where
  unruled : c.exchange.Unruled
  applied : c.applied = []
  asked : ∀ entry ∈ c.asked, entry.2.IsPlain

/-- Each event keeps an exchange without rules so. -/
theorem keepsPlain_next {c : Course} (h : c.KeepsPlain) (now : Number) (event : Event) :
    (c.next now event).KeepsPlain := by
  obtain ⟨hunruled, heffects⟩ := isPlain_next now h.unruled event
  refine ⟨hunruled, ?_, List.forall_mem_append.2 ⟨h.asked, List.forall_mem_map.2 heffects⟩⟩
  simp [next, after, h.applied, completed?_of_unruled h.unruled]

/-- In an exchange without rules no rule has a part. -/
theorem KeepsPlain.withoutRules {c : Course} (h : c.KeepsPlain) : c.WithoutRules := by
  have hplain : ∀ effect ∈ c.asked.map Prod.snd, effect.IsPlain := List.forall_mem_map.2 h.asked
  refine ⟨h.applied, ?_, ?_, fun id now arrival => rules_reviseAll hplain _,
    fun effect hmem => (hplain effect hmem).ruleTraces_record⟩
  · refine List.filter_eq_nil_iff.2 fun effect hmem => ?_
    rw [(hplain effect hmem).isTiming_eq]
    nofun
  · intro update hmem
    obtain ⟨effect, hasked, hclose⟩ := List.mem_filterMap.1 hmem
    exact (hplain effect hasked).closing?_ne update hclose

/-- Whatever comes, no rule has a part in an exchange outside of the ports. -/
theorem withoutRules_run [Domain.Mapping] {config : Config} {arrival : Arrival}
    (h : config.Excludes arrival) (id : Nat) (now : Number) (client : Client)
    (trace : List (Number × Event)) :
    ((start id now (.ok config) arrival client).run trace).WithoutRules := by
  obtain ⟨hunruled, heffects⟩ := isPlain_start h id now client
  have hstart : (start id now (.ok config) arrival client).KeepsPlain :=
    ⟨hunruled, rfl, List.forall_mem_map.2 heffects⟩
  have hrun := run_induction hstart (fun c now event hc => keepsPlain_next hc now event) trace
  exact hrun.withoutRules

/-- Rules have no say in where requests go: whatever the configurations are and whatever comes,
requests with the same target and host header go to the same host and port.  Outside of the ports of
two configurations an exchange goes alike under both, and no rule has a part in it.  And without
ports it goes as under the same rules with ports that include its own. -/
theorem confined_to_ports [Domain.Mapping] :
    (∀ (id id' : Nat) (now now' : Number) (config config' : Config) (arrival arrival' : Arrival)
      (client client' : Client) (trace trace' : List (Number × Event))
      (message message' : Forwarded),
      arrival'.targetText = arrival.targetText → arrival'.host? = arrival.host? →
      message ∈ ((start id now (.ok config) arrival client).run trace).forwards →
      message' ∈ ((start id' now' (.ok config') arrival' client').run trace').forwards →
      message'.host = message.host ∧ message'.port = message.port) ∧
    ∀ (id : Nat) (now : Number) (config other : Config) (arrival : Arrival) (client : Client)
      (trace : List (Number × Event)),
      let c := (start id now (.ok config) arrival client).run trace
      let c' := (start id now (.ok other) arrival client).run trace
      (config.Excludes arrival → other.Excludes arrival → c' = c ∧ c.WithoutRules) ∧
      (config.proxyPorts = [] → other.rules = config.rules → other.Includes arrival → c' = c) := by
  constructor
  · intro id id' now now' config config' arrival arrival' client client' trace trace'
      message message' htarget hhost hmem hmem'
    have hsame : arrival'.destination? = arrival.destination? := by
      rw [Arrival.destination?, Arrival.destination?, htarget, hhost]
    have hdestination := destination_of_mem_forwards hmem
    rw [← hsame, destination_of_mem_forwards hmem', Option.some.injEq, Destination.mk.injEq]
      at hdestination
    exact hdestination
  · intro id now config other arrival client trace c c'
    refine ⟨fun hconfig hother => ⟨?_, withoutRules_run hconfig id now client trace⟩,
      fun hnone hrules hother => ?_⟩
    · refine run_start_congr (fun destination hdestination => ?_) id now client trace
      rw [hconfig.rulesFor_eq hdestination, hother.rulesFor_eq hdestination]
    · refine run_start_congr (fun destination hdestination => ?_) id now client trace
      have hcovered := (other.coversPort_iff destination.port).2 (.inr (hother _ hdestination))
      have hopen := (config.coversPort_iff destination.port).2 (.inl hnone)
      rw [rulesFor, rulesFor, Config.rulesFor, Config.rulesFor, if_pos hcovered, if_pos hopen,
        hrules]

/-! ## A request to another port -/

/-- No request goes out to two ports. -/
def blockade : Config where
  listenPort := 58080
  proxyPorts := [80, 443]
  rules := [{ name := "blockade", side := .request, selector := {}, actions := { abort := true } }]

/-- A request to a third port. -/
def sideRequest : Arrival := { target := some "http://h:8080/" }

/-- The request goes out to its own port, and neither configuration has a say in that; and a request
to the first port meets the same rules with and without the port. -/
theorem confined_to_ports_sideRequest :
    (⟨"h", 8080, "GET", "/", [], []⟩ : Forwarded) ∈
        ((start 1 0 (.ok blockade) sideRequest {}).run servedInPieces).forwards ∧
      (∀ id now config client trace message,
        message ∈ ((start id now (.ok config) sideRequest client).run trace).forwards →
        message.host = "h" ∧ message.port = 8080) ∧
      outage.Excludes sideRequest ∧ blockade.Excludes sideRequest ∧
      (start 1 0 (.ok blockade) sideRequest {}).run servedInPieces =
        (start 1 0 (.ok outage) sideRequest {}).run servedInPieces ∧
      ((start 1 0 (.ok outage) sideRequest {}).run servedInPieces).WithoutRules ∧
      (start 1 0 (.ok outage) rootRequest {}).run servedInPieces =
        (start 1 0 (.ok { outage with proxyPorts := [] }) rootRequest {}).run servedInPieces := by
  obtain ⟨hdestination, hports⟩ := confined_to_ports
  have hgoes : (⟨"h", 8080, "GET", "/", [], []⟩ : Forwarded) ∈
      ((start 1 0 (.ok blockade) sideRequest {}).run servedInPieces).forwards := by
    decide +kernel
  have hside : sideRequest.destination? = some ⟨"h", 8080⟩ := by decide +kernel
  have hroot : rootRequest.destination? = some ⟨"h", 80⟩ := by decide +kernel
  have houtage : outage.Excludes sideRequest := by
    refine ⟨nofun, fun destination h => ?_⟩
    rw [← Option.some.inj (hside.symm.trans h)]
    decide +kernel
  have hblockade : blockade.Excludes sideRequest := by
    refine ⟨nofun, fun destination h => ?_⟩
    rw [← Option.some.inj (hside.symm.trans h)]
    decide +kernel
  have hincludes : outage.Includes rootRequest := by
    intro destination h
    rw [← Option.some.inj (hroot.symm.trans h)]
    decide +kernel
  obtain ⟨hsame, hwithout⟩ :=
    (hports 1 0 outage blockade sideRequest {} servedInPieces).1 houtage hblockade
  exact ⟨hgoes,
    fun id now config client trace message hmem =>
      hdestination 1 id 0 now blockade config sideRequest sideRequest {} client servedInPieces trace
        _ message rfl rfl hgoes hmem,
    houtage, hblockade, hsame, hwithout,
    (hports 1 0 { outage with proxyPorts := [] } outage rootRequest {} servedInPieces).2 rfl rfl
      hincludes⟩

end Course

end Exchange

end FaultInjection
