import FaultInjection.Admin

/-!
# Rule sources - The last configuration that loaded

Files are written and removed, and a rule source is started, stopped and asked to load its file
anew: by the program, by the administrator, and by watchers of the file.  Whatever the order, the
configuration in force is that of the last load that succeeded.  A load that fails leaves the
source as it was, and each way to ask for a load has its own way to tell of the failure.

Main definitions:

- `RuleSource.Happening` and `RuleSource.Session`, what happens around a source.
- `RuleSource.Session.load?` and `RuleSource.Session.attempts`, the loads that it gives rise to.
- `RuleSource.Session.KeepsLastGood`, the contract of a source.

Main results:

- `RuleSource.Session.attends`: nothing is loaded, or a load succeeds, or it fails.
- `RuleSource.Session.config_run` and `RuleSource.Session.countP_told`: the configuration in force
  and the changes told of come from the loads that succeeded.
- `RuleSource.Session.watchers_run_stop`: a source that is stopped has no open watcher, if it
  never had more than one.
- `RuleSource.Session.keepsLastGood_run`: the contract holds after anything that can happen.
-/

namespace FaultInjection

namespace Admin

/-! ## Requests for a load -/

/-- Whether a request of the administrator asks for a load of the rules. -/
def asksReload (method path : String) : Bool :=
  normalMethod method == "POST" && (Locator.parse path).path == "/api/reload"

variable {files : Files} {p : Proxy} {method path : String}

theorem action?_eq_reload_iff {method path : String} :
    action? method path = some .reload ↔ method = "POST" ∧ path = "/api/reload" := by
  unfold action?
  split <;> simp_all

/-- Such a request is answered by a load. -/
theorem handle_of_asksReload (h : asksReload method path = true) :
    handle files p method path = reloadRules files p := by
  rw [asksReload, Bool.and_eq_true, beq_iff_eq, beq_iff_eq] at h
  obtain ⟨hmethod, hpath⟩ := h
  have haction := action?_eq_reload_iff.2 ⟨rfl, hpath⟩
  simp only [handle, hmethod, handleMethod, haction]
  rfl

example : asksReload "POST" "/api/reload" = true := by cbv

/-- Actions other than a load leave the rule source alone. -/
theorem perform_of_ne_reload (l : Locator) {action : Action} (h : action ≠ .reload) :
    (perform files p l action).proxy.source = p.source ∧
      (perform files p l action).notices = [] := by
  have hrules : ∀ answer, (withRules p answer).proxy.source = p.source ∧
      (withRules p answer).notices = [] := by
    intro answer
    unfold withRules
    split <;> exact ⟨rfl, rfl⟩
  cases action with
  | showState => exact hrules _
  | showRules => exact hrules _
  | reload => exact absurd rfl h
  | showHistory => exact ⟨rfl, rfl⟩
  | clearHistory => exact ⟨rfl, rfl⟩

/-- Requests for anything but a load leave the rule source alone. -/
theorem handle_of_not_asksReload (h : asksReload method path = false) :
    (handle files p method path).proxy.source = p.source ∧
      (handle files p method path).notices = [] := by
  have hmethod : ∀ name, action? name (Locator.parse path).path ≠ some .reload →
      (handleMethod files p name (Locator.parse path)).proxy.source = p.source ∧
        (handleMethod files p name (Locator.parse path)).notices = [] := by
    intro name hname
    unfold handleMethod
    split
    · rename_i action haction
      exact perform_of_ne_reload _ fun heq => hname (heq ▸ haction)
    · exact ⟨rfl, rfl⟩
  have hother : ∀ name, name = "POST" → (Locator.parse path).path = "/api/reload" →
      normalMethod method ≠ name := by
    rintro name rfl hpath heq
    simp [asksReload, heq, hpath] at h
  unfold handle
  dsimp only
  split
  · refine hmethod "GET" fun haction => ?_
    exact absurd (action?_eq_reload_iff.1 haction).1 (by decide)
  · refine hmethod _ fun haction => ?_
    obtain ⟨hpost, hpath⟩ := action?_eq_reload_iff.1 haction
    exact hother _ hpost hpath rfl

end Admin

namespace RuleSource

/-! ## Sessions -/

/-- What can happen around a rule source. -/
inductive Happening where
  | written (path content : String)
  | removed (path : String)
  | started (watch : Bool)
  | reloaded
  /-- The administrator sends a request. -/
  | asked (method path : String)
  | fileEvent (watcher : Nat) (event : FileEvent)
  | stopped
  deriving DecidableEq, Repr

/-- What comes back to whoever has made something happen. -/
inductive Response where
  | nothing
  | returned (config : Config)
  | raised (fault : ConfigFault)
  | replied (reply : Admin.Reply)

/-- What comes back of a load to a program that asks for it. -/
def Response.ofResult : Except ConfigFault Config → Response
  | .ok config => returned config
  | .error fault => raised fault

/-- Files and a proxy with its rule source. -/
structure Session where
  files : Files := []
  proxy : Proxy

namespace Session

/-- The rule source of a session. -/
def source (s : Session) : RuleSource := s.proxy.source

/-- A session with a new source, before anything has happened. -/
def initial (directory path : String) : Session := { proxy := { source := .ofPath directory path } }

/-- The session with its source in some state. -/
def withSource (s : Session) (source : RuleSource) : Session :=
  { s with proxy := { s.proxy with source } }

/-- What becomes of something that happens. -/
structure Outcome where
  session : Session
  notices : List Notice := []
  response : Response := .nothing

/-- What becomes of something that happens to a session. -/
def attend (s : Session) : Happening → Outcome
  | .written path content => { session := { s with files := s.files.write path content } }
  | .removed path => { session := { s with files := s.files.remove path } }
  | .started watch =>
    let load := s.source.start s.files watch
    { session := s.withSource load.source
      notices := load.notices
      response := .ofResult load.result }
  | .reloaded =>
    let load := s.source.reload s.files
    { session := s.withSource load.source
      notices := load.notices
      response := .ofResult load.result }
  | .asked method path =>
    let answer := Admin.handle s.files s.proxy method path
    { session := { s with proxy := answer.proxy }
      notices := answer.notices
      response := .replied answer.reply }
  | .fileEvent watcher event =>
    let reaction := s.source.fileEvent s.files watcher event
    { session := s.withSource reaction.source, notices := reaction.notices }
  | .stopped => { session := s.withSource s.source.stop }

/-- The session after something has happened. -/
def next (s : Session) (h : Happening) : Session := (s.attend h).session

/-- The session after some things have happened. -/
def run (s : Session) (happenings : List Happening) : Session := happenings.foldl next s

/-- What listeners are told while some things happen. -/
def told (s : Session) : List Happening → List Notice
  | [] => []
  | h :: rest => (s.attend h).notices ++ told (s.next h) rest

/-! ## Loads -/

/-- Whether something that happens gives rise to a load. -/
def loads (s : Session) : Happening → Bool
  | .started _ => true
  | .reloaded => true
  | .asked method path => Admin.asksReload method path
  | .fileEvent watcher event => s.source.watchers.contains watcher && event != .other
  | _ => false

/-- What the file holds now. -/
def held (s : Session) : Except ConfigFault Config := Config.load s.files s.source.path

/-- The load that something that happens gives rise to. -/
def load? (s : Session) (h : Happening) : Option (Except ConfigFault Config) :=
  if s.loads h then some s.held else none

/-- The loads that some things that happen give rise to. -/
def attempts (s : Session) : List Happening → List (Except ConfigFault Config)
  | [] => []
  | h :: rest => (s.load? h).toList ++ attempts (s.next h) rest

/-- The configurations of the loads that succeed. -/
def successes (results : List (Except ConfigFault Config)) : List Config :=
  results.filterMap Except.toOption

/-! ## What happens -/

/-- The source with a configuration in force and, where one is wanted, one more watcher. -/
def installed (source : RuleSource) (config : Config) (h : Happening) : RuleSource :=
  if h = .started true then openWatcher { source with config := some config }
  else { source with config := some config }

/-- What listeners are told of a load that fails. -/
def failureNotices (fault : ConfigFault) : Happening → List Notice
  | .fileEvent _ _ => [.reloadFailed fault]
  | _ => []

/-- What can become of the source: nothing is loaded, or a load succeeds, or it fails. -/
inductive Attends (s : Session) (h : Happening) : Prop
  | rested (hload : s.load? h = none) (hnotices : (s.attend h).notices = [])
      (hsource : (s.next h).source = if h = .stopped then s.source.stop else s.source)
  | loaded (config : Config) (hload : s.load? h = some (.ok config))
      (hnotices : (s.attend h).notices = [.changed config.rules.length])
      (hsource : (s.next h).source = installed s.source config h)
  | failed (fault : ConfigFault) (hload : s.load? h = some (.error fault))
      (hnotices : (s.attend h).notices = failureNotices fault h)
      (hsource : (s.next h).source = s.source)

section Loads

variable {s : Session} {h : Happening} {config : Config} {fault : ConfigFault}

theorem load?_of_loads (hloads : s.loads h = true) : s.load? h = some s.held := if_pos hloads

theorem load?_of_not_loads (hloads : s.loads h = false) : s.load? h = none :=
  if_neg (Bool.eq_false_iff.1 hloads)

theorem reload_of_held (hheld : s.held = .ok config) :
    s.source.reload s.files = {
      source := { s.source with config := some config }
      notices := [.changed config.rules.length]
      result := .ok config } := by
  unfold held at hheld
  simp only [reload, hheld]

theorem reload_of_fault (hheld : s.held = .error fault) :
    s.source.reload s.files = { source := s.source, result := .error fault } :=
  reload_error _ _ _ hheld

/-- What happens without a load changes no source but one that is stopped. -/
theorem attends_of_not_loads (hloads : s.loads h = false) : s.Attends h := by
  have hload := load?_of_not_loads hloads
  cases h with
  | written path content => exact .rested hload rfl rfl
  | removed path => exact .rested hload rfl rfl
  | stopped => exact .rested hload rfl rfl
  | started | reloaded => cases hloads
  | asked method path =>
      obtain ⟨hsource, hnotices⟩ := Admin.handle_of_not_asksReload hloads
      exact .rested hload hnotices hsource
  | fileEvent watcher event =>
      have hrest : s.source.fileEvent s.files watcher event = { source := s.source } :=
        if_neg (Bool.eq_false_iff.1 hloads)
      exact .rested hload (by rw [attend, hrest]) (by rw [next, attend, hrest]; rfl)

/-- A load that succeeds puts its configuration in force. -/
theorem attends_of_held (hloads : s.loads h = true) (hheld : s.held = .ok config) :
    s.Attends h := by
  have hload : s.load? h = some (.ok config) := hheld ▸ load?_of_loads hloads
  have hreload := reload_of_held hheld
  cases h with
  | written | removed | stopped => cases hloads
  | started watch =>
      have hstart : s.source.start s.files watch =
          { s.source.reload s.files with
              source := installed s.source config (.started watch) } := by
        rw [start, hreload]
        cases watch <;> rfl
      rw [hreload] at hstart
      exact .loaded config hload (by rw [attend, hstart]) (by rw [next, attend, hstart]; rfl)
  | reloaded =>
      exact .loaded config hload (by rw [attend, hreload]) (by rw [next, attend, hreload]; rfl)
  | asked method path =>
      have hhandle : Admin.handle s.files s.proxy method path = _ :=
        Admin.handle_of_asksReload hloads
      rw [Admin.reloadRules, ← source, hreload] at hhandle
      exact .loaded config hload (by rw [attend, hhandle]) (by rw [next, attend, hhandle]; rfl)
  | fileEvent watcher event =>
      have hevent : s.source.fileEvent s.files watcher event =
          s.source.reloadQuietly s.files := if_pos hloads
      rw [reloadQuietly, hreload] at hevent
      exact .loaded config hload (by rw [attend, hevent]; rfl) (by rw [next, attend, hevent]; rfl)

/-- A load that fails leaves the source as it was. -/
theorem attends_of_fault (hloads : s.loads h = true) (hheld : s.held = .error fault) :
    s.Attends h := by
  have hload : s.load? h = some (.error fault) := hheld ▸ load?_of_loads hloads
  have hreload := reload_of_fault hheld
  cases h with
  | written | removed | stopped => cases hloads
  | started watch =>
      have hstart : s.source.start s.files watch = s.source.reload s.files := by
        rw [start, hreload]
      rw [hreload] at hstart
      exact .failed fault hload (by rw [attend, hstart]; rfl) (by rw [next, attend, hstart]; rfl)
  | reloaded =>
      exact .failed fault hload (by rw [attend, hreload]; rfl) (by rw [next, attend, hreload]; rfl)
  | asked method path =>
      have hhandle : Admin.handle s.files s.proxy method path = _ :=
        Admin.handle_of_asksReload hloads
      rw [Admin.reloadRules, ← source, hreload] at hhandle
      exact .failed fault hload (by rw [attend, hhandle]; rfl) (by rw [next, attend, hhandle]; rfl)
  | fileEvent watcher event =>
      have hevent : s.source.fileEvent s.files watcher event =
          s.source.reloadQuietly s.files := if_pos hloads
      rw [reloadQuietly, hreload] at hevent
      exact .failed fault hload (by rw [attend, hevent]; rfl) (by rw [next, attend, hevent]; rfl)

end Loads

/-- Whatever happens, nothing is loaded, or a load succeeds, or it fails. -/
theorem attends (s : Session) (h : Happening) : s.Attends h := by
  cases hloads : s.loads h with
  | false => exact attends_of_not_loads hloads
  | true =>
      cases hheld : s.held with
      | ok config => exact attends_of_held hloads hheld
      | error fault => exact attends_of_fault hloads hheld

/-! ## The configuration in force -/

/-- Whether listeners are told of a new configuration. -/
def isChange : Notice → Bool
  | .changed _ => true
  | .reloadFailed _ => false

theorem countP_failureNotices (fault : ConfigFault) (h : Happening) :
    (failureNotices fault h).countP isChange = 0 := by
  cases h <;> rfl

/-- The source always stands for the same file. -/
theorem path_next (s : Session) (h : Happening) : (s.next h).source.path = s.source.path := by
  cases s.attends h with
  | rested _ _ hsource =>
      rw [hsource]
      split <;> rfl
  | loaded config _ _ hsource =>
      rw [hsource, installed]
      split <;> rfl
  | failed _ _ _ hsource => rw [hsource]

/-- A load that succeeds puts its configuration in force, and nothing else does. -/
theorem config_next (s : Session) (h : Happening) :
    (s.next h).source.config =
      (successes (s.load? h).toList).getLast?.or s.source.config := by
  cases s.attends h with
  | rested hload _ hsource =>
      rw [hload, hsource]
      split <;> rfl
  | loaded config hload _ hsource =>
      rw [hload, hsource, installed]
      split <;> rfl
  | failed fault hload _ hsource => rw [hload, hsource]; rfl

/-- A load that succeeds is told of once, and nothing else is told of as a change. -/
theorem countP_notices (s : Session) (h : Happening) :
    (s.attend h).notices.countP isChange = (successes (s.load? h).toList).length := by
  cases s.attends h with
  | rested hload hnotices => rw [hload, hnotices]; rfl
  | loaded config hload hnotices => rw [hload, hnotices]; rfl
  | failed fault hload hnotices => rw [hload, hnotices, countP_failureNotices]; rfl

theorem successes_append (results more : List (Except ConfigFault Config)) :
    successes (results ++ more) = successes results ++ successes more :=
  List.filterMap_append ..

theorem path_run (s : Session) (happenings : List Happening) :
    (s.run happenings).source.path = s.source.path := by
  induction happenings generalizing s with
  | nil => rfl
  | cons h rest ih => exact (ih (s.next h)).trans (s.path_next h)

/-- The configuration in force is that of the last load that succeeded. -/
theorem config_run (s : Session) (happenings : List Happening) :
    (s.run happenings).source.config =
      (successes (s.attempts happenings)).getLast?.or s.source.config := by
  induction happenings generalizing s with
  | nil => rfl
  | cons h rest ih =>
      calc
        (s.run (h :: rest)).source.config
            = (successes ((s.next h).attempts rest)).getLast?.or (s.next h).source.config :=
          ih (s.next h)
        _ = (successes (s.attempts (h :: rest))).getLast?.or s.source.config := by
          rw [config_next, attempts, successes_append, List.getLast?_append, Option.or_assoc]

/-- Listeners are told of as many changes as loads succeeded. -/
theorem countP_told (s : Session) (happenings : List Happening) :
    (s.told happenings).countP isChange = (successes (s.attempts happenings)).length := by
  induction happenings generalizing s with
  | nil => rfl
  | cons h rest ih =>
      rw [told, attempts, List.countP_append, successes_append, List.length_append, countP_notices,
        ih]

/-! ## Watchers -/

/-- Watchers are numbered in the order in which they are opened, and the source knows the last one
as long as it is open. -/
structure Tracked (source : RuleSource) : Prop where
  below : ∀ w ∈ source.watchers, w < source.opened
  latest : ∀ w ∈ source.watchers, w + 1 = source.opened → source.watcher = some w

theorem tracked_stop {source : RuleSource} (ht : Tracked source) : Tracked source.stop where
  below := fun w hw => ht.below w (List.mem_filter.1 hw).1
  latest := by
    intro w hw hlast
    obtain ⟨hopen, hother⟩ := List.mem_filter.1 hw
    simp [ht.latest w hopen hlast] at hother

theorem tracked_openWatcher {source : RuleSource} (ht : Tracked source) :
    Tracked source.openWatcher where
  below := by
    intro w hw
    rcases List.mem_append.1 hw with hold | hnew
    · exact Nat.lt_succ_of_lt (ht.below w hold)
    · rw [List.mem_singleton.1 hnew]
      exact Nat.lt_succ_self _
  latest := by
    intro w _ hlast
    rw [Nat.succ.inj hlast]
    rfl

theorem tracked_next {s : Session} (ht : Tracked s.source) (h : Happening) :
    Tracked (s.next h).source := by
  cases s.attends h with
  | rested _ _ hsource =>
      rw [hsource]
      split
      · exact tracked_stop ht
      · exact ht
  | loaded config _ _ hsource =>
      have hconfig : Tracked { s.source with config := some config } := ⟨ht.below, ht.latest⟩
      rw [hsource, installed]
      split
      · exact tracked_openWatcher hconfig
      · exact hconfig
  | failed _ _ _ hsource => rwa [hsource]

theorem tracked_run {s : Session} (ht : Tracked s.source) (happenings : List Happening) :
    Tracked (s.run happenings).source := by
  induction happenings generalizing s with
  | nil => exact ht
  | cons h rest ih => exact ih (tracked_next ht h)

/-- Either a watcher is opened, or the open ones were open before. -/
theorem watchers_next (s : Session) (h : Happening) :
    s.source.opened < (s.next h).source.opened ∨
      (s.next h).source.opened = s.source.opened ∧
        ∀ w ∈ (s.next h).source.watchers, w ∈ s.source.watchers := by
  cases s.attends h with
  | rested _ _ hsource =>
      rw [hsource]
      split
      · exact .inr ⟨rfl, fun w hw => (List.mem_filter.1 hw).1⟩
      · exact .inr ⟨rfl, fun w hw => hw⟩
  | loaded config _ _ hsource =>
      rw [hsource, installed]
      split
      · exact .inl (Nat.lt_succ_self _)
      · exact .inr ⟨rfl, fun w hw => hw⟩
  | failed _ _ _ hsource => exact .inr (hsource ▸ ⟨rfl, fun w hw => hw⟩)

theorem watchers_run (s : Session) (happenings : List Happening) :
    s.source.opened < (s.run happenings).source.opened ∨
      (s.run happenings).source.opened = s.source.opened ∧
        ∀ w ∈ (s.run happenings).source.watchers, w ∈ s.source.watchers := by
  induction happenings generalizing s with
  | nil => exact .inr ⟨rfl, fun w hw => hw⟩
  | cons h rest ih =>
      rcases s.watchers_next h with hmore | ⟨hsame, hkept⟩
      · rcases ih (s.next h) with hlater | ⟨hlater, -⟩
        · exact .inl (Nat.lt_trans hmore hlater)
        · exact .inl (Nat.lt_of_lt_of_eq hmore hlater.symm)
      · rcases ih (s.next h) with hlater | ⟨hlater, hrest⟩
        · exact .inl (hsame ▸ hlater)
        · exact .inr ⟨hlater.trans hsame, fun w hw => hkept w (hrest w hw)⟩

/-- A source that is stopped has no open watcher, if only one was ever opened. -/
theorem watchers_run_stop {s : Session} (ht : Tracked s.source) (hone : s.source.opened = 1)
    (later : List Happening) (hnone : (s.run (.stopped :: later)).source.opened = 1) :
    (s.run (.stopped :: later)).source.watchers = [] := by
  have hstop : (s.next .stopped).source = s.source.stop := rfl
  refine List.eq_nil_iff_forall_not_mem.2 fun w hw => ?_
  rcases (s.next .stopped).watchers_run later with hmore | ⟨-, hkept⟩
  · have hopened : s.source.stop.opened < 1 := hnone ▸ hmore
    have hsame : s.source.stop.opened = 1 := hone
    omega
  · -- The only watcher that there can be is the one that was closed.
    have hopen := hkept w hw
    rw [hstop] at hopen
    have hlt := (tracked_stop ht).below w hopen
    have hsame : s.source.stop.opened = 1 := hone
    have hlast : s.source.stop.watcher = some w := (tracked_stop ht).latest w hopen (by omega)
    cases hlast

/-! ## The contract -/

/-- After some things have happened, the source keeps to its contract. -/
structure KeepsLastGood (start : Session) (happenings : List Happening) : Prop where
  /-- The configuration in force is that of the last load that succeeded. -/
  config : ∀ config, (start.run happenings).source.current = .ok config ↔
    (successes (start.attempts happenings)).getLast? = some config
  /-- There is none as long as no load has succeeded. -/
  unavailable : (∃ reason, (start.run happenings).source.current = .error reason) ↔
    successes (start.attempts happenings) = []
  /-- It is always the same file that is loaded. -/
  path : (start.run happenings).source.path = start.source.path
  /-- Listeners are told of a change for each load that succeeded, and for nothing else. -/
  changes : (start.told happenings).countP isChange =
    (successes (start.attempts happenings)).length
  /-- A load that fails changes nothing. -/
  failed : ∀ h fault, (start.run happenings).load? h = some (.error fault) →
    ((start.run happenings).next h).source = (start.run happenings).source
  /-- A program that starts the source gets the configuration of the file, or the fault. -/
  started : ∀ watch, ((start.run happenings).attend (.started watch)).response =
    .ofResult (start.run happenings).held
  /-- A program that asks for a load gets the configuration of the file, or the fault. -/
  reloaded : ((start.run happenings).attend .reloaded).response =
    .ofResult (start.run happenings).held
  /-- The administrator is told of a fault by the status of the reply. -/
  asked : ∀ method path, Admin.asksReload method path = true →
    ∃ reply, ((start.run happenings).attend (.asked method path)).response = .replied reply ∧
      (reply.status = 400 ↔ ∃ fault, (start.run happenings).held = .error fault)
  /-- Nothing is raised when a watcher sees an event of the file. -/
  watched : ∀ watcher event,
    ((start.run happenings).attend (.fileEvent watcher event)).response = .nothing
  /-- A fault that comes up then is told to listeners, once, and no other is. -/
  reported : ∀ h fault, (start.run happenings).load? h = some (.error fault) →
    ((start.run happenings).attend h).notices = failureNotices fault h
  /-- Events do nothing once the source is stopped, if only one watcher was ever opened. -/
  stopped : ∀ later, (start.run happenings).source.opened = 1 →
    (start.run (happenings ++ .stopped :: later)).source.opened = 1 →
    ∀ watcher event,
      (start.run (happenings ++ .stopped :: later)).attend (.fileEvent watcher event) =
        { session := start.run (happenings ++ .stopped :: later) }

theorem result_reload (s : Session) : (s.source.reload s.files).result = s.held := by
  unfold reload held
  split <;> rename_i hload <;> exact hload.symm

theorem result_start (s : Session) (watch : Bool) :
    (s.source.start s.files watch).result = s.held := by
  rw [← result_reload]
  unfold start
  dsimp only
  split
  · cases watch <;> rfl
  · rfl

/-- The administrator is told by the status whether a load has failed. -/
theorem status_reloadRules (s : Session) :
    (Admin.reloadRules s.files s.proxy).reply.status = 400 ↔ ∃ fault, s.held = .error fault := by
  cases hheld : s.held with
  | ok config =>
      rw [Admin.reloadRules, ← source, reload_of_held hheld]
      simp [Admin.Reply.ofDocument]
  | error fault =>
      rw [Admin.reloadRules, ← source, reload_of_fault hheld]
      simp [Admin.Reply.ofDocument]

/-- A load that fails changes nothing, and only that of a watcher is told to listeners. -/
theorem attend_of_fault {s : Session} {h : Happening} {fault : ConfigFault}
    (hload : s.load? h = some (.error fault)) :
    (s.next h).source = s.source ∧ (s.attend h).notices = failureNotices fault h := by
  cases s.attends h with
  | rested hnone => cases hload.symm.trans hnone
  | loaded config hok => cases hload.symm.trans hok
  | failed other hother hnotices hsource =>
      cases hload.symm.trans hother
      exact ⟨hsource, hnotices⟩

/-- Without an open watcher events do nothing. -/
theorem attend_fileEvent_of_watchers {s : Session} (hnone : s.source.watchers = [])
    (watcher : Nat) (event : FileEvent) :
    s.attend (.fileEvent watcher event) = { session := s } := by
  have hclosed : watcher ∉ s.source.watchers := by simp [hnone]
  rw [attend, fileEvent_closed _ _ _ _ hclosed]
  rfl

/-- Whatever happens to a new source, it keeps to its contract. -/
theorem keepsLastGood_run (directory path : String) (happenings : List Happening) :
    KeepsLastGood (initial directory path) happenings := by
  have hstart : (initial directory path).source.config = none := rfl
  have hconfig := (initial directory path).config_run happenings
  rw [hstart, Option.or_none] at hconfig
  have htracked : Tracked (initial directory path).source :=
    ⟨fun w hw => (nomatch hw), fun w hw => (nomatch hw)⟩
  refine {
    config := fun config => ?_
    unavailable := ?_
    path := path_run ..
    changes := countP_told ..
    failed := fun h fault hload => (attend_of_fault hload).1
    started := fun watch => congrArg Response.ofResult (result_start _ watch)
    reloaded := congrArg Response.ofResult (result_reload _)
    asked := fun method path hasks => ⟨_, rfl, ?_⟩
    watched := fun watcher event => rfl
    reported := fun h fault hload => (attend_of_fault hload).2
    stopped := fun later hone hnone watcher event => ?_ }
  · rw [← hconfig, current]
    cases ((initial directory path).run happenings).source.config <;> simp
  · rw [← List.getLast?_eq_none_iff, ← hconfig, current]
    cases ((initial directory path).run happenings).source.config <;> simp
  · rw [Admin.handle_of_asksReload hasks]
    exact status_reloadRules _
  · have hrun : (initial directory path).run (happenings ++ .stopped :: later) =
        ((initial directory path).run happenings).run (.stopped :: later) := List.foldl_append ..
    rw [hrun] at hnone ⊢
    exact attend_fileEvent_of_watchers
      (watchers_run_stop (tracked_run htracked happenings) hone later hnone) watcher event

end Session

end RuleSource

end FaultInjection
