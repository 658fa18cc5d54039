import FaultInjection.Admin
import FaultInjection.Proofs.Exchange.Renumbering

/-!
# Proxies - Moments

At each moment one thing happens to a proxy: a request arrives, an exchange is told
something, or something happens to the rules or the history.  The moments come in any
order.

Main definitions:

- `Proxy.Occurrence`, what can happen to a proxy, and `Moment`, when it does.
- `Proxy.attend`, the proxy after a moment, with what its exchanges ask for.
- `Proxy.Kept`, what stays as it is when no exchange takes a step.

Main results:

- `Proxy.attends`: at a moment a request starts an exchange, an exchange takes a step, or
  the exchanges stay as they are.
- `Proxy.exchange?_attend_told` and `Proxy.exchange?_attend_of_not_told`: an exchange takes
  the steps of its own events, and no others.
-/

namespace FaultInjection

namespace Proxy

/-! ## Moments -/

/-- What can happen to a proxy apart from its exchanges. -/
inductive Upkeep where
  /-- The administrator sends a request. -/
  | administered (method path : String)
  /-- The rules are loaded anew. -/
  | reloaded
  | sourceStarted (watch : Bool)
  | sourceStopped
  | fileEvent (watcher : Nat) (event : RuleSource.FileEvent)
  deriving Repr

/-- What can happen to a proxy. -/
inductive Occurrence where
  | arrived (arrival : Arrival) (client : Client)
  /-- The exchange of a number is told something. -/
  | told (id : Nat) (event : Exchange.Event)
  | upkeep (what : Upkeep)
  deriving Repr

/-- The proxy after something apart from its exchanges. -/
def keepUp (p : Proxy) (files : Files) : Upkeep → Proxy
  | .administered method path => (Admin.handle files p method path).proxy
  | .reloaded => { p with source := (p.source.reload files).source }
  | .sourceStarted watch => { p with source := (p.source.start files watch).source }
  | .sourceStopped => { p with source := p.source.stop }
  | .fileEvent watcher event =>
    { p with source := (p.source.fileEvent files watcher event).source }

end Proxy

/-- Something that happens at a time, with the files as they are then. -/
structure Moment where
  time : Number
  files : Files := []
  what : Proxy.Occurrence
  deriving Repr

namespace Moment

/-- What the exchange of a number is told at a moment. -/
def eventsOf (m : Moment) (id : Nat) : List (Number × Exchange.Event) :=
  match m.what with
  | .told other event => if other = id then [(m.time, event)] else []
  | _ => []

/-- An exchange is told nothing at moments that are not its own. -/
theorem eventsOf_eq_nil {m : Moment} {id : Nat} (hm : ∀ event, m.what ≠ .told id event) :
    m.eventsOf id = [] := by
  unfold eventsOf
  split
  · rename_i other event hwhat
    exact if_neg fun heq : other = id => hm event (heq ▸ hwhat)
  · rfl

end Moment

namespace Proxy

/-- The proxy after a moment, with what its exchanges ask for. -/
def attend [Domain.Mapping] (p : Proxy) (m : Moment) : Proxy × List (Nat × Exchange.Effect) :=
  match m.what with
  | .arrived arrival client =>
    let (next, id, effects) := p.arrive m.time arrival client
    (next, effects.map (id, ·))
  | .told id event =>
    let (next, effects) := p.deliver m.time id event
    (next, effects.map (id, ·))
  | .upkeep what => (p.keepUp m.files what, [])

/-- The rule whose actions are completed at a moment, with its side and exchange. -/
def completions (p : Proxy) (m : Moment) : List (Nat × Rule.Side × Rule) :=
  match m.what with
  | .told id event => (((p.exchange? id).bind (·.completed? event)).map (id, ·)).toList
  | _ => []

/-! ## Upkeep -/

/-- What happens to a proxy apart from its exchanges: they stay as they are, the history does
unless it is cleared, and there is no way back to having no configuration. -/
structure Kept (p q : Proxy) : Prop where
  exchanges : q.exchanges = p.exchanges
  history : q.history = p.history ∨ q.history = p.history.clear.1
  config : p.source.config.isSome = true → q.source.config.isSome = true

theorem kept_refl (p : Proxy) : p.Kept p :=
  ⟨rfl, .inl rfl, id⟩

/-- A load, whether or not it succeeds, does not lose the configuration. -/
theorem isSome_config_reload {s : RuleSource} (files : Files) (h : s.config.isSome = true) :
    (s.reload files).source.config.isSome = true := by
  simp only [RuleSource.reload]
  split
  · rfl
  · exact h

/-- A change of the rules alone keeps the exchanges and the history. -/
theorem kept_of_source (p : Proxy) {source : RuleSource}
    (h : p.source.config.isSome = true → source.config.isSome = true) :
    p.Kept { p with source } :=
  ⟨rfl, .inl rfl, h⟩

/-- An action of the administrator loads the rules, clears the history, or changes nothing. -/
theorem kept_perform (p : Proxy) (files : Files) (l : Locator) (action : Admin.Action) :
    p.Kept (Admin.perform files p l action).proxy := by
  have hrules : ∀ answer, (Admin.withRules p answer).proxy = p := by
    intro answer
    unfold Admin.withRules
    split <;> rfl
  cases action with
  | showState => simpa [Admin.perform, hrules] using p.kept_refl
  | showRules => simpa [Admin.perform, hrules] using p.kept_refl
  | reload => exact p.kept_of_source (isSome_config_reload files)
  | showHistory => exact p.kept_refl
  | clearHistory => exact ⟨rfl, .inr rfl, id⟩

/-- A request of the administrator keeps what its action keeps. -/
theorem kept_handle (p : Proxy) (files : Files) (method path : String) :
    p.Kept (Admin.handle files p method path).proxy := by
  have hmethod : ∀ name l, p.Kept (Admin.handleMethod files p name l).proxy := by
    intro name l
    unfold Admin.handleMethod
    split
    · exact p.kept_perform files l _
    · exact p.kept_refl
  unfold Admin.handle
  dsimp only
  split
  · exact hmethod _ _
  · exact hmethod _ _

/-- What happens apart from the exchanges leaves them alone. -/
theorem kept_keepUp (p : Proxy) (files : Files) (what : Upkeep) :
    p.Kept (p.keepUp files what) := by
  cases what with
  | administered method path => exact p.kept_handle files method path
  | reloaded => exact p.kept_of_source (isSome_config_reload files)
  | sourceStarted watch =>
      refine p.kept_of_source fun h => ?_
      have hload := isSome_config_reload files h
      unfold RuleSource.start
      dsimp only
      split
      · split <;> exact hload
      · exact hload
  | sourceStopped => exact p.kept_of_source id
  | fileEvent watcher event =>
      refine p.kept_of_source fun h => ?_
      unfold RuleSource.fileEvent
      split
      · exact isSome_config_reload files h
      · exact h

/-! ## Numbers -/

/-- Effects leave the number of the last exchange as it is. -/
theorem lastId_record (id : Nat) (h : History) (effect : Exchange.Effect) :
    (record id h effect).lastId = h.lastId := by
  cases effect with
  | amend update =>
      simp only [record, History.amend]
      split <;> rfl
  | close outcome update =>
      simp only [record, History.close, History.amend]
      split <;> rfl
  | _ => rfl

theorem lastId_foldl_record (id : Nat) (h : History) (effects : List Exchange.Effect) :
    (effects.foldl (record id) h).lastId = h.lastId := by
  induction effects generalizing h with
  | nil => rfl
  | cons effect rest ih => rw [List.foldl_cons, ih, lastId_record]

/-- The exchange of a number has the number. -/
theorem id_of_exchange? {p : Proxy} {id : Nat} {x : Exchange} (h : p.exchange? id = some x) :
    x.id = id := by
  simpa using List.find?_some h

/-- A number has an exchange exactly where it is among the numbers of the exchanges. -/
theorem isSome_exchange?_iff (p : Proxy) (id : Nat) :
    (p.exchange? id).isSome = true ↔ id ∈ p.exchanges.map Exchange.id := by
  simp [exchange?]

/-- Of the exchanges with one in the place of another under its number, each number has the
exchange that it had, save that number. -/
theorem find?_replace (exchanges : List Exchange) {y : Exchange} {id : Nat} (hy : y.id = id)
    (other : Nat) :
    (exchanges.map fun x => if x.id == id then y else x).find? (·.id == other) =
      (exchanges.find? (·.id == other)).map fun x => if other = id then y else x := by
  induction exchanges with
  | nil => rfl
  | cons x rest ih =>
      rw [List.map_cons, List.find?_cons, List.find?_cons, ih]
      by_cases hx : x.id = id
      · by_cases hother : other = id
        · simp [hx, hy, hother]
        · have hne : (id == other) = false := by simpa using fun h : id = other => hother h.symm
          simp [hx, hy, hother, hne]
      · by_cases hother : other = id
        · have hne : (x.id == other) = false := by simpa [hother] using hx
          simp [hother, hother ▸ hne]
        · simp only [beq_iff_eq, hx, if_false, hother]
          cases x.id == other <;> simp

/-! ## One moment -/

section Attend

variable [Domain.Mapping] (p : Proxy) {m : Moment}

/-- A request that arrives starts an exchange under the next number. -/
theorem attend_arrived {arrival : Arrival} {client : Client}
    (hm : m.what = .arrived arrival client) :
    p.attend m =
      let id := p.history.lastId + 1
      let started := Exchange.start id m.time p.source.current arrival client
      ({ source := p.source
         history := started.2.foldl (record id)
           (p.history.issueId.2.record (entryOf id m.time arrival)).1
         exchanges := p.exchanges ++ [started.1] }, started.2.map (id, ·)) := by
  simp only [attend, hm]
  rfl

/-- An exchange that is told something takes its step, and the other exchanges take none. -/
theorem attend_told {id : Nat} {event : Exchange.Event} {x : Exchange}
    (hm : m.what = .told id event) (hx : p.exchange? id = some x) :
    p.attend m =
      ({ source := p.source
         history := (x.next m.time event).2.foldl (record id) p.history
         exchanges := p.exchanges.map fun other =>
           if other.id == id then (x.next m.time event).1 else other },
        (x.next m.time event).2.map (id, ·)) := by
  simp only [attend, hm, deliver, hx]
  rfl

/-- What a moment does: a request starts an exchange, an exchange takes a step, or the exchanges
stay as they are. -/
inductive Attends (p : Proxy) (m : Moment) : Prop
  | started (arrival : Arrival) (client : Client) (hm : m.what = .arrived arrival client)
  | stepped (id : Nat) (event : Exchange.Event) (x : Exchange) (hm : m.what = .told id event)
      (hx : p.exchange? id = some x)
  | rested (hm : ∀ arrival client, m.what ≠ .arrived arrival client)
      (hx : ∀ id event, m.what = .told id event → p.exchange? id = none)
      (q : Proxy) (hkept : p.Kept q) (hattend : p.attend m = (q, []))

/-- Every moment does one of the three. -/
theorem attends (m : Moment) : p.Attends m := by
  cases hm : m.what with
  | arrived arrival client => exact .started arrival client hm
  | told id event =>
      cases hx : p.exchange? id with
      | some x => exact .stepped id event x hm hx
      | none =>
          refine .rested (by simp [hm]) ?_ p p.kept_refl (by simp [attend, hm, deliver, hx])
          intro other heard hother
          rw [hm] at hother
          cases hother
          exact hx
  | upkeep what =>
      exact .rested (by simp [hm]) (by simp [hm]) _ (p.kept_keepUp m.files what)
        (by simp [attend, hm])

/-- The exchange that is told something takes its step. -/
theorem exchange?_attend_told {id : Nat} {event : Exchange.Event} {x : Exchange}
    (hm : m.what = .told id event) (hx : p.exchange? id = some x) :
    (p.attend m).1.exchange? id = some (x.next m.time event).1 := by
  have hid : (x.next m.time event).1.id = id := by
    rw [Exchange.id_next, id_of_exchange? hx]
  rw [p.attend_told hm hx, exchange?, find?_replace _ hid, ← exchange?, hx]
  simp

/-- An exchange stays as it is at moments that are not its own. -/
theorem exchange?_attend_of_not_told {id : Nat} {x : Exchange}
    (hm : ∀ event, m.what ≠ .told id event) (hx : p.exchange? id = some x) :
    (p.attend m).1.exchange? id = some x := by
  cases p.attends m with
  | started arrival client hwhat =>
      simp only [attend, hwhat]
      exact p.exchange?_arrive m.time arrival client id x hx
  | stepped other event y hwhat hy =>
      have hne : id ≠ other := fun heq => hm event (heq ▸ hwhat)
      have hid : (y.next m.time event).1.id = other := by
        rw [Exchange.id_next, id_of_exchange? hy]
      rw [p.attend_told hwhat hy, exchange?, find?_replace _ hid, ← exchange?, hx]
      simp [hne]
  | rested hwhat hnone q hkept hattend =>
      rw [hattend, exchange?, hkept.exchanges]
      exact hx

end Attend

end Proxy

end FaultInjection
