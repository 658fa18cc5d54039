import FaultInjection.Proofs.Proxy.Departure
import FaultInjection.Proofs.Simulation.Order
import Mathlib.Logic.Relation

/-!
# Simulations - Timetables

A simulation plays exchanges against a clock of its own.  Whatever is done with it, a timetable
that runs tells the same: the moments come one after the other by the clock, a timer fires at the
time at which it is due, and none is overdue.  So what holds of every timetable holds of every
simulation.

The timetable knows nothing of the listener, which takes part in no exchange.

Main definitions:

- `Simulation.Becomes`, what can be done with a simulation, and `Simulation.IsReached`.
- `Timetable.Mirrors`, a timetable with the proxy and the timers of a simulation.
- `Timetable.LeadsTo`, the moments that lead to such a timetable.

Main results:

- `Timetable.Mirrors.step?`: a timetable goes on with the task that is due first.
- `Timetable.Mirrors.runUntil` and `Timetable.Mirrors.advance`: it goes on with any run of tasks.
- `Timetable.exists_run_of_isReached`: whatever is done with a simulation, a timetable that runs
  tells the same.
- `Simulation.length_timers_of_isReached`: an exchange has a timer on the agenda exactly while it
  holds a message back.
-/

namespace FaultInjection

/-! ## The listener -/

/-- The history with some state of the listener. -/
def History.listening (h : History) (running : Bool) (port : Number) : History :=
  { h with running, port }

/-- The proxy with some state of the listener. -/
def Proxy.listening (p : Proxy) (running : Bool) (port : Number) : Proxy :=
  { p with history := p.history.listening running port }

section Listening

variable (running : Bool) (port : Number)

theorem History.amend_listening (h : History) (id : Number) (update : Update) :
    (h.listening running port).amend id update =
      ((h.amend id update).1.listening running port, (h.amend id update).2) := by
  have hentries : (h.listening running port).entries = h.entries := rfl
  unfold amend
  rw [hentries]
  split <;> rfl

theorem History.record_listening (h : History) (entry : Entry) :
    (h.listening running port).record entry =
      ((h.record entry).1.listening running port, (h.record entry).2) := by
  simp only [record, listening]

namespace Admin

/-- An action of the administrator leaves the listener alone. -/
theorem proxy_perform_listening (files : Files) (p : Proxy) (l : Locator) (action : Action) :
    (perform files (p.listening running port) l action).proxy =
      (perform files p l action).proxy.listening running port := by
  have hrules : ∀ q answer, (withRules q answer).proxy = q := by
    intro q answer
    unfold withRules
    split <;> rfl
  cases action with
  | showState => simp only [perform, hrules]
  | showRules => simp only [perform, hrules]
  | reload => rfl
  | showHistory => rfl
  | clearHistory => rfl

theorem proxy_handle_listening (files : Files) (p : Proxy) (method path : String) :
    (handle files (p.listening running port) method path).proxy =
      (handle files p method path).proxy.listening running port := by
  have hmethod : ∀ name l, (handleMethod files (p.listening running port) name l).proxy =
      (handleMethod files p name l).proxy.listening running port := by
    intro name l
    unfold handleMethod
    split
    · exact proxy_perform_listening running port files p l _
    · rfl
  unfold handle
  dsimp only
  split
  · exact hmethod _ _
  · exact hmethod _ _

end Admin

namespace Proxy

/-- An effect of an exchange leaves the listener alone. -/
theorem record_listening (id : Nat) (h : History) (effect : Exchange.Effect) :
    record id (h.listening running port) effect = (record id h effect).listening running port := by
  cases effect with
  | amend update => rw [record, History.amend_listening, record]
  | close outcome update =>
      exact congrArg Prod.fst (History.amend_listening running port
        { h with tallies := h.tallies.countEnd outcome } _ _)
  | _ => rfl

theorem foldl_record_listening (id : Nat) (h : History) (effects : List Exchange.Effect) :
    effects.foldl (record id) (h.listening running port) =
      (effects.foldl (record id) h).listening running port := by
  induction effects generalizing h with
  | nil => rfl
  | cons effect rest ih => rw [List.foldl_cons, record_listening, ih, List.foldl_cons]

/-- What happens apart from the exchanges leaves the listener alone. -/
theorem keepUp_listening (p : Proxy) (files : Files) (what : Upkeep) :
    (p.listening running port).keepUp files what =
      (p.keepUp files what).listening running port := by
  cases what with
  | administered method path => exact Admin.proxy_handle_listening running port files p method path
  | _ => rfl

/-- What an exchange is told does not concern the listener. -/
theorem deliver_listening (p : Proxy) (now : Number) (id : Nat) (event : Exchange.Event) :
    (p.listening running port).deliver now id event =
      ((p.deliver now id event).1.listening running port, (p.deliver now id event).2) := by
  have hexchange : (p.listening running port).exchange? id = p.exchange? id := rfl
  rw [deliver, deliver, hexchange]
  cases p.exchange? id with
  | none => rfl
  | some x => simp only [recordAll, listening, foldl_record_listening]

/-- A request that arrives does not concern the listener. -/
theorem arrive_listening [Domain.Mapping] (p : Proxy) (now : Number) (arrival : Arrival)
    (client : Client) :
    (p.listening running port).arrive now arrival client =
      ((p.arrive now arrival client).1.listening running port,
        (p.arrive now arrival client).2) := by
  have hissued : (p.listening running port).history.issueId =
      (p.history.lastId + 1, p.history.issueId.2.listening running port) := rfl
  rw [arrive, arrive, hissued]
  dsimp only
  rw [History.record_listening]
  simp only [recordAll, listening, foldl_record_listening]
  rfl

/-- The listener has no part in delays. -/
theorem noneNegative_listening_iff {p : Proxy} :
    (p.listening running port).NoneNegative ↔ p.NoneNegative :=
  ⟨fun h => ⟨h.config, h.exchanges⟩, fun h => ⟨h.config, h.exchanges⟩⟩

end Proxy

end Listening

namespace Simulation

/-! ## Sessions -/

/-- What can be done with a simulation in one go. -/
inductive Becomes [Domain.Mapping] (s : Simulation) : Simulation → Prop
  /-- A scene begins. -/
  | started {name : String} {scene : Scene} {next : Simulation} {id : Nat}
      (hscene : scene.NoneNegative) (h : s.start name scene = some (next, id)) : Becomes s next
  /-- Tasks are done until an exchange is settled. -/
  | settled {id : Nat} {next : Simulation} (h : s.settle id = some next) : Becomes s next
  /-- Tasks are done until some milliseconds have passed. -/
  | advanced {milliseconds : Number} {next : Simulation} (hpasses : milliseconds.IsNonneg)
      (h : s.advance milliseconds = some next) : Becomes s next
  /-- A client leaves. -/
  | departed (p : Performance) : Becomes s (s.depart p)
  | filed (files : Files) : Becomes s { s with files }
  | reported (threshold : Log.Level) (lines : List Log.Line)
      (notices : List RuleSource.Notice) : Becomes s { s with threshold, lines, notices }
  | listened (port : Number) (reported : Option Number) : Becomes s (s.listening port reported)
  | reloaded : Becomes s s.reload.1
  | sourceStarted (watch : Bool) : Becomes s (s.startSource watch).1
  | sourceStopped : Becomes s s.stopSource
  | fileEvent (event : RuleSource.FileEvent) : Becomes s (s.fileEvent event)
  | administered (method path : String) : Becomes s (s.administer method path).1

/-- A simulation with a new source, before anything is done with it. -/
def ofPath (directory path : String) : Simulation :=
  { proxy := { source := .ofPath directory path } }

/-- A simulation that comes of anything that is done with a new one. -/
def IsReached [Domain.Mapping] (directory path : String) (s : Simulation) : Prop :=
  Relation.ReflTransGen Becomes (ofPath directory path) s

end Simulation

/-! ## Timetables of simulations -/

namespace Timetable

/-- A timetable of a simulation: the same proxy, save for the state of the listener, and the same
timers. -/
structure Mirrors (t : Timetable) (s : Simulation) : Prop where
  clock : t.clock.le s.clock = true
  timers : t.timers.Perm s.agenda.timers
  proxy : ∃ running port, s.proxy = t.chronicle.proxy.listening running port
  inOrder : s.InOrder

/-- Moments lead from a timetable to one of a simulation. -/
def LeadsTo [Domain.Mapping] (t : Timetable) (s : Simulation) : Prop :=
  ∃ moments later, t.run? moments = some later ∧ later.Mirrors s

section LeadsTo

variable [Domain.Mapping] {t : Timetable} {s next : Simulation}

theorem Mirrors.leadsTo (h : t.Mirrors s) : t.LeadsTo s := ⟨[], t, rfl, h⟩

/-- A moment that can come next comes before those that follow it. -/
theorem leadsTo_of_next {m : Moment} (hm : t.isTimely m = true) (h : (t.next m).LeadsTo s) :
    t.LeadsTo s := by
  obtain ⟨moments, later, hrun, hmirrors⟩ := h
  exact ⟨m :: moments, later, run?_cons_eq_some_iff.2 ⟨hm, hrun⟩, hmirrors⟩

theorem LeadsTo.bind (h : t.LeadsTo s) (hnext : ∀ later : Timetable, later.Mirrors s →
    later.LeadsTo next) : t.LeadsTo next := by
  obtain ⟨first, now, hfirst, hnow⟩ := h
  obtain ⟨second, later, hsecond, hlater⟩ := hnext now hnow
  exact ⟨first ++ second, later, by rw [run?_append, hfirst]; exact hsecond, hlater⟩

end LeadsTo

section Mirrors

variable {t : Timetable} {s : Simulation}

/-- Nothing is overdue by the clock of a simulation. -/
theorem Mirrors.isTimely (h : t.Mirrors s) {m : Moment} (hclock : s.clock = m.time)
    (hfiring : m.firing? = none) : t.isTimely m = true := by
  refine isTimely_iff.2 ⟨hclock ▸ h.clock, fun timer htimer => ?_, by simp [hfiring]⟩
  obtain ⟨a, ha, hdue⟩ := Agenda.exists_of_mem_timers (h.timers.mem_iff.1 htimer)
  rw [← hdue, ← hclock]
  exact Number.lt_eq_false_of_le (h.inOrder.agenda.due a ha).2

variable [Domain.Mapping]

/-- Where an exchange of a simulation asks for things at a moment, a timetable goes on with it. -/
theorem mirrors_react {m : Moment} {id : Nat} {effects : List Exchange.Effect}
    (heffects : (t.chronicle.proxy.attend m).2 = effects.map (id, ·)) (hclock : s.clock = m.time)
    (hproxy : ∃ running port, s.proxy = (t.next m).chronicle.proxy.listening running port)
    (hs : s.InOrder) (htimers : (m.expire t.timers).Perm s.agenda.timers)
    (hnonneg : ∀ milliseconds, .setTimer milliseconds ∈ effects → milliseconds.IsNonneg) :
    (t.next m).Mirrors (effects.foldl (Simulation.react id) s) := by
  obtain ⟨hclocks, hproxies⟩ := Simulation.frame_foldl_react s id effects
  obtain ⟨hlater, hperm⟩ := hs.foldl_react id hnonneg
  refine ⟨?_, ?_, by rwa [hproxies], hlater⟩
  · rw [hclocks, hclock]
    have htime : m.time.IsNonneg := hclock ▸ hs.clock.isNonneg
    exact htime.le_refl
  · rw [next, heffects, ← hclock]
    exact (perm_foldl_wind htimers s.clock _).trans hperm.symm

/-- An exchange is told something now, at a moment that takes its timer off if the timer fires. -/
theorem mirrors_deliver {m : Moment} {id : Nat} {event : Exchange.Event}
    (hwhat : m.what = .told id event) (hclock : s.clock = m.time)
    (hproxy : ∃ running port, s.proxy = t.chronicle.proxy.listening running port)
    (hs : s.InOrder) (htimers : (m.expire t.timers).Perm s.agenda.timers) :
    (t.next m).Mirrors (Simulation.deliver id s event) := by
  obtain ⟨running, port, hproxy⟩ := hproxy
  have hattend : t.chronicle.proxy.attend m =
      ((t.chronicle.proxy.deliver m.time id event).1,
        (t.chronicle.proxy.deliver m.time id event).2.map (id, ·)) := by
    rw [Proxy.attend, hwhat]
  have hp : t.chronicle.proxy.NoneNegative :=
    (Proxy.noneNegative_listening_iff running port).1 (hproxy ▸ hs.proxy)
  obtain ⟨hnext, hnonneg⟩ := Proxy.noneNegative_attend hp m
  rw [hattend] at hnext hnonneg
  have hdeliver : s.proxy.deliver s.clock id event =
      ((t.chronicle.proxy.deliver m.time id event).1.listening running port,
        (t.chronicle.proxy.deliver m.time id event).2) := by
    rw [hproxy, hclock, Proxy.deliver_listening]
  rw [Simulation.deliver, hdeliver]
  refine mirrors_react (by rw [hattend]) hclock ⟨running, port, ?_⟩
    ⟨hs.clock, hs.agenda, hs.servers, (Proxy.noneNegative_listening_iff running port).2 hnext⟩
    htimers fun milliseconds hmem => hnonneg id milliseconds (List.mem_map_of_mem hmem)
  rw [next, Chronicle.next, hattend]

/-- A timetable goes on with what an exchange is told now, save that its timer has fired. -/
theorem Mirrors.deliverAll (h : t.Mirrors s) (id : Nat) {events : List Exchange.Event}
    (hevents : .timerFired ∉ events) : t.LeadsTo (s.deliverAll id events) := by
  induction events generalizing t s with
  | nil => exact h.leadsTo
  | cons event rest ih =>
      obtain ⟨hevent, hrest⟩ := not_or.1 (mt List.mem_cons.2 hevents)
      let m : Moment := ⟨s.clock, s.files, .told id event⟩
      have hfiring : m.firing? = none := by
        rw [Option.eq_none_iff_forall_ne_some]
        intro other hother
        cases Moment.firing?_eq_some_iff.1 hother
        exact hevent rfl
      have htimers : (m.expire t.timers).Perm s.agenda.timers := by
        rw [Moment.expire, hfiring]
        exact h.timers
      have hnext := mirrors_deliver (m := m) rfl rfl h.proxy h.inOrder htimers
      exact leadsTo_of_next (h.isTimely rfl hfiring) (ih hnext hrest)

/-! ## Tasks -/

/-- A timetable goes on where the timer that is due first fires. -/
theorem Mirrors.fire (h : t.Mirrors s) {id : Nat} {due : Number} {rest : Agenda Task}
    (hagenda : s.agenda = ⟨due, .delay id⟩ :: rest) :
    t.LeadsTo (Simulation.deliver id { s with agenda := rest, clock := due } .timerFired) := by
  obtain ⟨hclock, hin⟩ := h.inOrder.tail hagenda
  let m : Moment := ⟨due, s.files, .told id .timerFired⟩
  have htimers : t.timers.Perm ((id, due) :: rest.timers) := by
    have hperm := h.timers
    rwa [hagenda, Agenda.timers_cons] at hperm
  have htimely : t.isTimely m = true := by
    refine isTimely_iff.2 ⟨?_, fun timer htimer => ?_, fun other hother => ?_⟩
    · exact Number.le_trans h.clock hclock
    · rcases List.mem_cons.1 (htimers.mem_iff.1 htimer) with rfl | hlater
      · exact Number.lt_eq_false_of_le hin.clock.isNonneg.le_refl
      · obtain ⟨a, ha, hdue⟩ := Agenda.exists_of_mem_timers hlater
        rw [← hdue]
        exact Number.lt_eq_false_of_le (hin.agenda.due a ha).2
    · cases Moment.firing?_eq_some_iff.1 hother
      exact mem_under_iff.2 (htimers.mem_iff.2 (List.mem_cons_self ..))
  have hexpire : (m.expire t.timers).Perm rest.timers := by
    have herase := htimers.erase (id, due)
    rwa [List.erase_cons_head] at herase
  let now : Simulation := { s with agenda := rest, clock := due }
  exact leadsTo_of_next htimely
    (mirrors_deliver (m := m) (s := now) rfl rfl h.proxy hin hexpire).leadsTo

/-- A timetable goes on with the task that is due first: a timer fires, a server answers, or a
client leaves. -/
theorem Mirrors.step? (h : t.Mirrors s) {next : Simulation} (hstep : s.step? = some next) :
    t.LeadsTo next := by
  unfold Simulation.step? at hstep
  split at hstep
  · cases hstep
  · rename_i first rest hagenda
    cases hstep
    -- A task other than a timer is taken from the agenda alone.
    have hother : first.timer? = none →
        t.Mirrors { s with agenda := rest, clock := first.due } := by
      intro hnone
      obtain ⟨hclock, hin⟩ := h.inOrder.tail hagenda
      refine ⟨Number.le_trans h.clock hclock, ?_, h.proxy, hin⟩
      have htimers := h.timers
      rwa [hagenda, Agenda.timers_cons, hnone] at htimers
    obtain ⟨due, task⟩ := first
    cases task with
    | delay id => exact h.fire hagenda
    | answer id =>
        have htail := hother rfl
        simp only [Simulation.perform]
        split
        · exact htail.deliverAll id (ServerAnswer.timerFired_not_mem_events _)
        · exact htail.leadsTo
    | departure id =>
        have htail := hother rfl
        simp only [Simulation.perform]
        split
        · exact htail.deliverAll _ (Scene.timerFired_not_mem_departureEvents _)
        · exact htail.leadsTo

/-- A timetable goes on with any run of tasks. -/
theorem Mirrors.runUntil (h : t.Mirrors s) {isDone : Simulation → Bool} {fuel : Nat}
    {next : Simulation} (hrun : Simulation.runUntil isDone fuel s = some next) :
    t.LeadsTo next :=
  (Simulation.runUntil_induction (motive := t.LeadsTo) h.leadsTo
    (fun _ _ hnow _ hstep => hnow.bind fun _ hmirrors => hmirrors.step? hstep) hrun).1

/-- A timetable goes on until some milliseconds have passed. -/
theorem Mirrors.advance (h : t.Mirrors s) {milliseconds : Number} (hpasses : milliseconds.IsNonneg)
    {next : Simulation} (hadvance : s.advance milliseconds = some next) : t.LeadsTo next := by
  obtain ⟨htime, hclock⟩ := h.inOrder.clock.add hpasses
  obtain ⟨last, hrun, rfl⟩ := Option.map_eq_some_iff.1 hadvance
  obtain ⟨⟨hlast, hbefore⟩, hend⟩ := Simulation.runUntil_induction
    (motive := fun now => t.LeadsTo now ∧ now.clock.le (s.clock + milliseconds) = true)
    ⟨h.leadsTo, hclock⟩ (fun now next hnow hgoes hstep => by
      obtain ⟨-, later, -, hmirrors⟩ := hnow.1
      exact ⟨hnow.1.bind fun _ hnow => hnow.step? hstep,
        hmirrors.inOrder.clock_step?_le htime hgoes hstep⟩) hrun
  have hidle : Simulation.isIdleUntil (s.clock + milliseconds) last = true := by
    rcases hend with hidle | hnil
    · exact hidle
    · rw [Simulation.isIdleUntil, hnil]
  exact hlast.bind fun later hlater => Mirrors.leadsTo
    ⟨Number.le_trans hlater.clock hbefore, hlater.timers, hlater.proxy,
      hlater.inOrder.forward htime hidle⟩

/-! ## What is done with a simulation -/

/-- A timetable goes on with what happens to a simulation apart from its exchanges. -/
theorem Mirrors.keepUp (h : t.Mirrors s) (what : Proxy.Upkeep) {next : Simulation}
    (hproxy : next.proxy = s.proxy.keepUp s.files what) (hclock : next.clock = s.clock)
    (hagenda : next.agenda = s.agenda) (hperformances : next.performances = s.performances) :
    t.LeadsTo next := by
  obtain ⟨running, port, hlistening⟩ := h.proxy
  let m : Moment := ⟨s.clock, s.files, .upkeep what⟩
  have hkept : next.proxy.NoneNegative :=
    hproxy ▸ Proxy.noneNegative_keepUp h.inOrder.proxy s.files what
  rw [hlistening, Proxy.keepUp_listening] at hproxy
  refine leadsTo_of_next (m := m) (h.isTimely rfl rfl) (Mirrors.leadsTo ⟨?_, ?_, ?_, ?_⟩)
  · rw [hclock]
    exact h.inOrder.clock.isNonneg.le_refl
  · rw [hagenda]
    exact h.timers
  · exact ⟨running, port, hproxy⟩
  · refine ⟨hclock ▸ h.inOrder.clock, ?_, hperformances ▸ h.inOrder.servers, hkept⟩
    rw [hclock, hagenda]
    exact h.inOrder.agenda

/-- A request arrives now, when the agenda may have been given what else is to come. -/
theorem Mirrors.arrive (h : t.Mirrors s) {arrival : Arrival} {client : Client} {proxy : Proxy}
    {id : Nat} {effects : List Exchange.Effect}
    (harrive : s.proxy.arrive s.clock arrival client = (proxy, id, effects)) :
    proxy.NoneNegative ∧ ∀ expecting : Simulation, expecting.proxy = proxy →
      expecting.clock = s.clock → t.timers.Perm expecting.agenda.timers → expecting.InOrder →
        (t.next ⟨s.clock, s.files, .arrived arrival client⟩).Mirrors
          (effects.foldl (Simulation.react id) expecting) := by
  obtain ⟨running, port, hproxy⟩ := h.proxy
  let m : Moment := ⟨s.clock, s.files, .arrived arrival client⟩
  have hattend : t.chronicle.proxy.attend m =
      let arrived := t.chronicle.proxy.arrive s.clock arrival client
      (arrived.1, arrived.2.2.map (arrived.2.1, ·)) := rfl
  rw [hproxy, Proxy.arrive_listening] at harrive
  cases harrive
  have hp : t.chronicle.proxy.NoneNegative :=
    (Proxy.noneNegative_listening_iff running port).1 (hproxy ▸ h.inOrder.proxy)
  obtain ⟨hnext, hnonneg⟩ := Proxy.noneNegative_attend hp m
  rw [hattend] at hnext hnonneg
  refine ⟨(Proxy.noneNegative_listening_iff running port).2 hnext, ?_⟩
  intro expecting hsame hclock htimers hin
  exact mirrors_react (m := m) (congrArg Prod.snd hattend) hclock ⟨running, port, hsame⟩ hin htimers
    fun milliseconds hmem => hnonneg _ milliseconds (List.mem_map_of_mem hmem)

/-- A timetable goes on with a scene that begins, if nothing in it takes less than no time. -/
theorem Mirrors.start (h : t.Mirrors s) {name : String} {scene : Scene}
    (hscene : scene.NoneNegative) {next : Simulation} {id : Nat}
    (hstart : s.start name scene = some (next, id)) : t.LeadsTo next := by
  let m : Moment := ⟨s.clock, s.files, .arrived scene.arrival scene.client⟩
  have htimely : t.isTimely m = true := h.isTimely rfl rfl
  unfold Simulation.start at hstart
  split at hstart
  · rcases harrive : s.proxy.arrive s.clock scene.arrival scene.client with ⟨proxy, issued, effects⟩
    rw [harrive] at hstart
    obtain ⟨hproxy, hmirrors⟩ := h.arrive harrive
    have hservers : ∀ p ∈ s.performances ++ [{ id := issued, name, scene }],
        p.scene.server.delay.IsNonneg := by
      intro p hp
      rcases List.mem_append.1 hp with hold | hnew
      · exact h.inOrder.servers p hold
      · rw [List.mem_singleton.1 hnew]
        exact hscene.server
    let arrived : Simulation :=
      { s with proxy, performances := s.performances ++ [{ id := issued, name, scene }] }
    have hin : arrived.InOrder := ⟨h.inOrder.clock, h.inOrder.agenda, hservers, hproxy⟩
    -- Whether or not the client is to leave, no timer is scheduled yet.
    cases hdeparture : scene.departure with
    | none =>
        have hbegun := hmirrors arrived rfl rfl h.timers hin
        simp only [hdeparture] at hstart
        cases hstart
        exact leadsTo_of_next htimely
          (hbegun.deliverAll id scene.delivery.timerFired_not_mem_requestEvents)
    | some milliseconds =>
        have htimers := Agenda.perm_timers_schedule s.agenda (s.clock + milliseconds)
          (.departure issued)
        rw [Appointment.timer?, Option.toList_none, List.append_nil] at htimers
        have hbegun := hmirrors (arrived.schedule milliseconds (.departure issued)) rfl rfl
          (h.timers.trans htimers.symm) (hin.schedule (hscene.departure _ hdeparture) _)
        simp only [hdeparture] at hstart
        cases hstart
        exact leadsTo_of_next htimely
          (hbegun.deliverAll id scene.delivery.timerFired_not_mem_requestEvents)
  · cases hstart

/-- A timetable goes on with whatever is done with a simulation. -/
theorem Mirrors.becomes (h : t.Mirrors s) {next : Simulation} (hnext : s.Becomes next) :
    t.LeadsTo next := by
  cases hnext with
  | started hscene hstart => exact h.start hscene hstart
  | settled hsettle => exact h.runUntil hsettle
  | advanced hpasses hadvance => exact h.advance hpasses hadvance
  | departed p => exact h.deliverAll p.id p.scene.timerFired_not_mem_departureEvents
  | filed files =>
      exact Mirrors.leadsTo ⟨h.clock, h.timers, h.proxy, h.inOrder.clock, h.inOrder.agenda,
        h.inOrder.servers, h.inOrder.proxy⟩
  | reported threshold lines notices =>
      exact Mirrors.leadsTo ⟨h.clock, h.timers, h.proxy, h.inOrder.clock, h.inOrder.agenda,
        h.inOrder.servers, h.inOrder.proxy⟩
  | listened port reported =>
      obtain ⟨running, before, hproxy⟩ := h.proxy
      have hlistening : (s.listening port reported).proxy =
          t.chronicle.proxy.listening true (reported.getD port) := by
        rw [Simulation.listening, hproxy]
        rfl
      exact Mirrors.leadsTo ⟨h.clock, h.timers, ⟨_, _, hlistening⟩, h.inOrder.clock,
        h.inOrder.agenda, h.inOrder.servers, h.inOrder.proxy.config, h.inOrder.proxy.exchanges⟩
  | reloaded => exact h.keepUp .reloaded rfl rfl rfl rfl
  | sourceStarted watch => exact h.keepUp (.sourceStarted watch) rfl rfl rfl rfl
  | sourceStopped => exact h.keepUp .sourceStopped rfl rfl rfl rfl
  | fileEvent event =>
      unfold Simulation.fileEvent
      split
      · exact h.leadsTo
      · exact h.keepUp (.fileEvent _ event) rfl rfl rfl rfl
  | administered method path => exact h.keepUp (.administered method path) rfl rfl rfl rfl

end Mirrors

/-- The timetable of a new source is one of a new simulation. -/
theorem mirrors_start {source : RuleSource} (hsource : source.config = none) :
    (start source).Mirrors { proxy := { source } } := by
  have hzero : (0 : Number).IsTime := Number.isTime_zero
  refine ⟨Number.infinite_le_of_le hzero.isNonneg.le_refl, .refl _, ⟨_, _, rfl⟩,
    hzero, ⟨.nil, by simp⟩, by simp, ⟨?_, by simp⟩⟩
  simp [hsource]

/-- Whatever is done with a simulation is told by a timetable that runs: its moments come one after
the other by the clock, and each timer fires when it is due. -/
theorem exists_run_of_isReached [Domain.Mapping] {directory path : String} {s : Simulation}
    (h : s.IsReached directory path) :
    ∃ moments later, (start (.ofPath directory path)).run? moments = some later ∧
      later.Mirrors s := by
  induction h with
  | refl => exact Mirrors.leadsTo (mirrors_start rfl)
  | tail _ hnext ih => exact LeadsTo.bind ih fun later hlater => hlater.becomes hnext

end Timetable

namespace Simulation

/-- An exchange of a simulation has one timer on the agenda while it holds a message back, and
none otherwise. -/
theorem length_timers_of_isReached [Domain.Mapping] {directory path : String} {s : Simulation}
    (h : s.IsReached directory path) {id : Nat} {x : Exchange}
    (hx : s.proxy.exchange? id = some x) :
    (under id s.agenda.timers).length = x.isHolding.toNat := by
  obtain ⟨moments, later, hrun, hmirrors⟩ := Timetable.exists_run_of_isReached h
  obtain ⟨running, port, hproxy⟩ := hmirrors.proxy
  rw [hproxy] at hx
  obtain ⟨c, rfl, hkeeps⟩ := Timetable.exists_keeps_run (Timetable.numbered_start _)
    (fun _ _ hnone => nomatch hnone) hrun hx
  rw [← hkeeps.length_timersOf]
  exact ((hmirrors.timers.filter _).map _).length_eq.symm

end Simulation

end FaultInjection
