import FaultInjection.Proofs.Proxy.TimerLengths
import FaultInjection.Proofs.Proxy.Timetable
import FaultInjection.Simulation

/-!
# Simulations - The order of tasks

The agenda of a simulation is in the order of its times, and none of them is before the clock.
Each task keeps it so: what an exchange asks for comes later, since neither a timer nor a server
takes less than no time.  A run of tasks therefore does the tasks one after the other by the clock.

Main definitions:

- `Agenda.InOrder`, an agenda in the order of its times.
- `Agenda.timers`, the timers on an agenda.
- `Simulation.InOrder`, a simulation whose agenda is in order.

Main results:

- `Agenda.InOrder.schedule`: a task that is scheduled leaves an agenda in order.
- `Simulation.InOrder.foldl_react`: effects of an exchange leave a simulation in order, and timers
  are set and dropped as a timetable has it.
- `Simulation.runUntil_induction`: what each task keeps holds after a run of tasks.
-/

namespace FaultInjection

/-! ## Agendas in order -/

namespace Agenda

variable {α : Type}

/-- An agenda in the order of its times, none of which is before that of the clock. -/
structure InOrder (clock : Number) (agenda : Agenda α) : Prop where
  sorted : agenda.Pairwise fun first second => first.due.le second.due = true
  due : ∀ a ∈ agenda, a.due.IsTime ∧ clock.le a.due = true

section InOrder

variable {clock : Number} {agenda : Agenda α}

/-- A task that is scheduled takes the place that its time has. -/
theorem pairwise_schedule (hsorted : agenda.Pairwise fun first second => first.due.le second.due)
    (hnonneg : ∀ a ∈ agenda, a.due.IsNonneg) {due : Number} (hdue : due.IsNonneg) (task : α) :
    (agenda.schedule due task).Pairwise fun first second => first.due.le second.due := by
  induction agenda with
  | nil => exact List.pairwise_singleton ..
  | cons first rest ih =>
      obtain ⟨hfirst, hrest⟩ := List.pairwise_cons.1 hsorted
      obtain ⟨hfirstNonneg, hrestNonneg⟩ := List.forall_mem_cons.1 hnonneg
      rw [schedule]
      split
      · rename_i hbefore
        refine List.pairwise_cons.2 ⟨fun a ha => ?_, hsorted⟩
        rcases List.mem_cons.1 ha with rfl | hlater
        · exact Number.le_of_lt hbefore
        · exact Number.le_trans (Number.le_of_lt hbefore) (hfirst a hlater)
      · rename_i hbehind
        refine List.pairwise_cons.2 ⟨fun a ha => ?_, ih hrest hrestNonneg⟩
        rcases List.mem_cons.1 ((perm_schedule due task rest).mem_iff.1 ha) with rfl | hlater
        · exact hdue.le_of_lt_eq_false hfirstNonneg (Bool.eq_false_iff.2 hbehind)
        · exact hfirst a hlater

/-- A task that is due no sooner than now leaves an agenda in order. -/
theorem InOrder.schedule (h : InOrder clock agenda) {due : Number} (hdue : due.IsTime)
    (hclock : clock.le due = true) (task : α) : InOrder clock (agenda.schedule due task) := by
  have hnonneg : ∀ a ∈ agenda, a.due.IsNonneg := fun a ha => (h.due a ha).1.isNonneg
  refine ⟨pairwise_schedule h.sorted hnonneg hdue.isNonneg task, fun a ha => ?_⟩
  rcases List.mem_cons.1 ((agenda.perm_schedule due task).mem_iff.1 ha) with rfl | hold
  · exact ⟨hdue, hclock⟩
  · exact h.due a hold

/-- Tasks that are taken off leave an agenda in order. -/
theorem InOrder.sublist (h : InOrder clock agenda) {kept : Agenda α}
    (hkept : List.Sublist kept agenda) : InOrder clock kept :=
  ⟨h.sorted.sublist hkept, fun a ha => h.due a (hkept.mem ha)⟩

/-- The clock can be put to the time of the task that is due first. -/
theorem InOrder.tail {first : Appointment α} {rest : Agenda α}
    (h : InOrder clock (first :: rest)) : InOrder first.due rest := by
  obtain ⟨hfirst, hrest⟩ := List.pairwise_cons.1 h.sorted
  exact ⟨hrest, fun a ha => ⟨(h.due a (List.mem_cons_of_mem _ ha)).1, hfirst a ha⟩⟩

end InOrder

end Agenda

/-! ## The timers on an agenda -/

/-- The timer that fires at an appointment, with the number of its exchange. -/
def Appointment.timer? (a : Appointment Task) : Option (Nat × Number) :=
  match a.task with
  | .delay id => some (id, a.due)
  | _ => none

namespace Agenda

/-- The timers that are running, with the times at which they are due. -/
def timers (agenda : Agenda Task) : List (Nat × Number) := agenda.filterMap Appointment.timer?

theorem timers_cons (first : Appointment Task) (rest : Agenda Task) :
    timers (first :: rest) = first.timer?.toList ++ timers rest := by
  rw [timers, List.filterMap_cons]
  cases first.timer? <;> rfl

/-- A timer that is set joins those that were running. -/
theorem perm_timers_schedule (agenda : Agenda Task) (due : Number) (task : Task) :
    (agenda.schedule due task).timers.Perm
      (agenda.timers ++ (Appointment.timer? ⟨due, task⟩).toList) := by
  refine ((agenda.perm_schedule due task).filterMap Appointment.timer?).trans ?_
  rw [← timers, timers_cons]
  exact List.perm_append_comm

/-- The timers of an exchange are taken off together. -/
theorem timers_cancel (agenda : Agenda Task) (id : Nat) :
    (agenda.cancel (.delay id)).timers = agenda.timers.filter fun timer => !(timer.1 == id) := by
  rw [timers, cancel, List.filterMap_filter, timers, List.filter_filterMap]
  refine List.filterMap_congr fun a _ => ?_
  rcases a with ⟨due, other | other | other⟩
  · by_cases h : other = id <;> simp [Appointment.timer?, Option.filter, h]
  · simp [Appointment.timer?]
  · simp [Appointment.timer?]

/-- What is running is due at the time of a task. -/
theorem exists_of_mem_timers {agenda : Agenda Task} {timer : Nat × Number}
    (h : timer ∈ agenda.timers) : ∃ a ∈ agenda, a.due = timer.2 := by
  obtain ⟨a, ha, htimer⟩ := List.mem_filterMap.1 h
  refine ⟨a, ha, ?_⟩
  unfold Appointment.timer? at htimer
  split at htimer
  · cases htimer
    rfl
  · cases htimer

end Agenda

/-! ## Parts -/

/-- No part of a client or a server is that a timer fires. -/
theorem Delivery.timerFired_not_mem_requestEvents (d : Delivery) :
    .timerFired ∉ d.requestEvents := by
  unfold requestEvents
  cases d.ending <;> simp

theorem Delivery.timerFired_not_mem_responseEvents (d : Delivery) :
    .timerFired ∉ d.responseEvents := by
  unfold responseEvents
  cases d.ending <;> simp

theorem ServerAnswer.timerFired_not_mem_events (answer : ServerAnswer) :
    .timerFired ∉ answer.events := by
  cases answer with
  | refusal cause => simp [events]
  | response status headers delivery =>
      simp [events, delivery.timerFired_not_mem_responseEvents]

theorem Scene.timerFired_not_mem_departureEvents (scene : Scene) :
    .timerFired ∉ scene.departureEvents := by
  unfold departureEvents
  split <;> simp

/-! ## Timers in another order -/

namespace Timetable

/-- Timers in another order are wound in the same way. -/
theorem perm_wind {timers others : List (Nat × Number)} (h : timers.Perm others) (time : Number)
    (effect : Nat × Exchange.Effect) :
    (wind time timers effect).Perm (wind time others effect) := by
  obtain ⟨id, effect⟩ := effect
  cases effect with
  | setTimer milliseconds => exact h.append_right _
  | dropTimer => exact h.filter _
  | _ => exact h

theorem perm_foldl_wind {timers others : List (Nat × Number)} (h : timers.Perm others)
    (time : Number) (effects : List (Nat × Exchange.Effect)) :
    (effects.foldl (wind time) timers).Perm (effects.foldl (wind time) others) := by
  induction effects generalizing timers others with
  | nil => exact h
  | cons effect rest ih => exact ih (perm_wind h time effect)

end Timetable

/-! ## Simulations in order -/

/-- Neither does the server answer nor the client leave after less than no time. -/
structure Scene.NoneNegative (scene : Scene) : Prop where
  server : scene.server.delay.IsNonneg
  departure : ∀ milliseconds ∈ scene.departure, milliseconds.IsNonneg

namespace Simulation

/-- A simulation whose clock shows a time, with nothing on its agenda before that, and in which
nothing takes less than no time. -/
structure InOrder (s : Simulation) : Prop where
  clock : s.clock.IsTime
  agenda : s.agenda.InOrder s.clock
  servers : ∀ p ∈ s.performances, p.scene.server.delay.IsNonneg
  proxy : s.proxy.NoneNegative

/-- The clock can be put to the time of the task that is due first, which leaves the agenda. -/
theorem InOrder.tail {s : Simulation} (h : s.InOrder) {first : Appointment Task}
    {rest : Agenda Task} (hagenda : s.agenda = first :: rest) :
    s.clock.le first.due = true ∧
      ({ s with agenda := rest, clock := first.due } : Simulation).InOrder := by
  have horder := h.agenda
  rw [hagenda] at horder
  obtain ⟨htime, hclock⟩ := horder.due first (List.mem_cons_self ..)
  exact ⟨hclock, htime, horder.tail, h.servers, h.proxy⟩

/-! ## Effects -/

section Effects

variable {s : Simulation}

/-- A task that is scheduled some time from now leaves a simulation in order. -/
theorem InOrder.schedule (h : s.InOrder) {milliseconds : Number} (htime : milliseconds.IsNonneg)
    (task : Task) : (s.schedule milliseconds task).InOrder := by
  obtain ⟨hdue, hclock⟩ := h.clock.add htime
  exact ⟨h.clock, h.agenda.schedule hdue hclock task, h.servers, h.proxy⟩

/-- A server whose answer is awaited answers in no less than no time. -/
theorem InOrder.forwarded (h : s.InOrder) (id : Nat) (message : Forwarded) :
    (s.forwarded id message).InOrder := by
  have hdelay : (((s.performance? id).map fun (p : Performance) =>
      p.scene.server.delay).getD 0).IsNonneg := by
    cases hp : s.performance? id with
    | none => exact Number.isTime_zero.isNonneg
    | some p => exact h.servers p (List.mem_of_find?_eq_some hp)
  have hbase : ∀ performances : List Performance,
      (∀ p ∈ performances, p.scene.server.delay.IsNonneg) →
        ({ s with performances } : Simulation).InOrder :=
    fun performances hservers => ⟨h.clock, h.agenda, hservers, h.proxy⟩
  refine (hbase _ fun p hp => ?_).schedule hdelay _
  obtain ⟨old, hold, rfl⟩ := List.mem_map.1 hp
  split <;> exact h.servers old hold

/-- An effect of an exchange leaves a simulation in order, if no timer is set for less than no
time. -/
theorem InOrder.react (h : s.InOrder) (id : Nat) {effect : Exchange.Effect}
    (htimers : ∀ milliseconds, effect = .setTimer milliseconds → milliseconds.IsNonneg) :
    (Simulation.react id s effect).InOrder := by
  cases effect with
  | log entry => exact ⟨h.clock, h.agenda, h.servers, h.proxy⟩
  | forward message => exact h.forwarded id message
  | setTimer milliseconds => exact h.schedule (htimers milliseconds rfl) _
  | dropTimer => exact ⟨h.clock, h.agenda.sublist List.filter_sublist, h.servers, h.proxy⟩
  | _ => exact h

/-- An effect of an exchange concerns neither the clock nor the proxy. -/
theorem frame_react (s : Simulation) (id : Nat) (effect : Exchange.Effect) :
    (react id s effect).clock = s.clock ∧ (react id s effect).proxy = s.proxy := by
  cases effect <;> exact ⟨rfl, rfl⟩

/-- Timers are set and dropped as a timetable has it. -/
theorem perm_timers_react (s : Simulation) (id : Nat) (effect : Exchange.Effect) :
    (react id s effect).agenda.timers.Perm
      (Timetable.wind s.clock s.agenda.timers (id, effect)) := by
  cases effect with
  | forward message =>
      refine (Agenda.perm_timers_schedule ..).trans (.of_eq ?_)
      exact List.append_nil _
  | setTimer milliseconds => exact Agenda.perm_timers_schedule ..
  | dropTimer => exact .of_eq (Agenda.timers_cancel s.agenda id)
  | _ => exact .refl _

theorem frame_foldl_react (s : Simulation) (id : Nat) (effects : List Exchange.Effect) :
    (effects.foldl (react id) s).clock = s.clock ∧
      (effects.foldl (react id) s).proxy = s.proxy := by
  induction effects generalizing s with
  | nil => exact ⟨rfl, rfl⟩
  | cons effect rest ih =>
      obtain ⟨hclock, hproxy⟩ := frame_react s id effect
      obtain ⟨hclocks, hproxies⟩ := ih (react id s effect)
      exact ⟨hclocks.trans hclock, hproxies.trans hproxy⟩

/-- Effects of an exchange leave a simulation in order, and timers are set and dropped as a
timetable has it. -/
theorem InOrder.foldl_react (h : s.InOrder) (id : Nat) {effects : List Exchange.Effect}
    (htimers : ∀ milliseconds, .setTimer milliseconds ∈ effects → milliseconds.IsNonneg) :
    (effects.foldl (Simulation.react id) s).InOrder ∧
      (effects.foldl (Simulation.react id) s).agenda.timers.Perm
        ((effects.map (id, ·)).foldl (Timetable.wind s.clock) s.agenda.timers) := by
  induction effects generalizing s with
  | nil => exact ⟨h, .refl _⟩
  | cons effect rest ih =>
      have hfirst := h.react id fun milliseconds heq =>
        htimers milliseconds (heq ▸ List.mem_cons_self ..)
      obtain ⟨hlater, hperm⟩ := ih hfirst fun milliseconds hmem =>
        htimers milliseconds (List.mem_cons_of_mem _ hmem)
      rw [(frame_react s id effect).1] at hperm
      exact ⟨hlater, hperm.trans
        (Timetable.perm_foldl_wind (perm_timers_react s id effect) s.clock _)⟩

/-- The clock stands still while an exchange is told things. -/
theorem clock_deliverAll (s : Simulation) (id : Nat) (events : List Exchange.Event) :
    (s.deliverAll id events).clock = s.clock := by
  unfold deliverAll
  induction events generalizing s with
  | nil => rfl
  | cons event rest ih =>
      rw [List.foldl_cons, ih]
      exact (frame_foldl_react ..).1

/-- After a task the clock shows the time of the task. -/
theorem clock_of_step? {next : Simulation} (hstep : s.step? = some next) :
    ∃ first rest, s.agenda = first :: rest ∧ next.clock = first.due := by
  unfold step? at hstep
  split at hstep
  · cases hstep
  · rename_i first rest hagenda
    cases hstep
    refine ⟨first, rest, hagenda, ?_⟩
    cases first.task with
    | delay id => exact clock_deliverAll ..
    | answer id =>
        simp only [perform]
        split
        · exact clock_deliverAll ..
        · rfl
    | departure id =>
        simp only [perform]
        split
        · exact clock_deliverAll ..
        · rfl

end Effects

/-! ## Runs -/

/-- A task that is done as long as some are due by a time puts the clock to that time at most. -/
theorem InOrder.clock_step?_le {s next : Simulation} (h : s.InOrder) {time : Number}
    (htime : time.IsTime) (hgoes : isIdleUntil time s = false) (hstep : s.step? = some next) :
    next.clock.le time = true := by
  obtain ⟨first, rest, hagenda, hdue⟩ := clock_of_step? hstep
  have hfirst := (h.agenda.due first (hagenda ▸ List.mem_cons_self ..)).1
  rw [isIdleUntil, hagenda] at hgoes
  rw [hdue]
  exact htime.isNonneg.le_of_lt_eq_false hfirst.isNonneg hgoes

/-- The clock can be put forward to a time by which no task is due. -/
theorem InOrder.forward {s : Simulation} (h : s.InOrder) {time : Number} (htime : time.IsTime)
    (hidle : isIdleUntil time s = true) : ({ s with clock := time } : Simulation).InOrder := by
  refine ⟨htime, ⟨h.agenda.sorted, fun a ha => ⟨(h.agenda.due a ha).1, ?_⟩⟩, h.servers, h.proxy⟩
  have hsorted := h.agenda.sorted
  cases hagenda : s.agenda with
  | nil =>
      rw [hagenda] at ha
      cases ha
  | cons first rest =>
      rw [isIdleUntil, hagenda] at hidle
      rw [hagenda] at ha hsorted
      rcases List.mem_cons.1 ha with rfl | hlater
      · exact Number.le_of_lt hidle
      · exact Number.le_trans (Number.le_of_lt hidle) ((List.pairwise_cons.1 hsorted).1 a hlater)

/-- What holds of a simulation and is kept by each task of a run holds after the run, which ends
at the point asked for or when nothing is left to do. -/
theorem runUntil_induction {motive : Simulation → Prop} {isDone : Simulation → Bool} {fuel : Nat}
    {s later : Simulation} (hstart : motive s)
    (hstep : ∀ now next, motive now → isDone now = false → now.step? = some next → motive next)
    (hrun : runUntil isDone fuel s = some later) :
    motive later ∧ (isDone later = true ∨ later.agenda = []) := by
  induction fuel generalizing s with
  | zero =>
      rw [runUntil] at hrun
      split at hrun
      · rename_i hend
        cases hrun
        exact ⟨hstart, by simpa using hend⟩
      · cases hrun
  | succ fuel ih =>
      rw [runUntil] at hrun
      split at hrun
      · rename_i hdone
        cases hrun
        exact ⟨hstart, .inl hdone⟩
      · rename_i hgoes
        split at hrun
        · rename_i hnone
          cases hrun
          refine ⟨hstart, .inr ?_⟩
          unfold step? at hnone
          split at hnone
          · assumption
          · cases hnone
        · rename_i next hnext
          exact ih (hstep s next hstart (Bool.eq_false_iff.2 hgoes) hnext) hrun

end Simulation

end FaultInjection
