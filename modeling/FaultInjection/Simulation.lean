import FaultInjection.Admin
import FaultInjection.Listening

/-!
# Simulation - Exchanges against a clock

A simulation runs a proxy against a clock of its own, with clients and servers whose
parts are written beforehand.  A client is served once connections are taken; it sends
the body of its request at once and can leave after a while.  A server answers some time
after it was asked.

What is to come stands on an agenda, in the order in which it is due; tasks that are due
at the same time stand in the order in which they were scheduled.  A task stays on the
agenda until it is due, also where its exchange has ended, and only the timer of a delay
is taken off.  A run of tasks goes on within a bound on their number; where more of them
are left to do, there is no result.

Main definitions:

- `Agenda`, with `Agenda.schedule` and `Agenda.cancel`.
- `Scene`, the parts of the client and the server of an exchange.
- `Simulation`, with `Simulation.start`, `Simulation.step?`, `Simulation.settle` and
  `Simulation.advance`.
- `Simulation.report?`, what has become of an exchange.

Main results:

- `Agenda.perm_schedule`: what is scheduled joins what was there.
-/

namespace FaultInjection

/-! ## Agendas -/

/-- A task with the time at which it is due. -/
structure Appointment (α : Type) where
  due : Number
  task : α
  deriving Repr

/-- Tasks in the order in which they are due. -/
abbrev Agenda (α : Type) := List (Appointment α)

namespace Agenda

variable {α : Type}

/-- The agenda with one more task, behind the tasks that are due by its time. -/
def schedule (due : Number) (task : α) : Agenda α → Agenda α
  | [] => [⟨due, task⟩]
  | first :: rest =>
    if due.lt first.due then ⟨due, task⟩ :: first :: rest else first :: schedule due task rest

/-- The agenda without a task. -/
def cancel [BEq α] (task : α) (agenda : Agenda α) : Agenda α :=
  agenda.filter fun appointment => appointment.task != task

/-- What is scheduled joins what was there. -/
theorem perm_schedule (due : Number) (task : α) (agenda : Agenda α) :
    (agenda.schedule due task).Perm (⟨due, task⟩ :: agenda) := by
  induction agenda with
  | nil => exact .refl _
  | cons first rest ih =>
      rw [schedule]
      split
      · exact .refl _
      · exact (ih.cons first).trans (.swap ⟨due, task⟩ first rest)

end Agenda

/-! ## Parts -/

/-- How a body ends. -/
inductive Ending where
  | complete
  /-- The connection is closed before that. -/
  | closed
  | failed (cause : Cause)
  /-- Nothing more happens. -/
  | outstanding
  deriving Repr, BEq

/-- A body in pieces. -/
structure Delivery where
  chunks : List Bytes := []
  ending : Ending := .complete
  deriving Repr

/-- What a server answers. -/
inductive ServerAnswer where
  /-- The server cannot be asked. -/
  | refusal (cause : Cause)
  | response (status : Option Number) (headers : List String) (delivery : Delivery)
  deriving Repr

/-- The part of a server. -/
structure Server where
  /-- The milliseconds after which it answers. -/
  delay : Number := 0
  answer : ServerAnswer
  deriving Repr

/-- The parts of the client and the server of an exchange. -/
structure Scene where
  arrival : Arrival
  delivery : Delivery := {}
  client : Client := {}
  /-- The milliseconds after which the client leaves. -/
  departure : Option Number := none
  server : Server
  deriving Repr

namespace Delivery

/-- The events of a request's body. -/
def requestEvents (d : Delivery) : List Exchange.Event :=
  d.chunks.map .requestChunk ++
    match d.ending with
    | .complete => [.requestEnd]
    | .closed => [.requestClosed]
    | .failed cause => [.requestFailed cause]
    | .outstanding => []

/-- The events of a response's body. -/
def responseEvents (d : Delivery) : List Exchange.Event :=
  d.chunks.map .responseChunk ++
    match d.ending with
    | .complete => [.responseEnd]
    | .closed => [.responseClosed]
    | .failed cause => [.forwardingFailed cause]
    | .outstanding => []

end Delivery

/-- The events of a server's answer. -/
def ServerAnswer.events : ServerAnswer → List Exchange.Event
  | refusal cause => [.forwardingFailed cause]
  | response status headers delivery =>
    .responseHead status (.ofFlat headers) :: delivery.responseEvents

/-- The events of a client that leaves. -/
def Scene.departureEvents (scene : Scene) : List Exchange.Event :=
  .clientLeft :: if scene.delivery.ending == .complete then [] else [.requestClosed]

/-! ## Simulations -/

/-- A task for an exchange. -/
inductive Task where
  /-- The timer of a delay fires. -/
  | delay (id : Nat)
  /-- The server answers. -/
  | answer (id : Nat)
  /-- The client leaves. -/
  | departure (id : Nat)
  deriving DecidableEq, Repr

/-- A scene that is played. -/
structure Performance where
  id : Nat
  name : String
  scene : Scene
  /-- The request as it was forwarded. -/
  forwarded : Option Forwarded := none

/-- A proxy with a clock, files, and scenes that are played. -/
structure Simulation where
  files : Files := []
  proxy : Proxy
  /-- Whether connections are taken. -/
  serving : Bool := false
  clock : Number := 0
  agenda : Agenda Task := []
  performances : List Performance := []
  threshold : Log.Level := .info
  /-- The lines written so far. -/
  lines : List Log.Line := []
  /-- What listeners of the rule source were told so far. -/
  notices : List RuleSource.Notice := []

namespace Simulation

/-- The performance of a number. -/
def performance? (s : Simulation) (id : Nat) : Option Performance :=
  s.performances.find? (·.id == id)

/-- The latest performance of a name. -/
def named? (s : Simulation) (name : String) : Option Performance :=
  s.performances.reverse.find? (·.name == name)

/-- The simulation with entries logged. -/
def logged (s : Simulation) (entries : List Log.Entry) : Simulation :=
  { s with lines := s.lines ++ entries.filterMap (·.line? s.threshold) }

/-- The simulation with a task scheduled some milliseconds from now. -/
def schedule (s : Simulation) (milliseconds : Number) (task : Task) : Simulation :=
  { s with agenda := s.agenda.schedule (s.clock + milliseconds) task }

/-- The simulation in which a request was forwarded. -/
def forwarded (s : Simulation) (id : Nat) (message : Forwarded) : Simulation :=
  let delay := ((s.performance? id).map (·.scene.server.delay)).getD 0
  let performances := s.performances.map fun (p : Performance) =>
    if p.id == id then { p with forwarded := some message } else p
  { s with performances }.schedule delay (.answer id)

/-- The simulation after an effect of an exchange. -/
def react (id : Nat) (s : Simulation) : Exchange.Effect → Simulation
  | .log entry => s.logged [entry]
  | .forward message => s.forwarded id message
  | .setTimer milliseconds => s.schedule milliseconds (.delay id)
  | .dropTimer => { s with agenda := s.agenda.cancel (.delay id) }
  | _ => s

/-- The simulation after an event of an exchange. -/
def deliver (id : Nat) (s : Simulation) (event : Exchange.Event) : Simulation :=
  let (proxy, effects) := s.proxy.deliver s.clock id event
  effects.foldl (react id) { s with proxy }

/-- The simulation after events of an exchange. -/
def deliverAll (s : Simulation) (id : Nat) (events : List Exchange.Event) : Simulation :=
  events.foldl (deliver id) s

/-- The simulation in which the client of a performance leaves. -/
def depart (s : Simulation) (p : Performance) : Simulation :=
  s.deliverAll p.id p.scene.departureEvents

/-- The simulation after a task. -/
def perform (s : Simulation) : Task → Simulation
  | .delay id => s.deliverAll id [.timerFired]
  | .answer id =>
    match s.performance? id with
    | some p => s.deliverAll id p.scene.server.answer.events
    | none => s
  | .departure id =>
    match s.performance? id with
    | some p => s.depart p
    | none => s

/-- The simulation in which a scene has begun, and the number of its exchange; a scene does not
begin where no connections are taken. -/
def start [Domain.Mapping] (s : Simulation) (name : String) (scene : Scene) :
    Option (Simulation × Nat) :=
  if s.serving then
    let (proxy, id, effects) := s.proxy.arrive s.clock scene.arrival scene.client
    let arrived : Simulation :=
      { s with proxy, performances := s.performances ++ [{ id, name, scene }] }
    let expecting := match scene.departure with
      | some milliseconds => arrived.schedule milliseconds (.departure id)
      | none => arrived
    some ((effects.foldl (react id) expecting).deliverAll id scene.delivery.requestEvents, id)
  else none

/-! ## Time -/

/-- More timers than an exchange sets from now on. -/
def timersOf (x : Exchange) : Nat :=
  match x.state with
  | .ended => 0
  | .active intake _ =>
    intake.rules.foldl (fun n rule => n + Delay.timerBound (rule.actions.delay.getD 0)) 1

/-- More tasks than come due from now on. -/
def taskBound (s : Simulation) : Nat :=
  s.proxy.exchanges.foldl (fun n x => n + timersOf x) s.agenda.length

/-- The simulation after the task that is due first. -/
def step? (s : Simulation) : Option Simulation :=
  match s.agenda with
  | [] => none
  | first :: rest => some ({ s with agenda := rest, clock := first.due }.perform first.task)

/-- The simulation at some point, or when nothing is left to do; none where the point is not
reached within a number of tasks. -/
def runUntil (isDone : Simulation → Bool) : Nat → Simulation → Option Simulation
  | 0, s => if isDone s || s.agenda.isEmpty then some s else none
  | fuel + 1, s =>
    if isDone s then some s
    else
      match s.step? with
      | none => some s
      | some next => runUntil isDone fuel next

/-- Whether an exchange has sent its client anything or was given up. -/
def isSettled (id : Nat) (s : Simulation) : Bool :=
  (s.proxy.exchange? id).any (fun x => !x.client.sent.isEmpty) ||
    (s.proxy.history.get? (.whole id)).any (fun entry => entry.outcome == .cancelled)

/-- The simulation at the time when an exchange is settled, or when nothing is left to do. -/
def settle (s : Simulation) (id : Nat) : Option Simulation :=
  runUntil (isSettled id) s.taskBound s

/-- Whether no task is due by a time. -/
def isIdleUntil (time : Number) (s : Simulation) : Bool :=
  match s.agenda with
  | [] => true
  | first :: _ => time.lt first.due

/-- The simulation some milliseconds later. -/
def advance (s : Simulation) (milliseconds : Number) : Option Simulation :=
  let time := s.clock + milliseconds
  (runUntil (isIdleUntil time) s.taskBound s).map fun later => { later with clock := time }

/-! ## Rules -/

/-- The simulation after a load of the rules. -/
def loaded (s : Simulation) (load : RuleSource.Load) : Simulation :=
  { s with
      proxy := { s.proxy with source := load.source }
      notices := s.notices ++ load.notices }

/-- The simulation after the rules were loaded anew. -/
def reload (s : Simulation) : Simulation × Except ConfigFault Config :=
  let load := s.proxy.source.reload s.files
  (s.loaded load, load.result)

/-- The simulation after the rule source was started. -/
def startSource (s : Simulation) (watch : Bool) : Simulation × Except ConfigFault Config :=
  let load := s.proxy.source.start s.files watch
  (s.loaded load, load.result)

/-- The simulation after the rule source was stopped. -/
def stopSource (s : Simulation) : Simulation :=
  { s with proxy := { s.proxy with source := s.proxy.source.stop } }

/-- The simulation after an event of the file, as the watcher opened last sees it. -/
def fileEvent (s : Simulation) (event : RuleSource.FileEvent) : Simulation :=
  match s.proxy.source.watcher with
  | none => s
  | some watcher =>
    let reaction := s.proxy.source.fileEvent s.files watcher event
    { s with
        proxy := { s.proxy with source := reaction.source }
        notices := s.notices ++ reaction.notices }.logged reaction.log

/-! ## Places -/

/-- The simulation in which the proxy takes connections on a port, with the port that the system
reports, if it reports one. -/
def listening (s : Simulation) (port : Number) (reported : Option Number) : Simulation :=
  let (history, _) := s.proxy.history.setRunning true (some (reported.getD port))
  { s with proxy := { s.proxy with history }, serving := true }

/-- The simulation after a request of the administrator, and the reply. -/
def administer (s : Simulation) (method path : String) : Simulation × Admin.Reply :=
  let answer := Admin.handle s.files s.proxy method path
  ({ s with
      proxy := answer.proxy
      notices := s.notices ++ answer.notices
      lines := s.lines ++ answer.lines },
    answer.reply)

/-! ## Reports -/

/-- What has become of an exchange. -/
structure Report where
  forwarded : Option Forwarded
  sent : List Client.Sent
  entry : Option History.Entry
  tallies : History.Tallies

/-- What has become of the latest performance of a name. -/
def report? (s : Simulation) (name : String) : Option Report :=
  (s.named? name).map fun p => {
    forwarded := p.forwarded
    sent := ((s.proxy.exchange? p.id).map (·.client.sent)).getD []
    entry := s.proxy.history.get? (.whole p.id)
    tallies := s.proxy.history.tallies }

end Simulation

end FaultInjection
