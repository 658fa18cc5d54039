import FaultInjection.Delay

/-!
# Delays - Timers and listeners

A delay consists of callbacks on shared variables: one for its timers, which sets the next timer
or resolves, and one that listens for the signal to be aborted, which clears whatever timer was set
last and rejects.  The host keeps the timers that are scheduled, and each fires once.  Here are
the variables and the host, with each timer known by its number.  The rest of the library speaks of
the state of a delay alone.

Main definitions:

- `Delay.Callbacks`, the variables of a delay with the timers of the host and the signal.
- `Delay.Callbacks.start`, the call that begins a delay.
- `Delay.Callbacks.fire` and `Delay.Callbacks.abort`, what happens when a timer fires and when the
  signal is aborted.
- `Delay.Callbacks.run`, what comes of a number of events.
-/

namespace FaultInjection

namespace Delay

/-- How the promise of a delay is settled. -/
inductive Settlement where
  | resolved
  | rejected (reason : Cause)
  deriving Repr, BEq

/-- The variables of a delay, with the timers of the host and the signal. -/
structure Callbacks where
  /-- The timers that the host will fire, by number, with their milliseconds. -/
  scheduled : List (Nat × Number) := []
  /-- How many timers have been created. -/
  created : Nat := 0
  /-- The timer that was set last. -/
  timer : Option Nat := none
  /-- The milliseconds that follow the timer that was set last. -/
  remaining : Number
  /-- Whether the delay listens for the signal to be aborted. -/
  listening : Bool := false
  /-- The reason for which the signal has been aborted. -/
  reason : Option Cause := none
  /-- How the promise has been settled, each time. -/
  settlements : List Settlement := []
  deriving Repr

namespace Callbacks

/-- The host creates a timer of some milliseconds. -/
def setTimer (s : Callbacks) (step : Number) : Callbacks :=
  { s with
    scheduled := s.scheduled ++ [(s.created, step)]
    created := s.created + 1
    timer := some s.created }

/-- The host no longer keeps a timer. -/
def unschedule (s : Callbacks) (timer : Nat) : Callbacks :=
  { s with scheduled := s.scheduled.filter (·.1 != timer) }

/-- The promise is settled. -/
def settle (s : Callbacks) (settlement : Settlement) : Callbacks :=
  { s with settlements := s.settlements ++ [settlement] }

/-- The timer for the next step is set. -/
def schedule (s : Callbacks) : Callbacks :=
  let step := s.remaining.min longestStep
  { s with remaining := s.remaining - step }.setTimer step

/-- The callback of the timers. -/
def onTimer (s : Callbacks) : Callbacks :=
  if (0 : Number).lt s.remaining then s.schedule
  else { s with listening := false }.settle .resolved

/-- The callback that listens for the signal to be aborted; it is called once. -/
def onAbort (s : Callbacks) (reason : Cause) : Callbacks :=
  let s := match s.timer with
    | some timer => s.unschedule timer
    | none => s
  { s with listening := false }.settle (.rejected reason)

/-- A delay of some milliseconds is begun with a signal that may have been aborted. -/
def start (already : Option Cause) (time : Number) : Callbacks :=
  let s : Callbacks := { remaining := time, reason := already }
  match already with
  | some reason => s.settle (.rejected reason)
  | none => { s with listening := true }.schedule

/-- What can happen to a delay. -/
inductive Event where
  | fired (timer : Nat)
  | aborted (reason : Cause)
  deriving Repr, BEq

/-- A timer fires, if it is scheduled. -/
def fire (s : Callbacks) (timer : Nat) : Callbacks :=
  if s.scheduled.any (·.1 == timer) then (s.unschedule timer).onTimer else s

/-- The signal is aborted, unless it has been. -/
def abort (s : Callbacks) (reason : Cause) : Callbacks :=
  match s.reason with
  | some _ => s
  | none =>
    let s := { s with reason := some reason }
    if s.listening then s.onAbort reason else s

/-- The delay after an event. -/
def next (s : Callbacks) : Event → Callbacks
  | .fired timer => s.fire timer
  | .aborted reason => s.abort reason

/-- The delay after a number of events. -/
def run (s : Callbacks) (events : List Event) : Callbacks := events.foldl next s

end Callbacks

end Delay

end FaultInjection
