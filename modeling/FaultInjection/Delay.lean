import FaultInjection.Message

/-!
# Delays - Waiting in steps

No timer runs longer than 2147483647 milliseconds, so a longer delay is waited
out in steps, one timer after the other.  A delay is over when the last timer
fires, and it can be cancelled for a cause before that.

Main definitions:

- `Delay`, the state of a delay; `Delay.start` sets its first timer.
- `Delay.Event` and `Delay.next`, what a firing timer and a cancellation do.
- `Delay.timer?`, the timer that is running, and `Delay.timerBound`, a bound on the
  count of timers.

Main results:

- `Delay.next_elapsed` and `Delay.next_cancelled`: nothing changes a delay that has
  ended.
- `Delay.timer?_isSome_iff`: a timer runs exactly while the delay is neither over
  nor cancelled.
-/

namespace FaultInjection

/-- The state of a delay. -/
inductive Delay where
  /-- A timer of `step` milliseconds is running and `remaining` milliseconds follow it. -/
  | waiting (step remaining : Number)
  | elapsed
  | cancelled (cause : Cause)
  deriving Repr, BEq

namespace Delay

/-- The longest time that one timer runs. -/
def longestStep : Number := 2147483647

/-- The state in which the timer for the next step of a time has just been set. -/
def arm (time : Number) : Delay :=
  waiting (time.min longestStep) (time - time.min longestStep)

/-- A delay of some milliseconds; it sets no timer where it is already cancelled. -/
def start (already : Option Cause) (time : Number) : Delay :=
  match already with
  | some cause => cancelled cause
  | none => arm time

/-- What can happen to a delay. -/
inductive Event where
  | fired
  | cancelled (cause : Cause)
  deriving Repr, BEq

/-- The delay after an event. -/
def next : Delay → Event → Delay
  | waiting _ remaining, .fired => if (0 : Number).lt remaining then arm remaining else elapsed
  | waiting _ _, .cancelled cause => cancelled cause
  | ended, _ => ended

/-- The milliseconds of the timer that is running. -/
def timer? : Delay → Option Number
  | waiting step _ => some step
  | _ => none

/-- More timers than a delay of some milliseconds takes. -/
def timerBound (time : Number) : Nat := (time / longestStep).floor.toNat?.getD 0 + 2

/-- Nothing changes a delay that is over. -/
@[simp] theorem next_elapsed (event : Event) : elapsed.next event = elapsed := rfl

/-- Nothing changes a delay that is cancelled. -/
@[simp] theorem next_cancelled (cause : Cause) (event : Event) :
    (cancelled cause).next event = cancelled cause := rfl

/-- A timer runs exactly while the delay is neither over nor cancelled. -/
theorem timer?_isSome_iff (d : Delay) :
    d.timer?.isSome ↔ d ≠ elapsed ∧ ∀ cause, d ≠ cancelled cause := by
  cases d <;> simp [timer?]

end Delay

end FaultInjection
