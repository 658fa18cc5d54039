import FaultInjection.Delay
import FaultInjection.Rule.Verdict

/-!
# Trials - Verdicts against a clock

A trial carries out verdicts one after the other on a clock of its own.  Timers
fire when they are due; a cancellation strikes at its time unless a timer that is
due by then goes first, or it stands from the start.  A delay is followed for as many
events as one that ends can have; where it is not over by then, the message is still
held back.

Main definitions:

- `Cancellation`, when and why the work is cancelled.
- `Trial`, the clock, the timers set so far and the lines written.
- `Trial.Halt`, why no message comes out of a verdict.
- `Trial.carryOut`, what becomes of a verdict.
- `Trial.passRequest` and `Trial.passResponse`, what becomes of a message under rules.
-/

namespace FaultInjection

/-- When and why the work of a trial is cancelled. -/
structure Cancellation where
  /-- Whether it stands from the start. -/
  before : Bool := false
  /-- The time at which it strikes. -/
  time : Option Number := none
  cause : Cause := .error "cancelled"

/-- A clock, with what has happened by it. -/
structure Trial where
  clock : Number := 0
  /-- The milliseconds of all timers, in the order in which they were set. -/
  timers : List Number := []
  /-- How many timers are running. -/
  pending : Nat := 0
  /-- The cause of a cancellation that has struck. -/
  cancelled : Option Cause := none
  log : List Log.Line := []

namespace Trial

/-- The trial at its start. -/
def start (plan : Cancellation) : Trial :=
  { cancelled := if plan.before then some plan.cause else none }

/-- The trial with entries logged. -/
def logged (t : Trial) (threshold : Log.Level) (entries : List Log.Entry) : Trial :=
  { t with log := t.log ++ entries.filterMap (·.line? threshold) }

/-- The time of a cancellation that strikes before a timer that is due. -/
def strikeBefore? (plan : Cancellation) (t : Trial) (due : Number) : Option Number :=
  if t.cancelled.isSome then none else plan.time.filter (·.lt due)

/-- The trial with the timer of a delay that was just set. -/
def set (t : Trial) (d : Delay) : Trial :=
  { t with timers := t.timers ++ d.timer?.toList, pending := d.timer?.toList.length }

/-- The end of a delay, within a number of events. -/
def await (plan : Cancellation) : Nat → Trial → Delay → Trial × Delay
  | 0, t, d => (t, d)
  | fuel + 1, t, d =>
    match d.timer? with
    | none => (t, d)
    | some step =>
      let due := t.clock + step
      match strikeBefore? plan t due with
      | some time =>
        let d := d.next (.cancelled plan.cause)
        await plan fuel ({ t with clock := time, cancelled := some plan.cause }.set d) d
      | none =>
        let d := d.next .fired
        await plan fuel ({ t with clock := due }.set d) d

/-- More events than a delay has before it ends or is cancelled. -/
def eventBound (plan : Cancellation) (time : Number) : Nat :=
  Delay.timerBound (match plan.time with
    | some limit => limit.min time
    | none => time) + 2

/-- Why no message comes out of a verdict. -/
inductive Halt where
  | failed (failure : Failure)
  /-- The message is still held back. -/
  | waiting
  deriving Repr, BEq

/-- What a delay makes of a message that is held back. -/
def hold {α : Type} (plan : Cancellation) (t : Trial) (time : Number) (message : α) :
    Trial × Except Halt α :=
  let d := Delay.start t.cancelled time
  let (t, d) := await plan (eventBound plan time) (t.set d) d
  match d with
  | .elapsed => (t, .ok message)
  | .cancelled cause => (t, .error (.failed (.cause cause)))
  | .waiting .. => (t, .error .waiting)

/-- What becomes of a verdict. -/
def carryOut {α : Type} (plan : Cancellation) (threshold : Log.Level) (t : Trial)
    (verdict : Verdict α) : Trial × Except Halt α :=
  let t := t.logged threshold verdict.notices
  match verdict.result with
  | .error failure => (t, .error (.failed failure))
  | .ok message =>
    let held : Trial × Except Halt α := match verdict.delay with
      | none => (t, .ok message)
      | some time => t.hold plan time message
    match held with
    | (t, .ok message) => (t.logged threshold verdict.release, .ok message)
    | (t, .error halt) => (t, .error halt)

/-- A request that has come through the rules. -/
structure PassedRequest where
  request : Request
  /-- The view that rules for responses have of the request. -/
  inbound : Inbound
  /-- The name of the rule that was applied. -/
  ruleName : Option String
  deriving DecidableEq, Repr

/-- A response that has come through the rules. -/
structure PassedResponse where
  response : Response
  /-- The name of the rule that was applied. -/
  ruleName : Option String
  deriving DecidableEq, Repr

/-- What becomes of a request that arrived for a port; the view of it is taken before any rule
changes it. -/
def passRequest (plan : Cancellation) (threshold : Log.Level) (t : Trial) (rules : List Rule)
    (port : Number) (request : Request) : Trial × Except Halt PassedRequest :=
  let inbound := request.inbound port
  let verdict := Rule.onRequest rules port request
  let (t, outcome) := t.carryOut plan threshold verdict
  (t, outcome.map fun changed => ⟨changed, inbound, verdict.ruleName?⟩)

/-- What becomes of a response to a request that has been viewed. -/
def passResponse (plan : Cancellation) (threshold : Log.Level) (t : Trial) (rules : List Rule)
    (inbound : Inbound) (response : Response) : Trial × Except Halt PassedResponse :=
  let verdict := Rule.onResponse rules inbound response
  let (t, outcome) := t.carryOut plan threshold verdict
  (t, outcome.map fun changed => ⟨changed, verdict.ruleName?⟩)

end Trial

end FaultInjection
