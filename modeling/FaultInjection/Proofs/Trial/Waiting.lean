import FaultInjection.Proofs.Delay.Steps
import FaultInjection.Proofs.Trial

/-!
# Trials - Delays take the time they say

Without a cancellation a message is held back until the last timer of its delay has fired.  The
timers run one after the other, each set when the one before it fires, so that the clock goes on
by their sum, which is the delay.  Clocks are exact up to 2^53 milliseconds.

Main definitions:

- `Trial.course`, a trial after some timers of a delay.
- `Trial.HoldsFor`, what comes of messages that are held back for whole milliseconds.
- `Rule.delayOf`, how long a rule holds a message back, if there is a rule.
- `Trial.PassesAfter`, when a request and the response to it have come through rules.

Main results:

- `Trial.await_arm`: the course of a delay, timer by timer.
- `Trial.carryOut_of_delay`: what becomes of a verdict with a delay.
- `Trial.delays_exact`: messages are held back for their delays, and a request and its response
  for the sum of both.
-/

namespace FaultInjection

namespace Trial

/-! ## Timer by timer -/

/-- The trial after some timers of a delay that was begun at a time have fired. -/
def course (t : Trial) (start : Nat) (timers : List Nat) (fired : Nat) : Trial :=
  { t with
      clock := .whole (start + (timers.take fired).sum)
      timers := t.timers ++ (timers.take (fired + 1)).map .whole
      pending := if fired < timers.length then 1 else 0 }

/-- The trial after the timer of a delay that was begun at a time has fired. -/
def elapse (t : Trial) (start timer : Nat) : Trial :=
  { t with clock := .whole (start + timer), timers := t.timers ++ [Number.whole timer] }

/-- At the start of a delay its first timer runs. -/
theorem course_zero {t : Trial} {start : Nat} (hclock : t.clock = .whole start) (first : Nat)
    (others : List Nat) (remaining : Number) :
    t.course start (first :: others) 0 = t.set (.waiting (.whole first) remaining) := by
  simp [course, set, Delay.timer?, ← hclock]

/-- When its first timer has fired, the others follow. -/
theorem course_succ (t : Trial) (start first : Nat) (others : List Nat) (fired : Nat) :
    t.course start (first :: others) (fired + 1) =
      (t.elapse start first).course (start + first) others fired := by
  simp [course, elapse, Nat.add_assoc]

/-- When more timers have fired than there are, all have fired. -/
theorem course_of_le (t : Trial) (start : Nat) {timers : List Nat} {fired : Nat}
    (h : timers.length ≤ fired) : t.course start timers fired =
      { t with
          clock := .whole (start + timers.sum)
          timers := t.timers ++ timers.map .whole
          pending := 0 } := by
  rw [course, List.take_of_length_le h, List.take_of_length_le (Nat.le_succ_of_le h),
    if_neg (Nat.not_lt_of_le h)]

/-- Nothing happens once a delay is over. -/
theorem await_elapsed (plan : Cancellation) (k : Nat) (t : Trial) :
    await plan k t .elapsed = (t, .elapsed) := by
  cases k <;> rfl

section Uncancelled

variable {plan : Cancellation} (hplan : plan.time = none)

include hplan

/-- Where nothing is cancelled, the timer that is running fires. -/
theorem await_waiting (k : Nat) {t : Trial} {start first : Nat} {remaining : Number} {d : Delay}
    (hclock : t.clock = .whole start) (hbound : start + first ≤ 2 ^ 53)
    (hnext : (Delay.waiting (.whole first) remaining).next .fired = d) :
    await plan (k + 1) (t.set (.waiting (.whole first) remaining))
        (.waiting (.whole first) remaining) =
      await plan k ((t.elapse start first).set d) d := by
  have hstrike : ∀ t due, strikeBefore? plan t due = none := by
    intro t due
    rw [strikeBefore?, hplan]
    split <;> rfl
  have hsum : (t.set (.waiting (.whole first) remaining)).clock + .whole first =
      .whole (start + first) := by
    rw [← Number.whole_add hbound, ← hclock]
    rfl
  rw [await]
  simp only [Delay.timer?, hstrike, hsum, hnext]
  rfl

/-- The course of a delay: so many events after its start, so many timers have fired, and the next
one runs if there is one. -/
theorem await_arm {time : Nat} (k : Nat) {t : Trial} {start : Nat} (hclock : t.clock = .whole start)
    (hbound : start + time ≤ 2 ^ 53) :
    await plan k (t.set (.arm (.whole time))) (.arm (.whole time)) =
      (t.course start (Delay.steps time) k, Delay.fire k (.arm (.whole time))) := by
  induction time using Delay.steps_induction generalizing k t start with
  | hlast time htime =>
      have hexact : time ≤ 2 ^ 53 := by omega
      have harm := Delay.arm_whole hexact
      have hnext := Delay.next_fired_whole hexact
      rw [Nat.min_eq_left htime] at harm
      rw [if_pos htime] at hnext
      rw [Delay.steps_of_le htime]
      cases k with
      | zero => rw [harm, course_zero hclock, await, Delay.fire]
      | succ k =>
          rw [Delay.fire, hnext, Delay.fire_elapsed, course_succ, course_of_le _ _ (Nat.zero_le _)]
          rw [harm] at hnext ⊢
          rw [await_waiting hplan k hclock hbound hnext, await_elapsed]
          rfl
  | hmore time htime ih =>
      have hexact : time ≤ 2 ^ 53 := by omega
      have harm := Delay.arm_whole hexact
      have hnext := Delay.next_fired_whole hexact
      rw [Nat.min_eq_right (Nat.le_of_lt htime)] at harm
      rw [if_neg (Nat.not_le_of_lt htime)] at hnext
      rw [Delay.steps_of_lt htime]
      cases k with
      | zero => rw [harm, course_zero hclock, await, Delay.fire]
      | succ k =>
          rw [Delay.fire, hnext, course_succ]
          rw [harm] at hnext ⊢
          rw [await_waiting hplan k hclock (by omega) hnext, ih k rfl (by omega)]

/-- A message is held back until the last timer of the delay has fired. -/
theorem hold_whole {α : Type} {time : Nat} {t : Trial} {start : Nat} (ht : t.cancelled = none)
    (hclock : t.clock = .whole start) (hbound : start + time ≤ 2 ^ 53) (message : α) :
    t.hold plan (.whole time) message =
      (t.course start (Delay.steps time) (Delay.steps time).length, .ok message) := by
  have htime : time ≤ 2 ^ 53 := by omega
  have hevents : (Delay.steps time).length ≤ eventBound plan (.whole time) := by
    have hbound := Delay.length_steps_le_timerBound htime
    simp only [eventBound, hplan]
    omega
  have hover := (Delay.takesTimers_whole htime).fire_of_le hevents
  have hcourse := await_arm hplan (eventBound plan (.whole time)) hclock hbound
  rw [hover, course_of_le t start hevents, ← course_of_le t start (Nat.le_refl _)] at hcourse
  simp only [hold, ht, Delay.start, hcourse]

/-- The changed message of a verdict comes out when the delay of the verdict is over. -/
theorem carryOut_of_delay {α : Type} (threshold : Log.Level) {verdict : Verdict α} {message : α}
    {time : Nat} {t : Trial} {start : Nat} (ht : t.cancelled = none)
    (hclock : t.clock = .whole start) (hbound : start + time ≤ 2 ^ 53)
    (hresult : verdict.result = .ok message) (hdelay : verdict.delay = some (.whole time)) :
    t.carryOut plan threshold verdict =
      (((t.logged threshold verdict.notices).course start (Delay.steps time)
        (Delay.steps time).length).logged threshold verdict.release, .ok message) := by
  have hheld := hold_whole hplan (t := t.logged threshold verdict.notices) ht hclock hbound message
  simp only [carryOut, hresult, hdelay, hheld]

end Uncancelled

/-! ## Messages that are held back -/

/-- A message has been held back since a time, by timers that have run one after the other, and
no timer is left. -/
structure Released {α : Type} (t : Trial) (start : Nat) (timers : List Nat) (message : α)
    (ended : Trial × Except Halt α) : Prop where
  outcome : ended.2 = .ok message
  clock : ended.1.clock = .whole (start + timers.sum)
  timers : ended.1.timers = t.timers ++ timers.map .whole
  pending : ended.1.pending = 0
  cancelled : ended.1.cancelled = t.cancelled

/-- A delay of whole milliseconds has these timers, and it holds messages back until the last of
them has fired. -/
structure HoldsFor (plan : Cancellation) (threshold : Log.Level) (t : Trial) (start time : Nat)
    (timers : List Nat) : Prop where
  count : timers.length = max 1 (time ⌈/⌉ 2147483647)
  bounded : ∀ timer ∈ timers, timer ≤ 2147483647
  sum : timers.sum = time
  /-- Until then one timer runs, which was set when the one before it had fired. -/
  running : ∀ fired < timers.length,
    let d := Delay.start t.cancelled (.whole time)
    await plan fired (t.set d) d = (t.course start timers fired, Delay.fire fired d) ∧
      (t.course start timers fired).pending = 1 ∧ Delay.fire fired d ≠ .elapsed
  requests : ∀ (actions : Actions) (request changed : Request),
    actions.delay = some (.whole time) → actions.changeRequest request = .ok changed →
    Released t start timers changed (t.carryOut plan threshold (actions.onRequest request))
  responses : ∀ (actions : Actions) (response changed : Response),
    actions.delay = some (.whole time) → actions.changeResponse response = .ok changed →
    Released t start timers changed (t.carryOut plan threshold (actions.onResponse response))

section Uncancelled

variable {plan : Cancellation} (hplan : plan.time = none) (threshold : Log.Level)

include hplan

/-- The changed message of a verdict with a delay is held back by the timers of the delay. -/
theorem released_of_delay {α : Type} {verdict : Verdict α} {message : α} {time : Nat} {t : Trial}
    {start : Nat} (ht : t.cancelled = none) (hclock : t.clock = .whole start)
    (hbound : start + time ≤ 2 ^ 53) (hresult : verdict.result = .ok message)
    (hdelay : verdict.delay = some (.whole time)) :
    Released t start (Delay.steps time) message (t.carryOut plan threshold verdict) := by
  rw [carryOut_of_delay hplan threshold ht hclock hbound hresult hdelay,
    course_of_le _ _ (Nat.le_refl _)]
  exact ⟨rfl, rfl, rfl, rfl, rfl⟩

/-- A message is held back for the time that a verdict says, and for no time where it says none. -/
theorem exists_released {α : Type} {verdict : Verdict α} {message : α} {time : Nat} {t : Trial}
    {start : Nat} (hidle : t.pending = 0) (ht : t.cancelled = none)
    (hclock : t.clock = .whole start) (hbound : start + time ≤ 2 ^ 53)
    (hresult : verdict.result = .ok message) (hdelay : verdict.delay.getD 0 = .whole time) :
    ∃ timers : List Nat, timers.sum = time ∧
      Released t start timers message (t.carryOut plan threshold verdict) := by
  cases hverdict : verdict.delay with
  | some delay =>
      rw [hverdict, Option.getD_some] at hdelay
      rw [hdelay] at hverdict
      exact ⟨_, Delay.sum_steps time,
        released_of_delay hplan threshold ht hclock hbound hresult hverdict⟩
  | none =>
      rw [hverdict, Option.getD_none, Delay.zero_eq_whole, Number.whole_inj] at hdelay
      refine ⟨[], hdelay, ?_⟩
      have hended : t.carryOut plan threshold verdict =
          ((t.logged threshold verdict.notices).logged threshold verdict.release, .ok message) := by
        simp only [carryOut, hresult, hverdict]
      rw [hended]
      exact ⟨rfl, hclock, (List.append_nil _).symm, hidle, rfl⟩

/-- A delay of whole milliseconds holds messages back by its steps. -/
theorem holdsFor_steps {time : Nat} {t : Trial} {start : Nat} (ht : t.cancelled = none)
    (hclock : t.clock = .whole start) (hbound : start + time ≤ 2 ^ 53) :
    HoldsFor plan threshold t start time (Delay.steps time) where
  count := Delay.length_steps time
  bounded _ htimer := Delay.le_longestMs_of_mem_steps htimer
  sum := Delay.sum_steps time
  running fired hfired := by
    have htime : time ≤ 2 ^ 53 := Nat.le_trans (Nat.le_add_left _ _) hbound
    have hstart : Delay.start t.cancelled (.whole time) = .arm (.whole time) := by rw [ht]; rfl
    simp only [hstart]
    exact ⟨await_arm hplan fired hclock hbound, if_pos hfired,
      (Delay.takesTimers_whole htime).2 fired hfired⟩
  requests _ _ _ hdelay hchanged :=
    released_of_delay hplan threshold ht hclock hbound hchanged hdelay
  responses _ _ _ hdelay hchanged :=
    released_of_delay hplan threshold ht hclock hbound hchanged hdelay

end Uncancelled

end Trial

/-! ## A request and its response -/

namespace Rule

/-- How long a rule holds a message back, if there is a rule and it does so at all. -/
def delayOf (rule? : Option Rule) : Number := (rule?.bind (·.actions.delay)).getD 0

/-- A request is held back for the delay of the rule that decides about it. -/
theorem delay_onRequest (rules : List Rule) (port : Number) (request : Request) :
    (onRequest rules port request).delay.getD 0 =
      delayOf (forRequest rules port request).head? := by
  rw [← firstForRequest?_eq_head?]
  unfold onRequest
  cases firstForRequest? rules port request <;> rfl

/-- A response is held back for the delay of the rule that decides about it. -/
theorem delay_onResponse (rules : List Rule) (inbound : Inbound) (response : Response) :
    (onResponse rules inbound response).delay.getD 0 =
      delayOf (forResponse rules inbound response).head? := by
  rw [← firstForResponse?_eq_head?]
  unfold onResponse
  cases firstForResponse? rules inbound response <;> rfl

end Rule

namespace Trial

/-- A request comes through rules after some milliseconds, and the response to it after some more,
when no timer is left. -/
structure PassesAfter (start first second : Nat) (changed : Request) (returned : Response)
    (sent : Trial × Except Halt PassedRequest)
    (received : Trial × Except Halt PassedResponse) : Prop where
  changed : sent.2.map PassedRequest.request = .ok changed
  sentAt : sent.1.clock = .whole (start + first)
  returned : received.2.map PassedResponse.response = .ok returned
  receivedAt : received.1.clock = .whole (start + (first + second))
  pending : received.1.pending = 0

/-- Delays of whole milliseconds are exact: a message is held back until as many timers as are
needed have run, one after the other, for the delay altogether; and a request and its response,
unless they are dropped or fail, come through rules in the sum of the delays of the two rules that
decide about them. -/
theorem delays_exact {plan : Cancellation} (hplan : plan.time = none) (threshold : Log.Level)
    {t : Trial} {start time : Nat} (hidle : t.pending = 0) (ht : t.cancelled = none)
    (hclock : t.clock = .whole start) (hbound : start + time ≤ 2 ^ 53) :
    (∃ timers, HoldsFor plan threshold t start time timers) ∧
    ∀ rules port request response changed returned first second, first + second = time →
      (Rule.onRequest rules port request).result = .ok changed →
      (Rule.onResponse rules (request.inbound port) response).result = .ok returned →
      Rule.delayOf (Rule.forRequest rules port request).head? = .whole first →
      Rule.delayOf (Rule.forResponse rules (request.inbound port) response).head? =
        .whole second →
      let sent := t.passRequest plan threshold rules port request
      PassesAfter start first second changed returned sent
        (sent.1.passResponse plan threshold rules (request.inbound port) response) := by
  refine ⟨⟨_, holdsFor_steps hplan threshold ht hclock hbound⟩, ?_⟩
  rintro rules port request response changed returned first second rfl hchanged hreturned hfirst
    hsecond sent
  obtain ⟨timers, rfl, hsent⟩ := exists_released hplan threshold hidle ht hclock
    (Nat.le_trans (by omega) hbound) hchanged ((Rule.delay_onRequest ..).trans hfirst)
  obtain ⟨timers', rfl, hreceived⟩ := exists_released hplan threshold hsent.pending
    (hsent.cancelled.trans ht) hsent.clock (Nat.le_trans (by omega) hbound) hreturned
    ((Rule.delay_onResponse ..).trans hsecond)
  exact {
    changed := by simp only [sent, passRequest, hsent.outcome, Except.map]
    sentAt := hsent.clock
    returned := by simp only [sent, passResponse, passRequest, hreceived.outcome, Except.map]
    receivedAt := hreceived.clock.trans (by rw [Nat.add_assoc])
    pending := hreceived.pending }

/-- Three timers for one long delay; and a request that waits one millisecond longer than a timer
can, with a response that waits for the rest. -/
theorem delays_exact_severalTimers :
    let plan : Cancellation := {}
    let request : Request := ⟨"GET", { pathAndQuery := some ⟨"/a", none⟩ }, .empty, []⟩
    let response : Response := ⟨.whole 200, .empty, []⟩
    let rules : List Rule := [
      ⟨"late answer", .response, {}, { delay := some (.whole 2147483651) }⟩,
      ⟨"late", .request, { path := some "/a" }, { delay := some (.whole 2147483648) }⟩,
      ⟨"not reached", .request, {}, { delay := some (.whole 1), abort := true }⟩]
    let sent := (start plan).passRequest plan .debug rules 80 request
    (plan.time = none ∧ (start plan).pending = 0 ∧ (start plan).cancelled = none ∧
      (start plan).clock = .whole 0 ∧ 0 + 4294967299 ≤ 2 ^ 53 ∧
      (Rule.onRequest rules 80 request).result = .ok request ∧
      (Rule.onResponse rules (request.inbound 80) response).result = .ok response ∧
      Rule.delayOf (Rule.forRequest rules 80 request).head? = .whole 2147483648 ∧
      Rule.delayOf (Rule.forResponse rules (request.inbound 80) response).head? =
        .whole 2147483651) ∧
    (∃ timers, HoldsFor plan .debug (start plan) 0 4294967299 timers) ∧
      PassesAfter 0 2147483648 2147483651 request response sent
        (sent.1.passResponse plan .debug rules (request.inbound 80) response) := by
  intro plan request response rules sent
  have hbound : 0 + 4294967299 ≤ 2 ^ 53 := by decide
  have hrules : (Rule.forRequest rules 80 request).head? = rules[1]? := by decide +kernel
  have hrules' : (Rule.forResponse rules (request.inbound 80) response).head? = rules[0]? := by
    decide +kernel
  have hrequest : (Rule.onRequest rules 80 request).result = .ok request := by
    rw [Rule.result_onRequest, hrules]
    rfl
  have hresponse : (Rule.onResponse rules (request.inbound 80) response).result = .ok response := by
    rw [Rule.result_onResponse, hrules']
    rfl
  have hfirst : Rule.delayOf (Rule.forRequest rules 80 request).head? = .whole 2147483648 := by
    rw [hrules]
    rfl
  have hsecond : Rule.delayOf (Rule.forResponse rules (request.inbound 80) response).head? =
      .whole 2147483651 := by
    rw [hrules']
    rfl
  have hplan : plan.time = none := rfl
  have hidle : (start plan).pending = 0 := rfl
  have hactive : (start plan).cancelled = none := rfl
  have hclock : (start plan).clock = .whole 0 := Delay.zero_eq_whole
  obtain ⟨hholds, hpasses⟩ := delays_exact hplan .debug hidle hactive hclock hbound
  exact ⟨⟨hplan, hidle, hactive, hclock, hbound, hrequest, hresponse, hfirst, hsecond⟩, hholds,
    hpasses rules 80 request response request response _ _ rfl hrequest hresponse hfirst hsecond⟩

end Trial

end FaultInjection
