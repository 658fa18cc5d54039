import FaultInjection.Config.Schema
import FaultInjection.Delay.Callbacks
import FaultInjection.Proofs.Delay.Steps
import Mathlib.Data.List.TakeWhile

/-!
# Delays - Callbacks settle once

The callbacks of a delay keep one invariant: as long as the promise is pending, just one timer is
scheduled, it is the one that was set last, and the delay listens for the signal to be aborted;
once the promise is settled, nothing is scheduled and nothing listens.  So each event does to the
variables what it does to the state of the delay, whichever way firings and an abort interleave.

Main definitions:

- `Delay.Callbacks.Shows`, the invariant: variables that show the state of a delay.
- `Delay.Callbacks.follow`, the state of a delay after a number of events.
- `Delay.Callbacks.LastFires`, for events among which the last timer of a delay fires.
- `Delay.Callbacks.SettlesOnce`, when and how a delay is settled.

Main results:

- `Delay.Callbacks.Shows.run`: the callbacks do what the delay does.
- `Delay.Callbacks.follow_eq`: what a delay is after a number of events.
- `Delay.Callbacks.settlesOnce_run`: every delay settles once, after any events that fire enough of
  its timers, if it comes to an end.
-/

namespace FaultInjection

namespace Delay

namespace Callbacks

/-! ## Events -/

/-- The reason of an abort. -/
def Event.reason? : Event → Option Cause
  | .fired _ => none
  | .aborted reason => some reason

/-- The reason of the first abort; those after it have no effect on the signal. -/
def firstReason? (events : List Event) : Option Cause := events.findSome? Event.reason?

/-- The events before the first abort. -/
def untilAborted (events : List Event) : List Event := events.takeWhile (·.reason?.isNone)

/-- How many timers fire one after the other, of which the first has this number. -/
def firings (timer : Nat) : List Event → Nat
  | [] => 0
  | .fired other :: events =>
    if other = timer then firings (timer + 1) events + 1 else firings timer events
  | .aborted _ :: events => firings timer events

/-- The last timer of a delay is among those that fire. -/
def LastFires (time : Number) (events : List Event) : Prop :=
  ∃ n, TakesTimers time n ∧ n ≤ firings 0 events

/-- The state of a delay, of which this timer is running, after a number of events. -/
def follow (d : Delay) (timer : Nat) : List Event → Delay
  | [] => d
  | .fired other :: events =>
    if other = timer then follow (d.next .fired) (timer + 1) events else follow d timer events
  | .aborted reason :: events => follow (d.next (.cancelled reason)) timer events

/-- Without an abort all events come before one. -/
theorem untilAborted_of_firstReason? {events : List Event} (h : firstReason? events = none) :
    untilAborted events = events := by
  rw [untilAborted, List.takeWhile_eq_self_iff]
  intro event hevent
  rw [List.findSome?_eq_none_iff.1 h event hevent]
  rfl

theorem firstReason?_isSome_iff {events : List Event} :
    (firstReason? events).isSome ↔ ∃ reason, .aborted reason ∈ events := by
  rw [firstReason?, List.findSome?_isSome_iff]
  constructor
  · rintro ⟨event, hevent, hreason⟩
    cases event with
    | fired _ => cases hreason
    | aborted reason => exact ⟨reason, hevent⟩
  · rintro ⟨reason, hevent⟩
    exact ⟨_, hevent, rfl⟩

/-! ## The state after events -/

/-- Nothing changes a delay of which no timer is running. -/
theorem follow_of_timer?_eq_none {d : Delay} (h : d.timer? = none) (timer : Nat)
    (events : List Event) : follow d timer events = d := by
  have hnext : ∀ event, d.next event = d := by
    intro event
    cases d with
    | waiting _ _ => cases h
    | elapsed => rfl
    | cancelled _ => rfl
  induction events generalizing timer with
  | nil => rfl
  | cons event events ih =>
      cases event with
      | fired other => rw [follow, hnext, ih, ih, ite_self]
      | aborted reason => rw [follow, hnext, ih]

/-- A delay goes on with the timers that fire before the first abort, and the abort cancels it if
it is not over by then. -/
theorem follow_eq (d : Delay) (timer : Nat) (events : List Event) :
    follow d timer events =
      match firstReason? events with
      | none => Delay.fire (firings timer (untilAborted events)) d
      | some reason =>
        (Delay.fire (firings timer (untilAborted events)) d).next (.cancelled reason) := by
  induction events generalizing d timer with
  | nil => rfl
  | cons event events ih =>
      cases event with
      | aborted reason =>
          have hended : (d.next (.cancelled reason)).timer? = none := by cases d <;> rfl
          rw [follow, follow_of_timer?_eq_none hended]
          rfl
      | fired other =>
          have hhead :
              untilAborted (.fired other :: events) = .fired other :: untilAborted events :=
            rfl
          have hreason : firstReason? (.fired other :: events) = firstReason? events := rfl
          rw [hhead, hreason, follow, firings]
          split
          · rw [ih, Delay.fire]
          · rw [ih]

/-- The last timer has fired when the delay would be over without an abort. -/
theorem lastFires_iff {time : Number} {events : List Event} :
    LastFires time events ↔ Delay.fire (firings 0 events) (arm time) = elapsed := by
  constructor
  · rintro ⟨n, hn, hle⟩
    exact hn.fire_of_le hle
  · exact exists_takesTimers_of_fire

/-! ## Variables that show a delay -/

/-- The promise is settled, no timer is scheduled and nothing listens. -/
structure Settled (s : Callbacks) (settlement : Settlement) : Prop where
  scheduled : s.scheduled = []
  listening : s.listening = false
  settlements : s.settlements = [settlement]

/-- The variables show the state of a delay, of which this timer is running. -/
inductive Shows : Callbacks → Nat → Delay → Prop where
  | waiting (timer : Nat) (step remaining : Number) :
      Shows
        { scheduled := [(timer, step)], created := timer + 1, timer := some timer, remaining,
          listening := true }
        timer (.waiting step remaining)
  | elapsed {s : Callbacks} (timer : Nat) (settled : s.Settled .resolved) : Shows s timer .elapsed
  | cancelled {s : Callbacks} (timer : Nat) {reason : Cause}
      (settled : s.Settled (.rejected reason)) (aborted : s.reason = some reason) :
      Shows s timer (.cancelled reason)

section Steps

variable {s : Callbacks} {timer : Nat} {d : Delay} {settlement : Settlement}

/-- A firing does not abort the signal. -/
theorem reason_fire (s : Callbacks) (timer : Nat) : (s.fire timer).reason = s.reason := by
  unfold fire
  split
  · unfold onTimer
    split <;> rfl
  · rfl

/-- The signal keeps the reason of its first abort. -/
theorem reason_next (s : Callbacks) (event : Event) :
    (s.next event).reason = s.reason.or event.reason? := by
  cases event with
  | fired timer => rw [next, reason_fire, Event.reason?, Option.or_none]
  | aborted reason =>
      rw [next, abort]
      cases hreason : s.reason with
      | some _ => exact hreason
      | none =>
          dsimp only
          split
          · unfold onAbort
            cases s.timer <;> rfl
          · rfl

theorem reason_run (s : Callbacks) (events : List Event) :
    (s.run events).reason = s.reason.or (firstReason? events) := by
  induction events generalizing s with
  | nil => exact (Option.or_none).symm
  | cons event events ih =>
      have hfirst : firstReason? (event :: events) = event.reason?.or (firstReason? events) := by
        rw [firstReason?, List.findSome?_cons]
        cases event <;> rfl
      rw [run, List.foldl_cons, ← run, ih, reason_next, hfirst, Option.or_assoc]

/-- No timer that is not scheduled fires. -/
theorem fire_of_scheduled_eq_nil (h : s.scheduled = []) (timer : Nat) : s.fire timer = s := by
  rw [fire, h]
  rfl

/-- An event changes nothing but the signal once the promise is settled. -/
theorem Settled.next (h : s.Settled settlement) (event : Event) :
    ∃ reason, s.next event = { s with reason } := by
  cases event with
  | fired timer => exact ⟨s.reason, fire_of_scheduled_eq_nil h.scheduled timer⟩
  | aborted reason =>
      rw [Callbacks.next, abort]
      cases s.reason with
      | some first => exact ⟨s.reason, rfl⟩
      | none => exact ⟨some reason, if_neg (by simp [h.listening])⟩

/-- Once the promise is settled, only the signal can change. -/
theorem Settled.run (h : s.Settled settlement) (events : List Event) :
    s.run events = { s with reason := s.reason.or (firstReason? events) } := by
  have hrun : ∃ reason, s.run events = { s with reason } := by
    induction events generalizing s with
    | nil => exact ⟨s.reason, rfl⟩
    | cons event events ih =>
        obtain ⟨reason, hnext⟩ := h.next event
        rw [Callbacks.run, List.foldl_cons, ← Callbacks.run, hnext]
        exact ih ⟨h.scheduled, h.listening, h.settlements⟩
  obtain ⟨reason, hreason⟩ := hrun
  have hsame := reason_run s events
  rw [hreason] at hsame ⊢
  rw [← hsame]

/-- The promise is resolved when the delay is over. -/
theorem Shows.resolved_iff (h : s.Shows timer d) : .resolved ∈ s.settlements ↔ d = .elapsed := by
  cases h with
  | waiting _ _ _ => simp
  | elapsed _ settled => simp [settled.settlements]
  | cancelled _ settled _ => simp [settled.settlements]

/-- The promise is rejected when the delay is cancelled. -/
theorem Shows.rejected_iff (h : s.Shows timer d) {reason : Cause} :
    .rejected reason ∈ s.settlements ↔ d = .cancelled reason := by
  cases h with
  | waiting _ _ _ => simp
  | elapsed _ settled => simp [settled.settlements]
  | cancelled _ settled _ => simp [settled.settlements, eq_comm]

/-- While the promise is pending, the timer is scheduled that is running, and no other. -/
theorem Shows.scheduled_of_pending (h : s.Shows timer d) (hpending : s.settlements = []) :
    ∃ step, d.timer? = some step ∧ s.scheduled = [(timer, step)] := by
  cases h with
  | waiting _ step _ => exact ⟨step, rfl, rfl⟩
  | elapsed _ settled =>
      rw [settled.settlements] at hpending
      cases hpending
  | cancelled _ settled _ =>
      rw [settled.settlements] at hpending
      cases hpending

/-- The promise is settled, and then once, when the delay has ended. -/
theorem Shows.length_settlements (h : s.Shows timer d) :
    s.settlements.length = if d.timer? = none then 1 else 0 := by
  cases h with
  | waiting _ _ _ => rfl
  | elapsed _ settled => rw [settled.settlements]; rfl
  | cancelled _ settled _ => rw [settled.settlements]; rfl

/-- A promise that is not pending is settled. -/
theorem Shows.settled_of_not_pending (h : s.Shows timer d) (hsettled : s.settlements ≠ []) :
    ∃ settlement, s.Settled settlement := by
  cases h with
  | waiting _ _ _ => exact absurd rfl hsettled
  | elapsed _ settled => exact ⟨_, settled⟩
  | cancelled _ settled _ => exact ⟨_, settled⟩

/-- A delay that has been begun is shown. -/
theorem shows_start (already : Option Cause) (time : Number) :
    (start already time).Shows 0 (Delay.start already time) := by
  cases already with
  | none => exact .waiting 0 _ _
  | some reason => exact .cancelled 0 ⟨rfl, rfl, rfl⟩ rfl

/-- When the timer fires that is running, the delay goes on. -/
theorem Shows.fire (h : s.Shows timer d) : (s.fire timer).Shows (timer + 1) (d.next .fired) := by
  cases h with
  | waiting _ step remaining =>
      have hfire : Callbacks.fire
          { scheduled := [(timer, step)], created := timer + 1, timer := some timer, remaining,
            listening := true } timer =
          onTimer { created := timer + 1, timer := some timer, remaining, listening := true } := by
        simp [Callbacks.fire, unschedule]
      rw [hfire, onTimer, Delay.next]
      split
      · exact .waiting (timer + 1) _ _
      · exact .elapsed _ ⟨rfl, rfl, rfl⟩
  | elapsed _ settled =>
      rw [fire_of_scheduled_eq_nil settled.scheduled]
      exact .elapsed _ settled
  | cancelled _ settled aborted =>
      rw [fire_of_scheduled_eq_nil settled.scheduled]
      exact .cancelled _ settled aborted

/-- No other timer of the delay is there to fire. -/
theorem Shows.fire_of_ne (h : s.Shows timer d) {other : Nat} (hne : other ≠ timer) :
    s.fire other = s := by
  cases h with
  | waiting _ step remaining => simp [Callbacks.fire, hne.symm]
  | elapsed _ settled => exact fire_of_scheduled_eq_nil settled.scheduled other
  | cancelled _ settled _ => exact fire_of_scheduled_eq_nil settled.scheduled other

/-- When the signal is aborted, the timer is cleared that is running. -/
theorem Shows.abort (h : s.Shows timer d) (reason : Cause) :
    (s.abort reason).Shows timer (d.next (.cancelled reason)) := by
  cases h with
  | waiting _ step remaining =>
      exact .cancelled _ ⟨by simp [Callbacks.abort, onAbort, unschedule, settle], rfl, rfl⟩ rfl
  | elapsed _ settled =>
      obtain ⟨_, hnext⟩ := settled.next (.aborted reason)
      rw [Callbacks.next] at hnext
      rw [hnext]
      exact .elapsed _ ⟨settled.scheduled, settled.listening, settled.settlements⟩
  | cancelled _ settled aborted =>
      have hsame : s.abort reason = s := by rw [Callbacks.abort, aborted]
      rw [hsame]
      exact .cancelled _ settled aborted

/-- The callbacks do what the delay does. -/
theorem Shows.run (h : s.Shows timer d) (events : List Event) :
    (s.run events).Shows (timer + firings timer events) (follow d timer events) := by
  induction events generalizing s timer d with
  | nil => exact h
  | cons event events ih =>
      rw [Callbacks.run, List.foldl_cons, ← Callbacks.run]
      cases event with
      | aborted reason => exact ih (h.abort reason)
      | fired other =>
          rw [Callbacks.next, firings, follow]
          by_cases heq : other = timer
          · subst heq
            have hrun := ih h.fire
            rw [if_pos rfl, if_pos rfl]
            rwa [Nat.add_assoc, Nat.add_comm 1] at hrun
          · rw [if_neg heq, if_neg heq, h.fire_of_ne heq]
            exact ih h

end Steps

/-! ## The end of a delay -/

section Ends

variable {already : Option Cause} {time : Number} {events : List Event}

/-- A delay that is begun is over if its last timer fires before an abort; if not, it is cancelled
by the abort, and without one it goes on. -/
theorem follow_arm_cases (time : Number) (events : List Event) :
    LastFires time (untilAborted events) ∧ follow (arm time) 0 events = .elapsed ∨
    ¬ LastFires time (untilAborted events) ∧
      ((∃ reason, firstReason? events = some reason ∧
          follow (arm time) 0 events = .cancelled reason) ∨
        firstReason? events = none ∧
          ∃ step remaining, follow (arm time) 0 events = .waiting step remaining) := by
  rw [lastFires_iff, follow_eq]
  by_cases hover : Delay.fire (firings 0 (untilAborted events)) (arm time) = elapsed
  · left
    refine ⟨hover, ?_⟩
    rw [hover]
    cases firstReason? events <;> rfl
  · right
    refine ⟨hover, ?_⟩
    obtain ⟨step, remaining, hwaiting⟩ := waiting_of_fire_ne_elapsed hover
    rw [hwaiting]
    cases firstReason? events with
    | none => exact .inr ⟨rfl, step, remaining, rfl⟩
    | some reason => exact .inl ⟨reason, rfl, rfl⟩

/-- A delay is over when its last timer fires before an abort. -/
theorem follow_start_eq_elapsed_iff :
    follow (Delay.start already time) 0 events = .elapsed ↔
      already = none ∧ LastFires time (untilAborted events) := by
  cases already with
  | some reason =>
      rw [Delay.start, follow_of_timer?_eq_none rfl]
      simp
  | none =>
      rw [Delay.start]
      rcases follow_arm_cases time events with
        ⟨hlast, hd⟩ | ⟨hlast, ⟨reason, -, hd⟩ | ⟨-, step, remaining, hd⟩⟩ <;> simp [hlast, hd]

/-- A delay is cancelled by an abort before its last timer fires. -/
theorem follow_start_eq_cancelled_iff {reason : Cause} :
    follow (Delay.start already time) 0 events = .cancelled reason ↔
      already.or (firstReason? events) = some reason ∧
        (already.isSome ∨ ¬ LastFires time (untilAborted events)) := by
  cases already with
  | some first =>
      rw [Delay.start, follow_of_timer?_eq_none rfl]
      simp
  | none =>
      rw [Delay.start]
      rcases follow_arm_cases time events with
        ⟨hlast, hd⟩ | ⟨hlast, ⟨first, hfirst, hd⟩ | ⟨hfirst, step, remaining, hd⟩⟩
      · simp [hlast, hd]
      · simp [hlast, hd, hfirst]
      · simp [hlast, hd, hfirst]

/-- A delay ends with an abort or with its last timer. -/
theorem timer?_follow_start_eq_none_iff :
    (follow (Delay.start already time) 0 events).timer? = none ↔
      already.isSome ∨ (∃ reason, .aborted reason ∈ events) ∨ LastFires time events := by
  have hended : ∀ d : Delay, d.timer? = none ↔ d = .elapsed ∨ ∃ reason, d = .cancelled reason := by
    intro d
    cases d <;> simp [timer?]
  simp only [hended, follow_start_eq_elapsed_iff, follow_start_eq_cancelled_iff,
    ← firstReason?_isSome_iff]
  cases already with
  | some reason => simp
  | none =>
      cases hfirst : firstReason? events with
      | none => simp [untilAborted_of_firstReason? hfirst]
      | some reason =>
          by_cases hlast : LastFires time (untilAborted events) <;> simp [hlast]

end Ends

/-- The promise of a delay is settled once: it is rejected with the reason of the signal if the
signal was aborted before the delay was begun or is aborted before the last timer fires, and it is
resolved otherwise. -/
structure SettlesOnce (already : Option Cause) (time : Number) (events : List Event)
    (s : Callbacks) : Prop where
  reason : s.reason = already.or (firstReason? events)
  rejected : ∀ reason, .rejected reason ∈ s.settlements ↔
    s.reason = some reason ∧ (already.isSome ∨ ¬ LastFires time (untilAborted events))
  resolved : .resolved ∈ s.settlements ↔ already = none ∧ LastFires time (untilAborted events)
  atMostOnce : s.settlements.length ≤ 1
  once : s.settlements.length = 1 ↔
    already.isSome ∨ (∃ reason, .aborted reason ∈ events) ∨ LastFires time events
  /-- A delay with a signal that was aborted before creates no timer. -/
  untimed : already.isSome → s.created = 0
  /-- While the promise is pending, one timer is scheduled, the one that follows those that have
  fired. -/
  pending : s.settlements = [] → ∃ step, s.scheduled = [(firings 0 events, step)]
  /-- Once it is settled, no timer is scheduled, and nothing but the signal can change. -/
  final : s.settlements ≠ [] → s.scheduled = [] ∧
    ∀ later, s.run later = { s with reason := s.reason.or (firstReason? later) }
  /-- The variables show the state of the delay. -/
  shows : s.Shows (firings 0 events) (follow (Delay.start already time) 0 events)

/-- One timer after the other fires. -/
theorem firings_range' (timer n : Nat) : firings timer ((List.range' timer n).map .fired) = n := by
  induction n generalizing timer with
  | zero => rfl
  | succ n ih => rw [List.range'_succ, List.map_cons, firings, if_pos rfl, ih]

/-- A delay settles once at most, whichever way the firings of its timers and an abort interleave;
and it does settle for certain, once enough of its timers have fired, exactly if it comes to an
end. -/
theorem settlesOnce_run (time : Number) :
    (∀ already events, SettlesOnce already time events ((start already time).run events)) ∧
    (HasEnd time ↔ ∃ n, ∀ already events, n ≤ firings 0 events →
      ((start already time).run events).settlements.length = 1) := by
  have hsettles : ∀ already events,
      SettlesOnce already time events ((start already time).run events) := by
    intro already events
    have hshows := (shows_start already time).run events
    rw [Nat.zero_add] at hshows
    have hreason : ((start already time).run events).reason = already.or (firstReason? events) := by
      rw [reason_run]
      cases already <;> rfl
    have huntimed : already.isSome → ((start already time).run events).created = 0 := by
      intro hsome
      obtain ⟨first, rfl⟩ := Option.isSome_iff_exists.1 hsome
      have hsettled : (start (some first) time).Settled (.rejected first) := ⟨rfl, rfl, rfl⟩
      rw [hsettled.run events]
      rfl
    exact {
      reason := hreason
      rejected := fun reason => by
        rw [hreason, hshows.rejected_iff, follow_start_eq_cancelled_iff]
      resolved := hshows.resolved_iff.trans follow_start_eq_elapsed_iff
      atMostOnce := by
        rw [hshows.length_settlements]
        split <;> decide
      once := by
        rw [hshows.length_settlements, ← timer?_follow_start_eq_none_iff]
        by_cases hended : (follow (Delay.start already time) 0 events).timer? = none <;>
          simp [hended]
      untimed := huntimed
      pending := fun hpending =>
        (hshows.scheduled_of_pending hpending).imp fun _ hstep => hstep.2
      final := fun hdone => by
        obtain ⟨settlement, hsettled⟩ := hshows.settled_of_not_pending hdone
        exact ⟨hsettled.scheduled, hsettled.run⟩
      shows := hshows }
  refine ⟨hsettles, fun hend => ?_, ?_⟩
  · obtain ⟨n, hn⟩ := exists_takesTimers_iff.2 hend
    exact ⟨n, fun already events hfired =>
      (hsettles already events).once.2 (.inr (.inr ⟨n, hn, hfired⟩))⟩
  · rintro ⟨n, hn⟩
    -- The timers alone have to settle it, without an abort.
    have honce := hn none ((List.range' 0 n).map .fired) (Nat.le_of_eq (firings_range' 0 n).symm)
    rcases (hsettles none _).once.1 honce with hsome | ⟨reason, haborted⟩ | ⟨m, hm, -⟩
    · cases hsome
    · obtain ⟨timer, -, htimer⟩ := List.mem_map.1 haborted
      cases htimer
    · exact exists_takesTimers_iff.1 ⟨m, hm⟩

/-- Between the two timers of a delay an abort clears the second one. -/
theorem settlesOnce_run_betweenTimers :
    let time : Number := .whole 2147483648
    let events : List Event := [.fired 0, .aborted (.error "gone"), .fired 1]
    let s := (start none time).run events
    HasEnd time ∧ SettlesOnce none time events s ∧ .rejected (.error "gone") ∈ s.settlements ∧
      s.settlements.length = 1 := by
  intro time events s
  have hend : HasEnd time := by decide +kernel
  have hsettles : SettlesOnce none time events s := (settlesOnce_run time).1 none events
  have htwo : TakesTimers time 2 := by
    have htimers : TakesTimers time (steps 2147483648).length := takesTimers_whole (by decide)
    rwa [steps_of_lt (by decide), steps_of_le (by decide)] at htimers
  have hearly : ¬ LastFires time (untilAborted events) := by
    rintro ⟨n, hn, hle⟩
    rw [hn.unique htwo] at hle
    exact absurd hle (by decide)
  have honce : s.settlements.length = 1 :=
    hsettles.once.2 (.inr (.inl ⟨.error "gone", by simp [events]⟩))
  exact ⟨hend, hsettles, (hsettles.rejected _).2 ⟨hsettles.reason, .inr hearly⟩, honce⟩

/-- A rule can hold a message back for 10^30 milliseconds.  Of that time a step takes nothing away,
so that one timer follows the other: without an abort the delay is never settled. -/
theorem pending_run_endless :
    let time : Number := 1000000000000000000000000000000
    let document : Document := .record [("rules", .list [.record [("target", .text "request"),
      ("actions", .record [("delay", .number time)])]])]
    let config : Config :=
      ⟨Config.defaultListenPort, [], [⟨"rule-0", .request, {}, { delay := some time }⟩]⟩
    Config.ofDocument (some document) none = .ok config ∧
      ∀ events, firstReason? events = none →
        let s := (start none time).run events
        s.settlements = [] ∧ ∃ step, s.scheduled = [(firings 0 events, step)] := by
  intro time document config
  have hconfig : Config.ofDocument (some document) none = .ok config := by decide +kernel
  have hendless : ¬ HasEnd time := by decide +kernel
  refine ⟨hconfig, fun events hnone => ?_⟩
  intro s
  have hshows := (shows_start none time).run events
  obtain ⟨more, -, hmore⟩ := exists_fire_eq_arm hendless (firings 0 events)
  have hwaiting : follow (Delay.start none time) 0 events = arm more := by
    rw [follow_eq, hnone, untilAborted_of_firstReason? hnone]
    exact hmore
  rw [Nat.zero_add, hwaiting] at hshows
  have hpending : s.settlements = [] := by
    rw [← List.length_eq_zero_iff, hshows.length_settlements]
    rfl
  exact ⟨hpending, (hshows.scheduled_of_pending hpending).imp fun _ hstep => hstep.2⟩

end Callbacks

end Delay

end FaultInjection
