import FaultInjection.Proofs.Proxy.Chronicle

/-!
# Proxies - Timetables

A timetable is a chronicle with a clock and the timers that its exchanges have set.  The
clock never goes back, a timer fires at the very time at which it is due, and nothing
happens at a later time while a timer is due.  Apart from that the moments are free: any
exchange, the rules and the history can come next.

Main definitions:

- `Timetable`, with `Timetable.start`, `Timetable.next?` and `Timetable.run?`.
- `Timetable.isTimely`, whether a moment can come next.
- `Timetable.timersOf` and `Timetable.firedBy`, the timers of one exchange.

Main results:

- `Timetable.timersOf_next` and `Timetable.firedBy_next`: the timers of an exchange go by
  what the exchange itself asks for and is told.
-/

namespace FaultInjection

/-- A chronicle with a clock and timers, each with the number of its exchange and a time. -/
structure Timetable where
  chronicle : Chronicle
  clock : Number := .infinite true
  /-- The timers that are running, with the times at which they are due. -/
  timers : List (Nat × Number) := []
  /-- The timers that have fired, with the times at which they did. -/
  fired : List (Nat × Number) := []

/-! ## Timers -/

namespace Moment

/-- The exchange whose timer fires at a moment. -/
def firing? (m : Moment) : Option Nat :=
  match m.what with
  | .told id .timerFired => some id
  | _ => none

/-- The timer of an exchange fires where the exchange is told so. -/
theorem firing?_eq_some_iff {m : Moment} {id : Nat} :
    m.firing? = some id ↔ m.what = .told id .timerFired := by
  unfold firing?
  constructor
  · intro h
    split at h
    · rename_i other hwhat
      cases h
      exact hwhat
    · cases h
  · intro h
    rw [h]

/-- The timers without one that fires at a moment. -/
def expire (m : Moment) (timers : List (Nat × Number)) : List (Nat × Number) :=
  match m.firing? with
  | none => timers
  | some id => timers.erase (id, m.time)

end Moment

namespace Timetable

/-- The times at which the timers of an exchange are due after an effect of its own. -/
def windOwn (time : Number) (timers : List Number) : Exchange.Effect → List Number
  | .setTimer milliseconds => timers ++ [time + milliseconds]
  | .dropTimer => []
  | _ => timers

/-- The timers after an effect of an exchange at a time. -/
def wind (time : Number) (timers : List (Nat × Number)) :
    Nat × Exchange.Effect → List (Nat × Number)
  | (id, .setTimer milliseconds) => timers ++ [(id, time + milliseconds)]
  | (id, .dropTimer) => timers.filter fun timer => !(timer.1 == id)
  | _ => timers

/-! ## Moments -/

/-- The timetable of a proxy without exchanges. -/
def start (source : RuleSource) : Timetable := { chronicle := .start source }

/-- Whether a moment can come next: the clock does not go back, no timer is overdue, and a timer
that fires is one that is due. -/
def isTimely (t : Timetable) (m : Moment) : Bool :=
  t.clock.le m.time && t.timers.all (fun timer => !timer.2.lt m.time) &&
    m.firing?.all fun id => t.timers.contains (id, m.time)

/-- The timetable after a moment. -/
def next [Domain.Mapping] (t : Timetable) (m : Moment) : Timetable where
  chronicle := t.chronicle.next m
  clock := m.time
  timers := (t.chronicle.proxy.attend m).2.foldl (wind m.time) (m.expire t.timers)
  fired := t.fired ++ (m.firing?.map (·, m.time)).toList

/-- The timetable after a moment, if the moment can come next. -/
def next? [Domain.Mapping] (t : Timetable) (m : Moment) : Option Timetable :=
  if t.isTimely m then some (t.next m) else none

/-- The timetable after moments in their order, if each of them can come next. -/
def run? [Domain.Mapping] (t : Timetable) : List Moment → Option Timetable
  | [] => some t
  | m :: rest => (t.next? m).bind (·.run? rest)

/-- The times at which the timers of an exchange are due. -/
def timersOf (t : Timetable) (id : Nat) : List Number := under id t.timers

/-- The times at which timers of an exchange have fired. -/
def firedBy (t : Timetable) (id : Nat) : List Number := under id t.fired

/-! ## The timers of an exchange -/

/-- An effect of an exchange changes no timers but its own. -/
theorem under_wind (id : Nat) (time : Number) (timers : List (Nat × Number))
    (effect : Nat × Exchange.Effect) :
    under id (wind time timers effect) =
      if effect.1 = id then windOwn time (under id timers) effect.2 else under id timers := by
  obtain ⟨other, effect⟩ := effect
  cases effect with
  | setTimer milliseconds =>
      have htagged := under_tagged id other [time + milliseconds]
      simp only [List.map_cons, List.map_nil] at htagged
      simp only [wind, under_append, htagged, windOwn]
      split <;> simp
  | dropTimer => simpa [wind, windOwn] using under_filter_ne id other timers
  | _ => simp [wind, windOwn]

/-- The timers of an exchange go by its own effects. -/
theorem under_foldl_wind (id : Nat) (time : Number) (timers : List (Nat × Number))
    (effects : List (Nat × Exchange.Effect)) :
    under id (effects.foldl (wind time) timers) =
      (under id effects).foldl (windOwn time) (under id timers) := by
  induction effects generalizing timers with
  | nil => rfl
  | cons effect rest ih =>
      rw [List.foldl_cons, ih, under_wind]
      by_cases h : effect.1 = id <;> simp [under_cons, h]

/-- A timer that expires is taken from those of its exchange. -/
theorem under_erase (id other : Nat) (time : Number) (timers : List (Nat × Number)) :
    under id (timers.erase (other, time)) =
      if other = id then (under id timers).erase time else under id timers := by
  induction timers with
  | nil => simp
  | cons timer rest ih =>
      obtain ⟨key, due⟩ := timer
      by_cases hsame : (key, due) = (other, time)
      · cases hsame
        rw [List.erase_cons_head, under_cons]
        split
        · rw [List.erase_cons_head]
        · rfl
      · have hne : ((key, due) == (other, time)) = false := by simpa using hsame
        rw [List.erase_cons_tail (by simpa using hne), under_cons, under_cons, ih]
        by_cases hkey : key = id
        · by_cases hother : other = id
          · have hdue : due ≠ time := fun h => hsame (by rw [hkey, hother, h])
            simp [hkey, hother, hdue]
          · simp [hkey, hother]
        · simp [hkey]

/-- A timer of an exchange expires where it is the exchange whose timer fires. -/
theorem under_expire (m : Moment) (id : Nat) (timers : List (Nat × Number)) :
    under id (m.expire timers) =
      if m.firing? = some id then (under id timers).erase m.time else under id timers := by
  unfold Moment.expire
  cases m.firing? with
  | none => simp
  | some other => simp [under_erase]

/-- The timers of an exchange go by what it asks for and by those of its timers that fire. -/
theorem timersOf_next [Domain.Mapping] (t : Timetable) (m : Moment) (id : Nat) :
    (t.next m).timersOf id = (under id (t.chronicle.proxy.attend m).2).foldl (windOwn m.time)
      (if m.firing? = some id then (t.timersOf id).erase m.time else t.timersOf id) := by
  rw [timersOf, next, under_foldl_wind, under_expire]
  rfl

/-- A timer of an exchange has fired at a moment where it is the exchange whose timer fires. -/
theorem firedBy_next [Domain.Mapping] (t : Timetable) (m : Moment) (id : Nat) :
    (t.next m).firedBy id = t.firedBy id ++ if m.firing? = some id then [m.time] else [] := by
  rw [firedBy, next, under_append, firedBy]
  cases m.firing? with
  | none => simp
  | some other => simp [under_cons]

/-! ## Moments that can come next -/

/-- What has to hold for a moment to come next. -/
theorem isTimely_iff {t : Timetable} {m : Moment} :
    t.isTimely m = true ↔ t.clock.le m.time = true ∧
      (∀ timer ∈ t.timers, timer.2.lt m.time = false) ∧
      ∀ id, m.firing? = some id → m.time ∈ t.timersOf id := by
  simp only [isTimely, Bool.and_eq_true, List.all_eq_true, Bool.not_eq_true', timersOf,
    mem_under_iff, and_assoc]
  cases m.firing? with
  | none => simp
  | some id => simp

/-- A moment after which a timetable goes on is timely. -/
theorem run?_cons_eq_some_iff [Domain.Mapping] {t later : Timetable} {m : Moment}
    {rest : List Moment} :
    t.run? (m :: rest) = some later ↔ t.isTimely m = true ∧ (t.next m).run? rest = some later := by
  rw [run?, next?]
  cases h : t.isTimely m <;> simp

theorem run?_append [Domain.Mapping] (t : Timetable) (first second : List Moment) :
    t.run? (first ++ second) = (t.run? first).bind (·.run? second) := by
  induction first generalizing t with
  | nil => rfl
  | cons m rest ih =>
      rw [List.cons_append, run?, run?]
      cases t.next? m with
      | none => rfl
      | some later => exact ih later

/-- The chronicle of a timetable is that of its moments. -/
theorem chronicle_run? [Domain.Mapping] {t later : Timetable} {moments : List Moment}
    (h : t.run? moments = some later) : later.chronicle = t.chronicle.run moments := by
  induction moments generalizing t with
  | nil =>
      cases h
      rfl
  | cons m rest ih => exact ih (run?_cons_eq_some_iff.1 h).2

end Timetable

end FaultInjection
