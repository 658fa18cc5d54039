import FaultInjection.Proofs.Exchange.Departure
import FaultInjection.Proofs.Proxy.Accounting
import FaultInjection.Proofs.Proxy.Isolation

/-!
# Proxies - Clients that leave

An exchange of a proxy has one timer running while it holds a message back, and none
otherwise.  So once its client has left it has no timer, whatever stage it was at and
whatever happens to it and to the rest of the proxy from then on.

Main definitions:

- `Timetable.Keeps`, an exchange with the timer of its stage.

Main results:

- `Timetable.keeps_run`: an exchange always has the timer of its stage.
- `Timetable.exists_keeps_run`: so has each exchange of a timetable that runs.
- `Timetable.departed_run`: what becomes of an exchange whose client leaves.
-/

namespace FaultInjection

namespace Timetable

/-! ## The timer of a stage -/

/-- Only what effects ask for about timers changes the timers of an exchange. -/
theorem foldl_windOwn_timings (time : Number) (timers : List Number)
    (effects : List Exchange.Effect) :
    effects.foldl (windOwn time) timers =
      (Exchange.timings effects).foldl (windOwn time) timers := by
  induction effects generalizing timers with
  | nil => rfl
  | cons effect rest ih =>
      rw [List.foldl_cons, ih, Exchange.timings_cons]
      cases effect <;> rfl

/-- Where a message is held back one timer runs, and otherwise none, if it was so before the step
or the only timer has just fired. -/
theorem length_foldl_windOwn {x : Exchange} {event : Exchange.Event} (time : Number)
    {timers : List Number} (hfired : event = .timerFired → timers.length = 0)
    (htimers : event ≠ .timerFired → timers.length = x.isHolding.toNat) :
    ((x.next time event).2.foldl (windOwn time) timers).length =
      (x.next time event).1.isHolding.toNat := by
  rw [foldl_windOwn_timings]
  cases x.rewinds_next time event with
  | kept hevent hholding htimings =>
      rw [htimings, hholding, List.foldl_nil]
      by_cases hfires : event = .timerFired
      · have hfree : x.isHolding = false := Bool.eq_false_iff.2 fun h => hevent h hfires
        rw [hfired hfires, hfree, Bool.toNat_false]
      · exact htimers hfires
  | armed hfree harms =>
      have hnone : timers = [] := by
        refine List.length_eq_zero_iff.1 ?_
        by_cases hfires : event = .timerFired
        · exact hfired hfires
        · rw [htimers hfires, Bool.eq_false_iff.2 fun h => hfires (hfree h), Bool.toNat_false]
      subst hnone
      rcases harms with ⟨hidle, htimings⟩ | ⟨hholding, milliseconds, htimings⟩
      · rw [htimings, hidle]
        rfl
      · rw [htimings, hholding]
        rfl
  | dropped hevent hholding htimings =>
      rw [htimings, hholding]
      rfl

/-- An exchange goes through a course, and one timer of it is running while it holds a message
back, and none otherwise. -/
structure Keeps (t : Timetable) (id : Nat) (c : Exchange.Course) : Prop where
  numbered : t.Numbered
  follows : t.chronicle.Follows id c
  length_timersOf : (t.timersOf id).length = c.exchange.isHolding.toNat

section Keeps

variable {t : Timetable} {id : Nat} {c : Exchange.Course} {m : Moment}

/-- No timer is running under the number that is given out next. -/
theorem Numbered.timersOf_eq_nil (hn : t.Numbered) :
    t.timersOf (t.chronicle.proxy.history.lastId + 1) = [] := by
  refine under_eq_nil _ fun timer htimer heq => ?_
  have hissued := hn.timers timer htimer
  rw [ids, hn.chronicle.ids, List.mem_range'_1] at hissued
  omega

/-- An exchange that starts has the timer of its stage. -/
theorem keeps_arrived [Domain.Mapping] (hn : t.Numbered) {arrival : Arrival} {client : Client}
    (hm : m.what = .arrived arrival client) (htimely : t.isTimely m = true) :
    let id := t.chronicle.proxy.history.lastId + 1
    (t.next m).Keeps id
      (Exchange.Course.start id m.time t.chronicle.proxy.source.current arrival client) := by
  intro id
  refine ⟨numbered_next hn htimely, Chronicle.follows_arrived hn.chronicle hm, ?_⟩
  obtain ⟨hidle, htimings⟩ :=
    Exchange.idles_start m.time id t.chronicle.proxy.source.current arrival client
  have hfiring : m.firing? = none := by rw [Moment.firing?, hm]
  rw [timersOf_next, Proxy.under_attend_arrived hm, foldl_windOwn_timings, htimings, hfiring,
    if_neg (by simp), hn.timersOf_eq_nil]
  exact (congrArg Bool.toNat hidle).symm

/-- Each moment that is timely keeps an exchange with the timer of its stage. -/
theorem keeps_next [Domain.Mapping] (hc : t.Keeps id c) (htimely : t.isTimely m = true) :
    (t.next m).Keeps id (c.run (m.eventsOf id)) := by
  refine ⟨numbered_next hc.numbered htimely,
    Chronicle.follows_next hc.numbered.chronicle hc.follows m, ?_⟩
  by_cases hm : ∃ event, m.what = .told id event
  · obtain ⟨event, hm⟩ := hm
    have hevents : m.eventsOf id = [(m.time, event)] := by simp [Moment.eventsOf, hm]
    rw [hevents, timersOf_next, Proxy.under_attend_told hm hc.follows.exchange]
    refine length_foldl_windOwn m.time (fun hfires => ?_) fun hfires => ?_
    · -- A timer that fires is the only one that was running.
      have hfiring : m.firing? = some id := by rw [Moment.firing?_eq_some_iff, hm, hfires]
      have hdue := (isTimely_iff.1 htimely).2.2 id hfiring
      have hle := Bool.toNat_le c.exchange.isHolding
      rw [if_pos hfiring, List.length_erase_of_mem hdue, hc.length_timersOf]
      omega
    · have hfiring : m.firing? ≠ some id := by
        rw [ne_eq, Moment.firing?_eq_some_iff, hm]
        simpa using hfires
      rw [if_neg hfiring]
      exact hc.length_timersOf
  · have hquiet : ∀ event, m.what ≠ .told id event := fun event h => hm ⟨event, h⟩
    have hfiring : m.firing? ≠ some id := fun h => hquiet _ (Moment.firing?_eq_some_iff.1 h)
    rw [Moment.eventsOf_eq_nil hquiet, timersOf_next, if_neg hfiring,
      Proxy.under_attend_of_not_told hquiet (hc.follows.id_ne hc.numbered.chronicle)]
    exact hc.length_timersOf

/-- An exchange always has the timer of its stage. -/
theorem keeps_run [Domain.Mapping] (hc : t.Keeps id c) {moments : List Moment} {later : Timetable}
    (hrun : t.run? moments = some later) :
    later.Keeps id (c.run (moments.flatMap (·.eventsOf id))) := by
  induction moments generalizing t c with
  | nil =>
      cases hrun
      exact hc
  | cons m rest ih =>
      obtain ⟨htimely, hrest⟩ := run?_cons_eq_some_iff.1 hrun
      rw [List.flatMap_cons, Exchange.Course.run_append]
      exact ih (keeps_next hc htimely) hrest

/-- Each exchange that a moment leaves or starts has the timer of its stage. -/
theorem exists_keeps_next [Domain.Mapping] (hn : t.Numbered)
    (hkeeps : ∀ id x, t.chronicle.proxy.exchange? id = some x →
      ∃ c : Exchange.Course, c.exchange = x ∧ t.Keeps id c)
    (htimely : t.isTimely m = true) {x : Exchange}
    (hx : (t.next m).chronicle.proxy.exchange? id = some x) :
    ∃ c : Exchange.Course, c.exchange = x ∧ (t.next m).Keeps id c := by
  have hcourse : ∀ c : Exchange.Course, (t.next m).Keeps id c →
      ∃ c : Exchange.Course, c.exchange = x ∧ (t.next m).Keeps id c := fun c hc =>
    ⟨c, Option.some.inj (hc.follows.exchange.symm.trans hx), hc⟩
  cases hold : t.chronicle.proxy.exchange? id with
  | some y =>
      obtain ⟨c, -, hc⟩ := hkeeps id y hold
      exact hcourse _ (keeps_next hc htimely)
  | none =>
      have hnew : id ∈ (t.next m).ids := by
        rw [ids, ← Proxy.isSome_exchange?_iff, hx, Option.isSome_some]
      have hnone : id ∉ t.ids := by
        rw [ids, ← Proxy.isSome_exchange?_iff, hold]
        simp
      by_cases harrived : ∃ arrival client, m.what = .arrived arrival client
      · obtain ⟨arrival, client, hm⟩ := harrived
        have hids : (t.next m).ids = t.ids ++ [t.chronicle.proxy.history.lastId + 1] :=
          (t.chronicle.ids_arrived hm).1
        rw [hids, List.mem_append, List.mem_singleton] at hnew
        obtain rfl := hnew.resolve_left hnone
        exact hcourse _ (keeps_arrived hn hm htimely)
      · have hids : (t.next m).ids = t.ids :=
          (t.chronicle.ids_of_not_arrived fun arrival client h =>
            harrived ⟨arrival, client, h⟩).1
        exact absurd (hids ▸ hnew) hnone

/-- Each exchange of a timetable has the timer of its stage. -/
theorem exists_keeps_run [Domain.Mapping] {moments : List Moment} {later : Timetable}
    (hn : t.Numbered)
    (hkeeps : ∀ id x, t.chronicle.proxy.exchange? id = some x →
      ∃ c : Exchange.Course, c.exchange = x ∧ t.Keeps id c)
    (hrun : t.run? moments = some later) {x : Exchange}
    (hx : later.chronicle.proxy.exchange? id = some x) :
    ∃ c : Exchange.Course, c.exchange = x ∧ later.Keeps id c := by
  induction moments generalizing t with
  | nil =>
      cases hrun
      exact hkeeps id x hx
  | cons m rest ih =>
      obtain ⟨htimely, hrest⟩ := run?_cons_eq_some_iff.1 hrun
      exact ih (numbered_next hn htimely)
        (fun _ _ hfound => exists_keeps_next hn hkeeps htimely hfound) hrest

end Keeps

/-! ## Clients that leave -/

/-- A client that leaves an exchange which goes on makes it end, if it ends at all, as cancelled,
or as aborted where a rule drops its request.  The client is sent nothing from then on, though a
rule that drops the request cuts its connection.  No timer of the exchange is running or is set
from then on. -/
theorem departed_run [Domain.Mapping] {source : RuleSource} {config : Config}
    {before during after : List Moment} {now leaving later : Timetable} {time timeLeft : Number}
    {files filesLeft : Files} {arrival : Arrival} {client : Client} {x : Exchange}
    (hbefore : (start source).run? before = some now)
    (hconfig : now.chronicle.proxy.source.current = .ok config)
    (hduring : now.run? (⟨time, files, .arrived arrival client⟩ :: during) = some leaving)
    (hx : leaving.chronicle.proxy.exchange? (now.chronicle.proxy.history.lastId + 1) = some x)
    (hactive : x.state.isEnded = false)
    (hafter : leaving.run?
      (⟨timeLeft, filesLeft, .told (now.chronicle.proxy.history.lastId + 1) .clientLeft⟩ ::
        after) = some later) :
    let id := now.chronicle.proxy.history.lastId + 1
    let told := during.flatMap (·.eventsOf id) ++
      (timeLeft, .clientLeft) :: after.flatMap (·.eventsOf id)
    ∃ intake y, Exchange.takeIn (Exchange.rulesFor config) arrival = .ok intake ∧
      later.chronicle.proxy.exchange? id = some y ∧
      (y.state.isEnded = false → later.chronicle.closingsOf id = [] ∧ y.client = x.client) ∧
      (y.state.isEnded = true →
        let dropped := Exchange.dropsRequest intake (told.map Prod.snd)
        (∃ duration, later.chronicle.closingsOf id =
          [(if dropped then .aborted else .cancelled, { duration := some (some duration) })]) ∧
        y.client = if dropped then x.client.cut else x.client) ∧
      later.timersOf id = [] ∧
      ∃ more, later.chronicle.askedBy id = leaving.chronicle.askedBy id ++ more ∧
        ∀ time milliseconds, (time, .setTimer milliseconds) ∉ more := by
  intro id told
  have hn := numbered_run (numbered_start source) hbefore
  obtain ⟨htimely, hrest⟩ := run?_cons_eq_some_iff.1 hduring
  have hstart := keeps_arrived hn rfl htimely
  rw [hconfig] at hstart
  have hleaving := keeps_run hstart hrest
  have hlater := keeps_run hleaving hafter
  have hevents : (⟨timeLeft, filesLeft, .told id .clientLeft⟩ :: after : List Moment).flatMap
      (·.eventsOf id) = (timeLeft, .clientLeft) :: after.flatMap (·.eventsOf id) := by
    simp [Moment.eventsOf]
  rw [hevents] at hlater
  -- From here on the exchange is followed through its course.
  generalize hc : (Exchange.Course.start id time (.ok config) arrival client).run
    (during.flatMap (·.eventsOf id)) = c at hleaving hlater
  obtain rfl : x = c.exchange := Option.some.inj (hx.symm.trans hleaving.follows.exchange)
  obtain ⟨intake, htake, htracks⟩ :=
    Exchange.Course.exists_tracks_of_active id time client (hc ▸ hactive)
  rw [hc] at htracks
  have hclient := htracks.client_of_active hactive
  have hleave := Exchange.Course.left_of_leave htracks hactive timeLeft
  have hleft := Exchange.Course.left_run hleave (after.flatMap (·.eventsOf id))
  rw [← Exchange.Course.run_cons] at hleft
  have htold : (c.run ((timeLeft, .clientLeft) :: after.flatMap (·.eventsOf id))).told =
      told.map Prod.snd := by
    rw [← hc, ← Exchange.Course.run_append, Exchange.Course.told_run]
    rfl
  obtain ⟨more, hasked, hnone⟩ :=
    Exchange.Course.asked_of_left hleave (after.flatMap (·.eventsOf id))
  refine ⟨intake, _, htake, hlater.follows.exchange, fun hgoing => ?_, fun hended => ?_, ?_,
    more, ?_, hnone⟩
  · rw [Chronicle.closingsOf, hlater.follows.asked, hclient]
    exact hleft.of_active hgoing
  · rw [Chronicle.closingsOf, hlater.follows.asked, hclient, ← htold]
    exact hleft.of_ended hended
  · have hlength := hlater.length_timersOf
    rw [hleft.isHolding_eq] at hlength
    exact List.length_eq_zero_iff.1 hlength
  · rw [hlater.follows.asked, hleaving.follows.asked]
    exact hasked

/-! ## A client that leaves while its request is held back -/

/-- The second request is complete and held back. -/
def heldBack : List Moment := [⟨2, [], .told 2 .requestEnd⟩]

/-- Its client leaves, and the first request is complete later. -/
def leftWaiting : List Moment := [
  ⟨10, [], .told 2 .clientLeft⟩,
  ⟨60, [], .told 1 .requestEnd⟩]

/-- The exchange of the client that has left is cancelled, and its timer no longer runs. -/
theorem departed_run_leftWaiting :
    ∃ now leaving later x y duration, (start slowRules).run? oneArrived = some now ∧
      now.chronicle.proxy.history.lastId + 1 = 2 ∧
      now.run? (⟨2, [], .arrived rootArrival {}⟩ :: heldBack) = some leaving ∧
      leaving.chronicle.proxy.exchange? 2 = some x ∧ x.state.isEnded = false ∧
      leaving.timersOf 2 = [52] ∧ leaving.run? leftWaiting = some later ∧
      later.chronicle.proxy.exchange? 2 = some y ∧ y.client = x.client ∧
      later.timersOf 2 = [] ∧ later.chronicle.closingsOf 2 =
        [(.cancelled, { duration := some (some duration) })] := by
  obtain ⟨now, hbefore⟩ : ∃ now, (start slowRules).run? oneArrived = some now :=
    Option.isSome_iff_exists.1 (by decide +kernel)
  have hnow : now.chronicle = (Chronicle.start slowRules).run oneArrived := chronicle_run? hbefore
  have hlast : now.chronicle.proxy.history.lastId + 1 = 2 := by
    rw [hnow]
    decide +kernel
  obtain ⟨config, hslow⟩ : ∃ config, slowRules.config = some config := ⟨_, rfl⟩
  have hconfig : now.chronicle.proxy.source.current = .ok config := by
    have hkept : ((Chronicle.start slowRules).run oneArrived).proxy.source.config =
        slowRules.config := by decide +kernel
    rw [hnow, RuleSource.current, hkept, hslow]
  -- The request is held back until its client leaves.
  have hwhole : ((start slowRules).run?
      (oneArrived ++ ⟨2, [], .arrived rootArrival {}⟩ :: heldBack)).map
        (fun t => (t.timersOf 2, (t.chronicle.proxy.exchange? 2).map (·.state.isEnded))) =
      some ([52], some false) := by decide +kernel
  rw [run?_append, hbefore, Option.bind_some] at hwhole
  obtain ⟨leaving, hduring, hstands⟩ := Option.map_eq_some_iff.1 hwhole
  obtain ⟨htimers, hgoing⟩ := Prod.mk.inj hstands
  obtain ⟨x, hx, hactive⟩ := Option.map_eq_some_iff.1 hgoing
  -- It ends as cancelled then.
  have hends : ((start slowRules).run?
      (oneArrived ++ ⟨2, [], .arrived rootArrival {}⟩ :: (heldBack ++ leftWaiting))).map
        (fun t => ((t.chronicle.closingsOf 2).map Prod.fst,
          (t.chronicle.proxy.exchange? 2).map (·.state.isEnded))) =
      some ([.cancelled], some true) := by decide +kernel
  rw [run?_append, hbefore, Option.bind_some, ← List.cons_append, run?_append, hduring,
    Option.bind_some] at hends
  obtain ⟨later, hafter, hstands⟩ := Option.map_eq_some_iff.1 hends
  obtain ⟨houtcomes, hended⟩ := Prod.mk.inj hstands
  have hleft : leaving.run? (⟨10, [], .told (now.chronicle.proxy.history.lastId + 1) .clientLeft⟩ ::
      [⟨60, [], .told 1 .requestEnd⟩]) = some later := hlast.symm ▸ hafter
  have hdeparted := departed_run hbefore hconfig hduring (hlast.symm ▸ hx) hactive hleft
  simp only [hlast] at hdeparted
  obtain ⟨intake, y, -, hy, -, hend, hnone, -⟩ := hdeparted
  rw [hy, Option.map_some, Option.some.injEq] at hended
  obtain ⟨⟨duration, hclosings⟩, hclient⟩ := hend hended
  rw [hclosings, List.map_cons, List.map_nil, List.singleton_inj] at houtcomes
  split at houtcomes
  · cases houtcomes
  · rename_i hkept
    rw [if_neg hkept] at hclient hclosings
    exact ⟨now, leaving, later, x, y, duration, hbefore, hlast, hduring, hx, hactive, htimers,
      hafter, hy, hclient, hnone, hclosings⟩

end Timetable

end FaultInjection
