import FaultInjection.Proofs.Proxy.Logbook
import FaultInjection.Proofs.Proxy.Timetable

/-!
# Proxies - Isolation

What becomes of an exchange does not depend on the other exchanges, nor on what happens
to the rules and the history after its request has arrived.  It asks for the same things
at the same times, answers its client in the same way, and its timers fire at the same
times, as if it were the only exchange of a proxy whose rules never change.  Its entry,
as long as it stays in the log, is the same too, save for its number.

The proof runs the proxy and one that has this exchange alone side by side.

Main definitions:

- `Moment.alone?`, a moment as the exchange alone sees it.
- `Timetable.Matches`, an exchange that goes as it goes alone.
- `Timetable.Alike`, the relation between the two proxies.

Main results:

- `Timetable.alike_next`: each moment keeps the two alike.
- `Timetable.matches_run`: an exchange goes as it goes alone.
-/

namespace FaultInjection

/-- A moment as the exchange of a number sees it, were it the only one. -/
def Moment.alone? (m : Moment) (id : Nat) : Option Moment :=
  match m.what with
  | .told other event => if other = id then some { m with what := .told 1 event } else none
  | _ => none

/-- An exchange alone is told at the same time what it is told. -/
theorem Moment.exists_alone? {m : Moment} {id : Nat} {event : Exchange.Event}
    (hm : m.what = .told id event) :
    ∃ own, m.alone? id = some own ∧ own.time = m.time ∧ own.what = .told 1 event :=
  ⟨{ m with what := .told 1 event }, by simp [Moment.alone?, hm], rfl, rfl⟩

/-- An exchange alone sees nothing of moments that are not its own. -/
theorem Moment.alone?_eq_none {m : Moment} {id : Nat} (hm : ∀ event, m.what ≠ .told id event) :
    m.alone? id = none := by
  unfold Moment.alone?
  split
  · rename_i other event hwhat
    exact if_neg fun heq : other = id => hm event (heq ▸ hwhat)
  · rfl

namespace Timetable

/-- The exchange of a number goes as it goes alone under the first number. -/
structure Matches (t alone : Timetable) (id : Nat) : Prop where
  /-- It stands where it stands alone, with the same answer to its client. -/
  exchange : ∃ x, t.chronicle.proxy.exchange? id = some x ∧
    alone.chronicle.proxy.exchange? 1 = some (x.renumbered 1)
  /-- It has forwarded, logged, recorded and set timers for the same things at the same times. -/
  asked : t.chronicle.askedBy id = alone.chronicle.askedBy 1
  /-- Its timers have fired at the same times. -/
  fired : t.firedBy id = alone.firedBy 1
  /-- Its entry is the same, as long as it stays in the log. -/
  logged : ∃ entry, alone.chronicle.proxy.history.get? (.whole 1) = some entry ∧
    ∀ e, t.chronicle.proxy.history.get? (.whole id) = some e → e.Agrees entry

/-! ## Numbers -/

/-- The numbers of the exchanges of a timetable. -/
def ids (t : Timetable) : List Nat := t.chronicle.proxy.exchanges.map Exchange.id

/-- A timetable in which everything has the number of an exchange. -/
structure Numbered (t : Timetable) : Prop where
  chronicle : t.chronicle.Numbered
  filed : t.chronicle.Filed
  timers : ∀ timer ∈ t.timers, timer.1 ∈ t.ids
  fired : ∀ timer ∈ t.fired, timer.1 ∈ t.ids

theorem numbered_start (source : RuleSource) : (start source).Numbered :=
  ⟨Chronicle.numbered_start source, by simp [Chronicle.Filed, start, Chronicle.start],
    by simp [start], by simp [start]⟩

/-- The numbers of timers are those of timers that were running and of exchanges that ask for
something. -/
theorem fst_mem_of_foldl_wind {ids : List Nat} {time : Number}
    {effects : List (Nat × Exchange.Effect)} (heffects : ∀ effect ∈ effects, effect.1 ∈ ids)
    {timers : List (Nat × Number)} (htimers : ∀ timer ∈ timers, timer.1 ∈ ids) :
    ∀ timer ∈ effects.foldl (wind time) timers, timer.1 ∈ ids := by
  induction effects generalizing timers with
  | nil => exact htimers
  | cons effect rest ih =>
      refine ih (fun other hother => heffects other (List.mem_cons_of_mem _ hother)) ?_
      obtain ⟨id, effect⟩ := effect
      have hid : id ∈ ids := heffects _ (List.mem_cons_self ..)
      intro timer htimer
      cases effect with
      | setTimer milliseconds =>
          rcases List.mem_append.1 htimer with hold | hnew
          · exact htimers timer hold
          · rw [List.mem_singleton.1 hnew]
            exact hid
      | dropTimer => exact htimers timer (List.mem_filter.1 htimer).1
      | _ => exact htimers timer htimer

/-- Each moment that is timely keeps everything under the number of an exchange. -/
theorem numbered_next [Domain.Mapping] {t : Timetable} (hn : t.Numbered) {m : Moment}
    (hm : t.isTimely m = true) :
    (t.next m).Numbered := by
  have hkept : ∀ id ∈ t.ids, id ∈ (t.next m).ids := fun id hid =>
    t.chronicle.mem_ids_next m hid
  refine ⟨Chronicle.numbered_next hn.chronicle m, Chronicle.filed_next hn.filed m, ?_, ?_⟩
  · refine fst_mem_of_foldl_wind (t.chronicle.fst_mem_of_attend m) fun timer htimer => ?_
    refine hkept _ (hn.timers timer ?_)
    unfold Moment.expire at htimer
    split at htimer
    · exact htimer
    · exact List.mem_of_mem_erase htimer
  · intro timer htimer
    simp only [next, List.mem_append, Option.mem_toList, Option.map_eq_some_iff] at htimer
    rcases htimer with hold | ⟨id, hfiring, rfl⟩
    · exact hkept _ (hn.fired timer hold)
    · have hdue := (isTimely_iff.1 hm).2.2 id hfiring
      exact hkept _ (hn.timers _ (mem_under_iff.1 hdue))

/-- In every timetable everything has the number of an exchange. -/
theorem numbered_run [Domain.Mapping] {t later : Timetable} (hn : t.Numbered)
    {moments : List Moment} (h : t.run? moments = some later) : later.Numbered := by
  induction moments generalizing t with
  | nil =>
      cases h
      exact hn
  | cons m rest ih =>
      obtain ⟨htimely, hrest⟩ := run?_cons_eq_some_iff.1 h
      exact ih (numbered_next hn htimely) hrest

/-! ## Side by side -/

/-- A proxy, and one that has the exchange of a number alone, when both have gone through the
same course of the exchange. -/
structure Alike (t alone : Timetable) (id : Nat) (c : Exchange.Course) : Prop where
  numbered : t.chronicle.Numbered
  numberedAlone : alone.Numbered
  ids : alone.ids = [1]
  follows : t.chronicle.Follows id c
  followsAlone : alone.chronicle.Follows 1 (c.renumbered 1)
  /-- The clock of the exchange alone is not ahead. -/
  clock : ∀ time, t.clock.le time = true → alone.clock.le time = true
  timers : alone.timersOf 1 = t.timersOf id
  fired : alone.firedBy 1 = t.firedBy id
  logged : ∃ entry, alone.chronicle.proxy.history.entries = [(.whole 1, entry)] ∧
    ∀ e, (.whole id, e) ∈ t.chronicle.proxy.history.entries → e.Agrees entry

section Alike

variable {t alone : Timetable} {id : Nat} {c : Exchange.Course} {m : Moment}

/-- Moments that are not about an exchange leave it as it goes alone. -/
theorem alike_of_not_told [Domain.Mapping] (ha : t.Alike alone id c) (htimely : t.isTimely m = true)
    (hm : ∀ event, m.what ≠ .told id event) : (t.next m).Alike alone id c := by
  have hid := ha.follows.id_ne ha.numbered
  have hquiet := Proxy.under_attend_of_not_told hm hid
  have hfiring : m.firing? ≠ some id := fun h => hm _ (Moment.firing?_eq_some_iff.1 h)
  refine ⟨Chronicle.numbered_next ha.numbered m, ha.numberedAlone, ha.ids, ?_, ha.followsAlone,
    ?_, ?_, ?_, ?_⟩
  · have hfollows := Chronicle.follows_next ha.numbered ha.follows m
    rwa [Moment.eventsOf_eq_nil hm] at hfollows
  · -- Only the clock of the proxy moves on, and it does not go back.
    intro time htime
    exact ha.clock time (Number.le_trans (isTimely_iff.1 htimely).1 htime)
  · rw [timersOf_next, hquiet, if_neg hfiring, ha.timers]
    rfl
  · rw [firedBy_next, if_neg hfiring, List.append_nil, ha.fired]
  · obtain ⟨entry, hentry, hagrees⟩ := ha.logged
    exact ⟨entry, hentry, fun e he =>
      hagrees e (Chronicle.mem_entries_of_not_told hm hid he)⟩

section Told

variable {own : Moment} {event : Exchange.Event} (ha : t.Alike alone id c)
  (hm : m.what = .told id event) (htime : own.time = m.time) (hown : own.what = .told 1 event)

include hm hown in
/-- The timer of an exchange fires where its timer fires alone. -/
theorem firing?_own : own.firing? = some 1 ↔ m.firing? = some id := by
  rw [Moment.firing?_eq_some_iff, Moment.firing?_eq_some_iff, hm, hown]
  simp

include ha hm htime hown

/-- What an exchange is told makes it ask for what it asks for alone. -/
theorem under_attend_own [Domain.Mapping] :
    under 1 (alone.chronicle.proxy.attend own).2 = under id (t.chronicle.proxy.attend m).2 := by
  rw [Proxy.under_attend_told hm ha.follows.exchange,
    Proxy.under_attend_told hown ha.followsAlone.exchange, htime, Exchange.Course.renumbered,
    Exchange.next_renumbered]
  rfl

/-- An exchange can be told alone what it can be told. -/
theorem isTimely_own (htimely : t.isTimely m = true) : alone.isTimely own = true := by
  obtain ⟨hclock, hoverdue, hdue⟩ := isTimely_iff.1 htimely
  rw [isTimely_iff, htime]
  refine ⟨ha.clock _ hclock, ?_, ?_⟩
  · rintro ⟨number, due⟩ htimer
    -- The only exchange of the proxy alone has the first number, so the timer is its own.
    have hone : number = 1 := by
      simpa [ha.ids] using ha.numberedAlone.timers (number, due) htimer
    subst hone
    have hdue : due ∈ t.timersOf id := ha.timers ▸ mem_under_iff.2 htimer
    exact hoverdue (id, due) (mem_under_iff.1 hdue)
  · intro number hnumber
    have hone : number = 1 := by
      have htold := Moment.firing?_eq_some_iff.1 hnumber
      rw [hown] at htold
      cases htold
      rfl
    subst hone
    rw [ha.timers]
    exact hdue id ((firing?_own hm hown).1 hnumber)

/-- The entry of an exchange is revised as it is alone. -/
theorem logged_own [Domain.Mapping] : ∃ entry,
    (alone.next own).chronicle.proxy.history.entries = [(.whole 1, entry)] ∧
      ∀ e, (.whole id, e) ∈ (t.next m).chronicle.proxy.history.entries → e.Agrees entry := by
  obtain ⟨entry, hentry, hagrees⟩ := ha.logged
  have hstep : (t.next m).chronicle.proxy.history = _ :=
    Chronicle.history_told hm ha.follows.exchange
  have hstepOwn : (alone.next own).chronicle.proxy.history = _ :=
    Chronicle.history_told hown ha.followsAlone.exchange
  have hsame : ((c.renumbered 1).exchange.next own.time event).2 =
      (c.exchange.next m.time event).2 := by
    rw [htime, Exchange.Course.renumbered, Exchange.next_renumbered]
    rfl
  refine ⟨Exchange.reviseAll entry (c.exchange.next m.time event).2, ?_, ?_⟩
  · rw [hstepOwn, hsame, Proxy.entries_foldl_record, hentry]
    simp
  · intro e he
    rw [hstep] at he
    obtain ⟨old, hold, rfl⟩ := Proxy.mem_entries_foldl_record_self he
    exact Exchange.agrees_reviseAll (hagrees old hold) _

/-- What an exchange is told it is told alone. -/
theorem alike_of_told [Domain.Mapping] (htimely : t.isTimely m = true) :
    (t.next m).Alike (alone.next own) id (c.run (m.eventsOf id)) := by
  have htimelyOwn := isTimely_own ha hm htime hown htimely
  have heffects := under_attend_own ha hm htime hown
  have hfiring := firing?_own hm hown
  refine ⟨Chronicle.numbered_next ha.numbered m, numbered_next ha.numberedAlone htimelyOwn, ?_,
    Chronicle.follows_next ha.numbered ha.follows m, ?_, ?_, ?_, ?_,
    logged_own ha hm htime hown⟩
  · rw [← ha.ids]
    exact (alone.chronicle.ids_of_not_arrived (by simp [hown])).1
  · have hevents : own.eventsOf 1 = m.eventsOf id := by
      simp [Moment.eventsOf, hm, hown, htime]
    have hfollows := Chronicle.follows_next ha.numberedAlone.chronicle ha.followsAlone own
    rwa [hevents, Exchange.Course.run_renumbered] at hfollows
  · intro time hafter
    rwa [next, htime]
  · rw [timersOf_next, timersOf_next, heffects, ha.timers, htime]
    simp only [hfiring]
  · rw [firedBy_next, firedBy_next, ha.fired, htime]
    simp only [hfiring]

end Told

/-- Each moment keeps an exchange as it goes alone. -/
theorem alike_next [Domain.Mapping] (ha : t.Alike alone id c) (htimely : t.isTimely m = true) :
    ∃ later, alone.run? (m.alone? id).toList = some later ∧
      (t.next m).Alike later id (c.run (m.eventsOf id)) := by
  by_cases hm : ∃ event, m.what = .told id event
  · obtain ⟨event, hm⟩ := hm
    obtain ⟨own, halone, htime, hown⟩ := Moment.exists_alone? hm
    refine ⟨alone.next own, ?_, alike_of_told ha hm htime hown htimely⟩
    rw [halone]
    exact run?_cons_eq_some_iff.2 ⟨isTimely_own ha hm htime hown htimely, rfl⟩
  · have hquiet : ∀ event, m.what ≠ .told id event := fun event h => hm ⟨event, h⟩
    rw [Moment.alone?_eq_none hquiet, Moment.eventsOf_eq_nil hquiet]
    exact ⟨alone, rfl, alike_of_not_told ha htimely hquiet⟩

/-- An exchange goes as it goes alone, whatever moments come. -/
theorem alike_run [Domain.Mapping] (ha : t.Alike alone id c) {moments : List Moment}
    {later : Timetable} (hrun : t.run? moments = some later) :
    ∃ laterAlone, alone.run? (moments.filterMap (·.alone? id)) = some laterAlone ∧
      later.Alike laterAlone id (c.run (moments.flatMap (·.eventsOf id))) := by
  induction moments generalizing t alone c with
  | nil =>
      cases hrun
      exact ⟨alone, rfl, ha⟩
  | cons m rest ih =>
      obtain ⟨htimely, hrest⟩ := run?_cons_eq_some_iff.1 hrun
      obtain ⟨nextAlone, hstep, hnext⟩ := alike_next ha htimely
      obtain ⟨laterAlone, hlater, halike⟩ := ih hnext hrest
      have hmoments : (m :: rest).filterMap (·.alone? id) =
          (m.alone? id).toList ++ rest.filterMap (·.alone? id) := by
        cases h : m.alone? id <;> simp [h]
      refine ⟨laterAlone, ?_, ?_⟩
      · rw [hmoments, run?_append, hstep]
        exact hlater
      · rwa [List.flatMap_cons, Exchange.Course.run_append]

/-- An exchange that goes through one course in both proxies goes as it goes alone. -/
theorem Alike.matches (ha : t.Alike alone id c) : t.Matches alone id := by
  refine ⟨⟨c.exchange, ha.follows.exchange, ha.followsAlone.exchange⟩, ?_, ha.fired.symm, ?_⟩
  · rw [ha.follows.asked, ha.followsAlone.asked]
    rfl
  · obtain ⟨entry, hentry, hagrees⟩ := ha.logged
    refine ⟨entry, by simp [History.get?, hentry], fun e he => hagrees e ?_⟩
    obtain ⟨⟨key, found⟩, hfound, rfl⟩ := Option.map_eq_some_iff.1 he
    have hkey : key = .whole id := by simpa using List.find?_some hfound
    exact hkey ▸ List.mem_of_find?_eq_some hfound

end Alike

section Arrival

variable {t : Timetable} {m : Moment} {arrival : Arrival} {client : Client}
  (hm : m.what = .arrived arrival client)

include hm

/-- A request that can arrive at a proxy can be the first to arrive at another. -/
theorem isTimely_start (htimely : t.isTimely m = true) (source : RuleSource) :
    (start source).isTimely m = true := by
  refine isTimely_iff.2 ⟨Number.infinite_le_of_le (isTimely_iff.1 htimely).1, ?_, ?_⟩
  · simp [start]
  · simp [Moment.firing?, hm]

/-- A request that arrives at a proxy starts as it would alone, under the same configuration. -/
theorem alike_of_arrived [Domain.Mapping] (hn : t.Numbered) (htimely : t.isTimely m = true)
    {snapshot : RuleSource} (hsnapshot : snapshot.current = t.chronicle.proxy.source.current) :
    let id := t.chronicle.proxy.history.lastId + 1
    (t.next m).Alike ((start snapshot).next m) id
      (Exchange.Course.start id m.time snapshot.current arrival client) := by
  intro id
  have hfiring : m.firing? = none := by
    rw [Moment.firing?, hm]
  have hid : id ∉ t.ids := by
    rw [ids, hn.chronicle.ids, List.mem_range'_1]
    omega
  have hstart := Exchange.start_renumbered m.time id 1 snapshot.current arrival client
  have heffects : under 1 ((start snapshot).chronicle.proxy.attend m).2 =
      under id (t.chronicle.proxy.attend m).2 := by
    have halone : under 1 ((start snapshot).chronicle.proxy.attend m).2 =
        (Exchange.start 1 m.time snapshot.current arrival client).2 :=
      (start snapshot).chronicle.proxy.under_attend_arrived hm
    rw [halone, Proxy.under_attend_arrived hm, ← hsnapshot, hstart]
    rfl
  refine ⟨Chronicle.numbered_next hn.chronicle m,
    numbered_next (numbered_start snapshot) (isTimely_start hm htimely snapshot), ?_, ?_, ?_,
    fun _ htime => htime, ?_, ?_, ?_⟩
  · exact ((start snapshot).chronicle.ids_arrived hm).1
  · rw [hsnapshot]
    exact Chronicle.follows_arrived hn.chronicle hm
  · have hfollows := Chronicle.follows_arrived (Chronicle.numbered_start snapshot) hm
    have hcourse := Exchange.Course.run_start_renumbered id 1 m.time snapshot.current arrival
      client []
    rw [Exchange.Course.run_nil, Exchange.Course.run_nil] at hcourse
    exact hcourse ▸ hfollows
  · have htimers : t.timersOf id = [] :=
      under_eq_nil id fun timer htimer heq => hid (heq ▸ hn.timers timer htimer)
    rw [timersOf_next, timersOf_next, heffects, htimers, hfiring]
    rfl
  · have hfired : t.firedBy id = [] :=
      under_eq_nil id fun timer htimer heq => hid (heq ▸ hn.fired timer htimer)
    rw [firedBy_next, firedBy_next, hfired, hfiring]
    rfl
  · refine ⟨_, Chronicle.entries_arrived_first snapshot hm, fun e he => ?_⟩
    rw [Chronicle.mem_entries_arrived hn.chronicle hn.filed hm rfl he, hstart, hsnapshot]
    exact Exchange.agrees_reviseAll (Proxy.agrees_entryOf ..) _

end Arrival

/-- What becomes of a request that arrives does not depend on other exchanges, nor on what happens
to the rules and the history later on: it goes as it would go alone, under the configuration that
was in force when it arrived. -/
theorem matches_run [Domain.Mapping] {source snapshot : RuleSource} {before after : List Moment}
    {now later : Timetable} {time : Number} {files : Files} {arrival : Arrival} {client : Client}
    (hbefore : (start source).run? before = some now)
    (hafter : now.run? (⟨time, files, .arrived arrival client⟩ :: after) = some later)
    (hsnapshot : snapshot.current = now.chronicle.proxy.source.current) :
    let id := now.chronicle.proxy.history.lastId + 1
    ∃ alone, (start snapshot).run?
        (⟨time, files, .arrived arrival client⟩ :: after.filterMap (·.alone? id)) = some alone ∧
      later.Matches alone id := by
  intro id
  have hn := numbered_run (numbered_start source) hbefore
  obtain ⟨htimely, hrest⟩ := run?_cons_eq_some_iff.1 hafter
  have hstart := alike_of_arrived rfl hn htimely hsnapshot
  obtain ⟨alone, halone, halike⟩ := alike_run hstart hrest
  have htimelyAlone := isTimely_start rfl htimely snapshot
  exact ⟨alone, run?_cons_eq_some_iff.2 ⟨htimelyAlone, halone⟩, halike.matches⟩

/-! ## Two delayed requests -/

/-- Rules that hold each request back for fifty milliseconds. -/
def slowRules : RuleSource where
  path := "/rules.json"
  config := some {
    listenPort := 58080
    proxyPorts := []
    rules := [{
      name := "slow"
      side := .request
      selector := {}
      actions := { delay := some 50 } }] }

/-- A request for the root of a server. -/
def rootArrival : Arrival := { target := some "http://h/" }

/-- One request has arrived, and a load of the rules has failed. -/
def oneArrived : List Moment := [
  ⟨0, [], .arrived rootArrival {}⟩,
  ⟨1, [], .upkeep .reloaded⟩]

/-- Both requests are held back, the log is cleared, and the second request is answered. -/
def bothHeld : List Moment := [
  ⟨2, [], .told 2 .requestEnd⟩,
  ⟨3, [], .told 1 .requestEnd⟩,
  ⟨4, [], .upkeep (.administered "DELETE" "/api/exchanges")⟩,
  ⟨52, [], .told 2 .timerFired⟩,
  ⟨53, [], .told 1 .timerFired⟩,
  ⟨60, [], .told 2 (.responseHead (some 200) (.ofFlat []))⟩,
  ⟨60, [], .told 2 .responseEnd⟩]

/-- The second request goes as it goes alone, also once its entry has left the log. -/
theorem matches_run_bothHeld :
    ∃ now later alone, (start slowRules).run? oneArrived = some now ∧
      now.run? (⟨2, [], .arrived rootArrival {}⟩ :: bothHeld) = some later ∧
      slowRules.current = now.chronicle.proxy.source.current ∧
      now.chronicle.proxy.history.lastId + 1 = 2 ∧ later.firedBy 2 = [52] ∧
      (start slowRules).run? (⟨2, [], .arrived rootArrival {}⟩ ::
        bothHeld.filterMap (·.alone? (now.chronicle.proxy.history.lastId + 1))) = some alone ∧
      later.Matches alone (now.chronicle.proxy.history.lastId + 1) := by
  have hwhole : ((start slowRules).run?
      (oneArrived ++ ⟨2, [], .arrived rootArrival {}⟩ :: bothHeld)).map (·.firedBy 2) =
      some [52] := by decide +kernel
  have hsome : ((start slowRules).run? oneArrived).isSome = true := by decide +kernel
  obtain ⟨now, hbefore⟩ := Option.isSome_iff_exists.1 hsome
  rw [run?_append, hbefore] at hwhole
  obtain ⟨later, hafter, hfired⟩ := Option.map_eq_some_iff.1 hwhole
  have hnow : now.chronicle = (Chronicle.start slowRules).run oneArrived :=
    chronicle_run? hbefore
  have hconfig : ((Chronicle.start slowRules).run oneArrived).proxy.source.config =
      slowRules.config := by decide +kernel
  have hsnapshot : slowRules.current = now.chronicle.proxy.source.current := by
    rw [hnow, RuleSource.current, RuleSource.current, hconfig]
  have hlast : now.chronicle.proxy.history.lastId + 1 = 2 := by
    rw [hnow]
    decide +kernel
  obtain ⟨alone, halone, hmatches⟩ := matches_run hbefore hafter hsnapshot
  exact ⟨now, later, alone, hbefore, hafter, hsnapshot, hlast, hfired, halone, hmatches⟩

end Timetable

end FaultInjection
