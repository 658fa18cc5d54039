import FaultInjection.Proofs.Proxy.Moment

/-!
# Proxies - Chronicles

A chronicle is a proxy with what its exchanges have asked for, in the order in which
they did.  Seen from one exchange, the chronicle is a course: the moments that are not
about the exchange leave no trace in it.

Main definitions:

- `Chronicle`, with `Chronicle.start`, `Chronicle.next` and `Chronicle.run`.
- `Chronicle.Numbered`, the numbers of the exchanges.
- `Chronicle.Follows`, an exchange that goes through a course.

Main results:

- `Chronicle.numbered_run`: each exchange has a number of its own.
- `Chronicle.follows_run`: an exchange goes through the course of its own events.
-/

namespace FaultInjection

/-! ## Parts under a number -/

section Under

variable {α : Type} (id : Nat)

/-- The parts of a list that stand under a number. -/
def under (parts : List (Nat × α)) : List α := (parts.filter (·.1 == id)).map Prod.snd

@[simp]
theorem under_nil : under id ([] : List (Nat × α)) = [] :=
  rfl

theorem under_cons (part : Nat × α) (rest : List (Nat × α)) :
    under id (part :: rest) = if part.1 = id then part.2 :: under id rest else under id rest := by
  by_cases h : part.1 = id <;> simp [under, h]

@[simp]
theorem under_append (first second : List (Nat × α)) :
    under id (first ++ second) = under id first ++ under id second := by
  simp [under]

/-- Parts that all stand under one number stand under no other. -/
theorem under_tagged (other : Nat) (parts : List α) :
    under id (parts.map (other, ·)) = if other = id then parts else [] := by
  by_cases h : other = id
  · subst h
    have hall : ∀ part ∈ parts.map (other, ·), (part.1 == other) = true := by simp
    rw [under, List.filter_eq_self.2 hall]
    simp [Function.comp_def]
  · simp [under, h]

/-- What stands under a number is in the list with that number. -/
theorem mem_under_iff {id : Nat} {part : α} {parts : List (Nat × α)} :
    part ∈ under id parts ↔ (id, part) ∈ parts := by
  simp [under]

/-- Nothing stands under a number that no part has. -/
theorem under_eq_nil {parts : List (Nat × α)} (h : ∀ part ∈ parts, part.1 ≠ id) :
    under id parts = [] := by
  rw [under, List.map_eq_nil_iff, List.filter_eq_nil_iff]
  intro part hpart heq
  exact h part hpart (beq_iff_eq.1 heq)

/-- Without the parts under one number nothing stands under it, and as much as before stands under
another. -/
theorem under_filter_ne (other : Nat) (parts : List (Nat × α)) :
    under id (parts.filter fun part => !(part.1 == other)) =
      if other = id then [] else under id parts := by
  rw [under, List.filter_filter]
  by_cases h : other = id
  · simp [h]
  · have hkept : ∀ part ∈ parts, (part.1 == id && !(part.1 == other)) = (part.1 == id) := by
      intro part _
      by_cases hpart : part.1 = id
      · simp [hpart, Ne.symm h]
      · simp [hpart]
    rw [if_neg h, List.filter_congr hkept, under]

end Under

namespace Proxy

/-! ## What one exchange asks for -/

section Asked

variable {p : Proxy} {m : Moment} {id : Nat}

/-- An exchange that starts asks for the effects of its start. -/
theorem under_attend_arrived [Domain.Mapping] {arrival : Arrival} {client : Client}
    (hm : m.what = .arrived arrival client) :
    under (p.history.lastId + 1) (p.attend m).2 =
      (Exchange.start (p.history.lastId + 1) m.time p.source.current arrival client).2 := by
  rw [p.attend_arrived hm, under_tagged, if_pos rfl]

/-- What an exchange is told makes it ask for the effects of its step. -/
theorem under_attend_told [Domain.Mapping] {event : Exchange.Event} {x : Exchange}
    (hm : m.what = .told id event) (hx : p.exchange? id = some x) :
    under id (p.attend m).2 = (x.next m.time event).2 := by
  rw [p.attend_told hm hx, under_tagged, if_pos rfl]

/-- An exchange that has started asks for nothing at moments that are not its own. -/
theorem under_attend_of_not_told [Domain.Mapping] (hm : ∀ event, m.what ≠ .told id event)
    (hid : id ≠ p.history.lastId + 1) : under id (p.attend m).2 = [] := by
  cases p.attends m with
  | started arrival client hwhat =>
      rw [p.attend_arrived hwhat, under_tagged, if_neg (Ne.symm hid)]
  | stepped other event x hwhat hx =>
      have hne : other ≠ id := fun heq => hm event (heq ▸ hwhat)
      rw [p.attend_told hwhat hx, under_tagged, if_neg hne]
  | rested hwhat hnone q hkept hattend => rw [hattend, under_nil]

/-- What an exchange is told can complete the actions of a rule of its own. -/
theorem under_completions_told {event : Exchange.Event} {x : Exchange}
    (hm : m.what = .told id event) (hx : p.exchange? id = some x) :
    under id (p.completions m) = (x.completed? event).toList := by
  simp only [completions, hm, hx, Option.bind_some]
  cases x.completed? event <;> simp [under]

/-- An exchange completes the actions of no rule at moments that are not its own. -/
theorem under_completions_of_not_told (hm : ∀ event, m.what ≠ .told id event) :
    under id (p.completions m) = [] := by
  unfold completions
  split
  · rename_i other event hwhat
    have hne : other ≠ id := fun heq => hm event (heq ▸ hwhat)
    cases (p.exchange? other).bind (·.completed? event) <;> simp [under, hne]
  · rfl

end Asked

end Proxy

/-! ## Chronicles -/

/-- A proxy with what its exchanges have asked for and when, and the rules whose actions were
completed, each with the number of the exchange. -/
structure Chronicle where
  proxy : Proxy
  journal : List (Nat × Number × Exchange.Effect) := []
  applied : List (Nat × Rule.Side × Rule) := []

namespace Chronicle

/-- The chronicle of a proxy without exchanges. -/
def start (source : RuleSource) : Chronicle := { proxy := { source } }

/-- The chronicle after a moment. -/
def next [Domain.Mapping] (h : Chronicle) (m : Moment) : Chronicle where
  proxy := (h.proxy.attend m).1
  journal := h.journal ++ (h.proxy.attend m).2.map fun (id, effect) => (id, m.time, effect)
  applied := h.applied ++ h.proxy.completions m

/-- The chronicle after moments in their order. -/
def run [Domain.Mapping] (h : Chronicle) (moments : List Moment) : Chronicle := moments.foldl next h

/-- What the exchange of a number has asked for, with the times. -/
def askedBy (h : Chronicle) (id : Nat) : List (Number × Exchange.Effect) := under id h.journal

/-- The rules of the exchange of a number whose actions were completed. -/
def appliedBy (h : Chronicle) (id : Nat) : List (Rule.Side × Rule) := under id h.applied

@[simp]
theorem run_cons [Domain.Mapping] (h : Chronicle) (m : Moment) (rest : List Moment) :
    h.run (m :: rest) = (h.next m).run rest :=
  rfl

/-- What holds of a chronicle and is kept by each moment holds after any moments. -/
theorem run_induction [Domain.Mapping] {motive : Chronicle → Prop} {h : Chronicle}
    (hstart : motive h) (hnext : ∀ h m, motive h → motive (h.next m)) (moments : List Moment) :
    motive (h.run moments) := by
  induction moments generalizing h with
  | nil => exact hstart
  | cons m rest ih => exact ih (hnext h m hstart)

/-- What an exchange asks for at a moment joins what it has asked for. -/
theorem askedBy_next [Domain.Mapping] (h : Chronicle) (m : Moment) (id : Nat) :
    (h.next m).askedBy id =
      h.askedBy id ++ (under id (h.proxy.attend m).2).map (m.time, ·) := by
  simp [askedBy, next, under, List.filter_map, Function.comp_def]

/-- The rule that an exchange completes at a moment joins those that it has completed. -/
theorem appliedBy_next [Domain.Mapping] (h : Chronicle) (m : Moment) (id : Nat) :
    (h.next m).appliedBy id = h.appliedBy id ++ under id (h.proxy.completions m) := by
  rw [appliedBy, next, under_append, appliedBy]

/-! ## Numbers -/

/-- The exchanges are numbered in the order of their starts, and what is in the chronicle is
about exchanges with a number. -/
structure Numbered (h : Chronicle) : Prop where
  ids : h.proxy.exchanges.map Exchange.id = List.range' 1 h.proxy.history.lastId
  journal : ∀ entry ∈ h.journal, entry.1 ∈ h.proxy.exchanges.map Exchange.id
  applied : ∀ entry ∈ h.applied, entry.1 ∈ h.proxy.exchanges.map Exchange.id

/-- A chronicle has an exchange under each number that has been given out, and no other. -/
theorem Numbered.isSome_exchange?_iff {h : Chronicle} (hn : h.Numbered) (id : Nat) :
    (h.proxy.exchange? id).isSome = true ↔ 1 ≤ id ∧ id ≤ h.proxy.history.lastId := by
  rw [Proxy.isSome_exchange?_iff, hn.ids, List.mem_range'_1]
  omega

/-- Nothing is known of an exchange before its number has been given out. -/
theorem Numbered.asked_eq_nil {h : Chronicle} (hn : h.Numbered) {id : Nat}
    (hid : h.proxy.exchange? id = none) : h.askedBy id = [] ∧ h.appliedBy id = [] := by
  have hnot : id ∉ h.proxy.exchanges.map Exchange.id := by
    rw [← Proxy.isSome_exchange?_iff, hid]
    simp
  constructor
  · exact under_eq_nil id fun entry hentry heq => hnot (heq ▸ hn.journal entry hentry)
  · exact under_eq_nil id fun entry hentry heq => hnot (heq ▸ hn.applied entry hentry)

theorem numbered_start (source : RuleSource) : (start source).Numbered :=
  ⟨rfl, by simp [start], by simp [start]⟩

/-- A request that arrives takes the next number. -/
theorem ids_arrived [Domain.Mapping] (h : Chronicle) {m : Moment} {arrival : Arrival}
    {client : Client} (hm : m.what = .arrived arrival client) :
    (h.next m).proxy.exchanges.map Exchange.id =
        h.proxy.exchanges.map Exchange.id ++ [h.proxy.history.lastId + 1] ∧
      (h.next m).proxy.history.lastId = h.proxy.history.lastId + 1 := by
  constructor
  · simp [next, h.proxy.attend_arrived hm, Exchange.id_start]
  · simp only [next, h.proxy.attend_arrived hm, Proxy.lastId_foldl_record]
    rfl

/-- Nothing but a request that arrives takes a number. -/
theorem ids_of_not_arrived [Domain.Mapping] (h : Chronicle) {m : Moment}
    (hm : ∀ arrival client, m.what ≠ .arrived arrival client) :
    (h.next m).proxy.exchanges.map Exchange.id = h.proxy.exchanges.map Exchange.id ∧
      (h.next m).proxy.history.lastId = h.proxy.history.lastId := by
  cases h.proxy.attends m with
  | started arrival client hwhat => exact absurd hwhat (hm arrival client)
  | stepped id event x hwhat hx =>
      simp only [next, h.proxy.attend_told hwhat hx, Proxy.lastId_foldl_record, List.map_map,
        and_true]
      refine List.map_congr_left fun other _ => ?_
      by_cases heq : other.id = id
      · simp [heq, Exchange.id_next, Proxy.id_of_exchange? hx]
      · simp [heq]
  | rested hwhat hnone q hkept hattend =>
      simp only [next, hattend, hkept.exchanges, true_and]
      rcases hkept.history with hsame | hcleared
      · rw [hsame]
      · rw [hcleared]
        rfl

/-- A number that is given out stays so. -/
theorem mem_ids_next [Domain.Mapping] (h : Chronicle) (m : Moment) {id : Nat}
    (hid : id ∈ h.proxy.exchanges.map Exchange.id) :
    id ∈ (h.next m).proxy.exchanges.map Exchange.id := by
  by_cases harrived : ∃ arrival client, m.what = .arrived arrival client
  · obtain ⟨arrival, client, hm⟩ := harrived
    rw [(h.ids_arrived hm).1]
    exact List.mem_append_left _ hid
  · rw [(h.ids_of_not_arrived fun arrival client hm => harrived ⟨arrival, client, hm⟩).1]
    exact hid

/-- What is asked for at a moment is asked for by an exchange. -/
theorem fst_mem_of_attend [Domain.Mapping] (h : Chronicle) (m : Moment) :
    ∀ entry ∈ (h.proxy.attend m).2, entry.1 ∈ (h.next m).proxy.exchanges.map Exchange.id := by
  intro entry hentry
  cases h.proxy.attends m with
  | started arrival client hm =>
      rw [h.proxy.attend_arrived hm, List.mem_map] at hentry
      obtain ⟨effect, -, rfl⟩ := hentry
      rw [(h.ids_arrived hm).1]
      exact List.mem_append_right _ (List.mem_singleton.2 rfl)
  | stepped id event x hm hx =>
      rw [h.proxy.attend_told hm hx, List.mem_map] at hentry
      obtain ⟨effect, -, rfl⟩ := hentry
      exact h.mem_ids_next m ((h.proxy.isSome_exchange?_iff id).1 (by rw [hx]; rfl))
  | rested hm hnone q hkept hattend =>
      rw [hattend] at hentry
      cases hentry

/-- Each moment keeps the numbers of the exchanges apart. -/
theorem numbered_next [Domain.Mapping] {h : Chronicle} (hn : h.Numbered) (m : Moment) :
    (h.next m).Numbered := by
  have hids : (h.next m).proxy.exchanges.map Exchange.id =
      List.range' 1 (h.next m).proxy.history.lastId := by
    by_cases harrived : ∃ arrival client, m.what = .arrived arrival client
    · obtain ⟨arrival, client, hm⟩ := harrived
      obtain ⟨hids, hlast⟩ := h.ids_arrived hm
      rw [hids, hn.ids, hlast, List.range'_1_concat, Nat.add_comm 1]
    · obtain ⟨hids, hlast⟩ := h.ids_of_not_arrived fun arrival client hm =>
        harrived ⟨arrival, client, hm⟩
      rw [hids, hn.ids, hlast]
  have happlied : ∀ entry ∈ h.proxy.completions m,
      entry.1 ∈ (h.next m).proxy.exchanges.map Exchange.id := by
    intro entry hentry
    unfold Proxy.completions at hentry
    split at hentry
    · rename_i id event hm
      cases hx : h.proxy.exchange? id with
      | none => simp [hx] at hentry
      | some x =>
          simp only [Option.mem_toList, Option.map_eq_some_iff] at hentry
          obtain ⟨rule, -, rfl⟩ := hentry
          exact h.mem_ids_next m ((h.proxy.isSome_exchange?_iff id).1 (by rw [hx]; rfl))
    · cases hentry
  refine ⟨hids, ?_, ?_⟩
  · intro entry hentry
    simp only [next, List.mem_append, List.mem_map] at hentry
    rcases hentry with hold | ⟨new, hnew, rfl⟩
    · exact h.mem_ids_next m (hn.journal entry hold)
    · exact h.fst_mem_of_attend m new hnew
  · intro entry hentry
    simp only [next, List.mem_append] at hentry
    rcases hentry with hold | hnew
    · exact h.mem_ids_next m (hn.applied entry hold)
    · exact happlied entry hnew

/-- In every chronicle each exchange has a number of its own. -/
theorem numbered_run [Domain.Mapping] (source : RuleSource) (moments : List Moment) :
    ((start source).run moments).Numbered :=
  run_induction (numbered_start source) (fun _ m hn => numbered_next hn m) moments

/-! ## Exchanges -/

/-- The exchange of a number goes through a course. -/
structure Follows (h : Chronicle) (id : Nat) (c : Exchange.Course) : Prop where
  exchange : h.proxy.exchange? id = some c.exchange
  asked : h.askedBy id = c.asked
  applied : h.appliedBy id = c.applied

/-- The number of an exchange that has started is not the next one. -/
theorem Follows.id_ne {h : Chronicle} (hn : h.Numbered) {id : Nat} {c : Exchange.Course}
    (hc : h.Follows id c) : id ≠ h.proxy.history.lastId + 1 := by
  have hissued := (hn.isSome_exchange?_iff id).1 (by rw [hc.exchange]; rfl)
  omega

/-- An exchange starts a course when its request arrives. -/
theorem follows_arrived [Domain.Mapping] {h : Chronicle} (hn : h.Numbered) {m : Moment}
    {arrival : Arrival} {client : Client} (hm : m.what = .arrived arrival client) :
    let id := h.proxy.history.lastId + 1
    (h.next m).Follows id
      (Exchange.Course.start id m.time h.proxy.source.current arrival client) := by
  intro id
  have hnone : h.proxy.exchange? id = none := by
    rw [← Option.not_isSome_iff_eq_none, hn.isSome_exchange?_iff]
    omega
  obtain ⟨hasked, happlied⟩ := hn.asked_eq_nil hnone
  refine ⟨?_, ?_, ?_⟩
  · rw [Proxy.exchange?] at hnone
    have hid := Exchange.id_start m.time id h.proxy.source.current arrival client
    simp only [next, h.proxy.attend_arrived hm, Proxy.exchange?, List.find?_append, hnone]
    simp [hid, id, Exchange.Course.start]
  · rw [askedBy_next, hasked, Proxy.under_attend_arrived hm]
    rfl
  · rw [appliedBy_next, happlied, Proxy.under_completions_of_not_told (by simp [hm])]
    rfl

/-- An exchange takes the steps of its own events, and no others. -/
theorem follows_next [Domain.Mapping] {h : Chronicle} (hn : h.Numbered) {id : Nat}
    {c : Exchange.Course} (hc : h.Follows id c) (m : Moment) :
    (h.next m).Follows id (c.run (m.eventsOf id)) := by
  have hid := hc.id_ne hn
  obtain ⟨hexchange, hasked, happlied⟩ := hc
  by_cases hm : ∃ event, m.what = .told id event
  · obtain ⟨event, hm⟩ := hm
    have hevents : m.eventsOf id = [(m.time, event)] := by simp [Moment.eventsOf, hm]
    rw [hevents, Exchange.Course.run_cons, Exchange.Course.run_nil]
    refine ⟨h.proxy.exchange?_attend_told hm hexchange, ?_, ?_⟩
    · rw [askedBy_next, hasked, Proxy.under_attend_told hm hexchange]
      rfl
    · rw [appliedBy_next, happlied, Proxy.under_completions_told hm hexchange]
      rfl
  · have hquiet : ∀ event, m.what ≠ .told id event := fun event htold => hm ⟨event, htold⟩
    rw [Moment.eventsOf_eq_nil hquiet, Exchange.Course.run_nil]
    refine ⟨h.proxy.exchange?_attend_of_not_told hquiet hexchange, ?_, ?_⟩
    · rw [askedBy_next, hasked, Proxy.under_attend_of_not_told hquiet hid, List.map_nil,
        List.append_nil]
    · rw [appliedBy_next, happlied, Proxy.under_completions_of_not_told hquiet, List.append_nil]

/-- An exchange goes through the course of its own events, whatever else happens. -/
theorem follows_run [Domain.Mapping] {h : Chronicle} (hn : h.Numbered) {id : Nat}
    {c : Exchange.Course} (hc : h.Follows id c) (moments : List Moment) :
    (h.run moments).Follows id (c.run (moments.flatMap (·.eventsOf id))) := by
  induction moments generalizing h c with
  | nil => exact hc
  | cons m rest ih =>
      rw [run_cons, List.flatMap_cons, Exchange.Course.run_append]
      exact ih (numbered_next hn m) (follows_next hn hc m)

end Chronicle

end FaultInjection
