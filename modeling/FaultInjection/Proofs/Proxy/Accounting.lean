import FaultInjection.Proofs.Exchange.Settlement
import FaultInjection.Proofs.Proxy.Chronicle
import Mathlib.Data.List.Nodup

/-!
# Proxies - Accounting

Once there is a configuration, the tallies of a proxy are numbers of exchanges: of all
exchanges, of those with each end, and of those that completed the actions of a rule.
Each exchange is counted once, since it asks for one end and for one rule of a side at
most.  Entries that leave the log, or are cleared from it, play no part.

Main definitions:

- `Chronicle.endedAs` and `Chronicle.completed`, what an exchange has asked to be counted.
- `Chronicle.Balanced`, the tallies as numbers of exchanges.

Main results:

- `Chronicle.countP_journal`: what each exchange asks for once at most is asked for as
  often as there are exchanges that ask for it.
- `Chronicle.balanced_run`: every chronicle is balanced.
-/

namespace FaultInjection

namespace Exchange

/-- Whether an effect ends an exchange with an outcome. -/
def Effect.endsAs (outcome : History.Outcome) (effect : Effect) : Bool :=
  effect.closing?.any (·.1 == outcome)

/-- Whether an effect counts a rule of a side. -/
def Effect.countsFor (side : Rule.Side) (effect : Effect) : Bool := effect.counted? == some side

end Exchange

namespace Chronicle

/-! ## Tallies -/

/-- The tallies after an effect. -/
def tally (t : History.Tallies) : Exchange.Effect → History.Tallies
  | .close outcome _ => t.countEnd outcome
  | .countRule side => t.countRule side
  | _ => t

/-- An effect is tallied whether or not the log has an entry for its exchange. -/
theorem tallies_record (id : Nat) (h : History) (effect : Exchange.Effect) :
    (Proxy.record id h effect).tallies = tally h.tallies effect := by
  cases effect with
  | amend update =>
      simp only [Proxy.record, History.amend]
      split <;> rfl
  | close outcome update =>
      simp only [Proxy.record, History.close, History.amend]
      split <;> rfl
  | _ => rfl

theorem tallies_foldl_record (id : Nat) (h : History) (effects : List Exchange.Effect) :
    (effects.foldl (Proxy.record id) h).tallies = effects.foldl tally h.tallies := by
  induction effects generalizing h with
  | nil => rfl
  | cons effect rest ih => rw [List.foldl_cons, List.foldl_cons, ih, tallies_record]

/-- A tally that counts the effects of a kind, and nothing else. -/
structure Counts (read : History.Tallies → Nat) (kind : Exchange.Effect → Bool) : Prop where
  effect : ∀ t effect, read (tally t effect) = read t + if kind effect then 1 else 0
  arrival : ∀ t, read { t with exchanges := t.exchanges + 1 } = read t
  zero : read {} = 0

/-- A tally that counts one outcome among the ends counts the effects that end as it. -/
theorem Counts.ofEnds {read : History.Tallies → Nat} {outcome : History.Outcome}
    (hend : ∀ t other, read (t.countEnd other) = read t + if other == outcome then 1 else 0)
    (hrule : ∀ t side, read (t.countRule side) = read t)
    (hstarted : ∀ t, read { t with exchanges := t.exchanges + 1 } = read t) (hzero : read {} = 0) :
    Counts read (Exchange.Effect.endsAs outcome) := by
  refine ⟨fun t effect => ?_, hstarted, hzero⟩
  cases effect with
  | close other update => exact hend t other
  | countRule side => exact hrule t side
  | _ => rfl

/-- A tally that counts one side among the rules counts the effects that count the side. -/
theorem Counts.ofRules {read : History.Tallies → Nat} {side : Rule.Side}
    (hend : ∀ t outcome, read (t.countEnd outcome) = read t)
    (hrule : ∀ t other, read (t.countRule other) = read t + if other == side then 1 else 0)
    (hstarted : ∀ t, read { t with exchanges := t.exchanges + 1 } = read t) (hzero : read {} = 0) :
    Counts read (Exchange.Effect.countsFor side) := by
  refine ⟨fun t effect => ?_, hstarted, hzero⟩
  cases effect with
  | close outcome update => exact hend t outcome
  | countRule other => exact hrule t other
  | _ => rfl

theorem counts_aborted : Counts (·.aborted) (Exchange.Effect.endsAs .aborted) :=
  .ofEnds (fun _ other => by cases other <;> rfl) (fun _ side => by cases side <;> rfl)
    (fun _ => rfl) rfl

theorem counts_failed : Counts (·.failed) (Exchange.Effect.endsAs .failed) :=
  .ofEnds (fun _ other => by cases other <;> rfl) (fun _ side => by cases side <;> rfl)
    (fun _ => rfl) rfl

theorem counts_cancelled : Counts (·.cancelled) (Exchange.Effect.endsAs .cancelled) :=
  .ofEnds (fun _ other => by cases other <;> rfl) (fun _ side => by cases side <;> rfl)
    (fun _ => rfl) rfl

theorem counts_requestRules :
    Counts (·.requestRulesApplied) (Exchange.Effect.countsFor .request) :=
  .ofRules (fun _ outcome => by cases outcome <;> rfl) (fun _ other => by cases other <;> rfl)
    (fun _ => rfl) rfl

theorem counts_responseRules :
    Counts (·.responseRulesApplied) (Exchange.Effect.countsFor .response) :=
  .ofRules (fun _ outcome => by cases outcome <;> rfl) (fun _ other => by cases other <;> rfl)
    (fun _ => rfl) rfl

section Counts

variable {read : History.Tallies → Nat} {kind : Exchange.Effect → Bool}

/-- Effects add to a tally as many as there are of its kind. -/
theorem Counts.foldl_tally (hread : Counts read kind) (t : History.Tallies)
    (effects : List Exchange.Effect) :
    read (effects.foldl tally t) = read t + effects.countP kind := by
  induction effects generalizing t with
  | nil => rfl
  | cons effect rest ih =>
      rw [List.foldl_cons, ih, hread.effect, List.countP_cons]
      omega

/-- What the exchanges ask for at a moment is tallied. -/
theorem Counts.next [Domain.Mapping] (hread : Counts read kind) (h : Chronicle) (m : Moment) :
    read (h.next m).proxy.history.tallies =
      read h.proxy.history.tallies + (h.proxy.attend m).2.countP (kind ·.2) := by
  cases h.proxy.attends m with
  | started arrival client hm =>
      simp only [Chronicle.next, h.proxy.attend_arrived hm, tallies_foldl_record,
        hread.foldl_tally, List.countP_map]
      exact congrArg (· + _) (hread.arrival _)
  | stepped id event x hm hx =>
      simp only [Chronicle.next, h.proxy.attend_told hm hx, tallies_foldl_record,
        hread.foldl_tally, List.countP_map]
      rfl
  | rested hm hnone q hkept hattend =>
      simp only [Chronicle.next, hattend]
      rcases hkept.history with hsame | hcleared
      · rw [hsame]
        rfl
      · rw [hcleared]
        rfl

/-- A tally is the number of effects of its kind in the chronicle. -/
theorem Counts.run [Domain.Mapping] (hread : Counts read kind) (source : RuleSource)
    (moments : List Moment) :
    let h := (start source).run moments
    read h.proxy.history.tallies = h.journal.countP (kind ·.2.2) := by
  refine run_induction
    (motive := fun h => read h.proxy.history.tallies = h.journal.countP (kind ·.2.2)) ?_ ?_ moments
  · exact hread.zero
  · intro h m hcount
    rw [hread.next, hcount]
    simp only [Chronicle.next, List.countP_append, List.countP_map]
    rfl

end Counts

/-- Effects start no exchange. -/
theorem exchanges_foldl_tally (t : History.Tallies) (effects : List Exchange.Effect) :
    (effects.foldl tally t).exchanges = t.exchanges := by
  induction effects generalizing t with
  | nil => rfl
  | cons effect rest ih =>
      rw [List.foldl_cons, ih]
      cases effect with
      | close outcome update => cases outcome <;> rfl
      | countRule side => cases side <;> rfl
      | _ => rfl

/-- As many exchanges are tallied as have started. -/
theorem exchanges_run [Domain.Mapping] (source : RuleSource) (moments : List Moment) :
    let h := (start source).run moments
    h.proxy.history.tallies.exchanges = h.proxy.exchanges.length := by
  refine run_induction
    (motive := fun h => h.proxy.history.tallies.exchanges = h.proxy.exchanges.length) rfl ?_ moments
  intro h m hcount
  cases h.proxy.attends m with
  | started arrival client hm =>
      simp only [next, h.proxy.attend_arrived hm, tallies_foldl_record, exchanges_foldl_tally,
        List.length_append]
      exact congrArg (· + 1) hcount
  | stepped id event x hm hx =>
      simpa [next, h.proxy.attend_told hm hx, tallies_foldl_record, exchanges_foldl_tally]
        using hcount
  | rested hm hnone q hkept hattend =>
      simp only [next, hattend, hkept.exchanges]
      rcases hkept.history with hsame | hcleared
      · rw [hsame]
        exact hcount
      · rw [hcleared]
        exact hcount

/-! ## Once for each exchange -/

/-- What a list has once at most it has as often as it has it at all. -/
theorem countP_eq_of_le_one {α : Type} {kind : α → Bool} {parts : List α}
    (honce : parts.countP kind ≤ 1) :
    parts.countP kind = if parts.any kind then 1 else 0 := by
  by_cases hany : parts.any kind = true
  · have hpos : 0 < parts.countP kind := by
      rw [List.countP_pos_iff]
      exact List.any_eq_true.1 hany
    rw [if_pos hany]
    omega
  · rw [if_neg hany, List.countP_eq_zero]
    intro part hpart hkind
    exact hany (List.any_eq_true.2 ⟨part, hpart, hkind⟩)

/-- Where a list has at most one part of a kind under each of some numbers, it has as many as
there are numbers with one. -/
theorem countP_under {α : Type} (kind : α → Bool) {ids : List Nat} (hids : ids.Nodup)
    {parts : List (Nat × α)} (hmem : ∀ part ∈ parts, part.1 ∈ ids)
    (honce : ∀ id ∈ ids, (under id parts).countP kind ≤ 1) :
    parts.countP (kind ·.2) = ids.countP fun id => (under id parts).any kind := by
  induction ids generalizing parts with
  | nil =>
      have hnil : parts = [] := List.eq_nil_iff_forall_not_mem.2 fun part h => by
        simpa using hmem part h
      rw [hnil]
      rfl
  | cons id rest ih =>
      obtain ⟨hfirst, hrest⟩ := List.nodup_cons.1 hids
      -- The parts under the first number are counted apart from those under the rest.
      let others := parts.filter fun part => !(part.1 == id)
      have hothers : ∀ other ∈ rest, under other others = under other parts := by
        intro other hother
        rw [under_filter_ne, if_neg fun h : id = other => hfirst (h ▸ hother)]
      have hmemOthers : ∀ part ∈ others, part.1 ∈ rest := by
        intro part hpart
        obtain ⟨hin, hne⟩ := List.mem_filter.1 hpart
        rcases List.mem_cons.1 (hmem part hin) with heq | hin
        · simp [heq] at hne
        · exact hin
      have hcount : others.countP (kind ·.2) =
          rest.countP fun other => (under other parts).any kind := by
        rw [ih hrest hmemOthers fun other hother => ?_]
        · refine List.countP_congr fun other hother => ?_
          rw [hothers other hother]
        · rw [hothers other hother]
          exact honce other (List.mem_cons_of_mem _ hother)
      have hown : (parts.filter (·.1 == id)).countP (kind ·.2) =
          if (under id parts).any kind then 1 else 0 := by
        rw [← countP_eq_of_le_one (honce id (List.mem_cons_self ..)), under, List.countP_map]
        rfl
      rw [List.countP_eq_countP_filter_add parts (kind ·.2) (·.1 == id), List.countP_cons,
        ← hcount, Nat.add_comm, hown]

/-! ## Exchanges that have started -/

/-- The ends that the exchange of a number has asked for. -/
def closingsOf (h : Chronicle) (id : Nat) : List (History.Outcome × History.Update) :=
  Exchange.closings ((h.askedBy id).map Prod.snd)

/-- Whether an exchange has asked for an end with an outcome. -/
def endedAs (h : Chronicle) (outcome : History.Outcome) (x : Exchange) : Bool :=
  (h.closingsOf x.id).any (·.1 == outcome)

/-- Whether an exchange has completed the actions of a rule of a side. -/
def completed (h : Chronicle) (side : Rule.Side) (x : Exchange) : Bool :=
  (h.appliedBy x.id).any (·.1 == side)

/-- A chronicle whose exchanges all go through courses under a configuration. -/
structure Sound [Domain.Mapping] (h : Chronicle) : Prop where
  numbered : h.Numbered
  config : h.proxy.source.config.isSome = true
  settled : ∀ id ∈ h.proxy.exchanges.map Exchange.id, ∃ now config arrival client trace,
    h.Follows id ((Exchange.Course.start id now (.ok config) arrival client).run trace)

/-- There is a configuration in force once one was loaded. -/
theorem exists_current {source : RuleSource} (h : source.config.isSome = true) :
    ∃ config, source.current = .ok config := by
  obtain ⟨config, hconfig⟩ := Option.isSome_iff_exists.1 h
  exact ⟨config, by simp [RuleSource.current, hconfig]⟩

/-- A configuration stays in force until another takes its place. -/
theorem config_next [Domain.Mapping] {h : Chronicle} (hconfig : h.proxy.source.config.isSome = true)
    (m : Moment) :
    (h.next m).proxy.source.config.isSome = true := by
  cases h.proxy.attends m with
  | started arrival client hm => simpa only [next, h.proxy.attend_arrived hm] using hconfig
  | stepped id event x hm hx => simpa only [next, h.proxy.attend_told hm hx] using hconfig
  | rested hm hnone q hkept hattend =>
      simp only [next, hattend]
      exact hkept.config hconfig

/-- Each moment keeps every exchange on its course. -/
theorem sound_next [Domain.Mapping] {h : Chronicle} (hs : h.Sound) (m : Moment) : (h.next m).Sound
    := by
  obtain ⟨hn, hconfig, hcourses⟩ := hs
  refine ⟨numbered_next hn m, config_next hconfig m, ?_⟩
  intro id hid
  by_cases hold : id ∈ h.proxy.exchanges.map Exchange.id
  · obtain ⟨now, config, arrival, client, trace, hfollows⟩ := hcourses id hold
    refine ⟨now, config, arrival, client, trace ++ m.eventsOf id, ?_⟩
    rw [Exchange.Course.run_append]
    exact follows_next hn hfollows m
  · by_cases harrived : ∃ arrival client, m.what = .arrived arrival client
    · obtain ⟨arrival, client, hm⟩ := harrived
      obtain ⟨config, hcurrent⟩ := exists_current hconfig
      rw [(h.ids_arrived hm).1, List.mem_append, List.mem_singleton] at hid
      obtain rfl := hid.resolve_left hold
      have hfollows := follows_arrived hn hm
      rw [hcurrent] at hfollows
      exact ⟨m.time, config, arrival, client, [], hfollows⟩
    · rw [(h.ids_of_not_arrived fun arrival client hm => harrived ⟨arrival, client, hm⟩).1] at hid
      exact absurd hid hold

/-- In every chronicle that begins with a configuration each exchange goes through a course. -/
theorem sound_run [Domain.Mapping] (source : RuleSource) (config : Config) (moments : List Moment) :
    ((start { source with config := some config }).run moments).Sound := by
  have hstart : (start { source with config := some config }).Sound :=
    ⟨numbered_start _, rfl, by simp [start]⟩
  exact run_induction hstart (fun _ m hs => sound_next hs m) moments

/-- An exchange that has started is the exchange of its number. -/
theorem Numbered.exchange?_of_mem {h : Chronicle} (hn : h.Numbered) {x : Exchange}
    (hx : x ∈ h.proxy.exchanges) : h.proxy.exchange? x.id = some x := by
  have hsome : (h.proxy.exchange? x.id).isSome = true :=
    (h.proxy.isSome_exchange?_iff x.id).2 (List.mem_map_of_mem hx)
  obtain ⟨y, hy⟩ := Option.isSome_iff_exists.1 hsome
  have hnodup : (h.proxy.exchanges.map Exchange.id).Nodup := by
    rw [hn.ids]
    exact List.nodup_range'
  have hyx : y = x := List.inj_on_of_nodup_map hnodup (List.mem_of_find?_eq_some hy) hx
    (Proxy.id_of_exchange? hy)
  rw [hy, hyx]

/-- What an exchange that has started asked for, and whether it has ended. -/
theorem Sound.exists_settled [Domain.Mapping] {h : Chronicle} (hs : h.Sound) {x : Exchange}
    (hx : x ∈ h.proxy.exchanges) : ∃ c : Exchange.Course, c.Settled ∧ c.exchange = x ∧
      h.askedBy x.id = c.asked ∧ h.appliedBy x.id = c.applied := by
  obtain ⟨now, config, arrival, client, trace, hexchange, hasked, happlied⟩ :=
    hs.settled x.id (List.mem_map_of_mem hx)
  refine ⟨_, Exchange.Course.settled_run x.id now config arrival client trace, ?_, hasked, happlied⟩
  rw [hs.numbered.exchange?_of_mem hx] at hexchange
  exact (Option.some.inj hexchange).symm

/-- As often as the exchanges ask for effects of a kind, if each of them does so once at most, so
many of them do. -/
theorem countP_journal {h : Chronicle} (hn : h.Numbered) (kind : Exchange.Effect → Bool)
    (honce : ∀ x ∈ h.proxy.exchanges, (h.askedBy x.id).countP (kind ·.2) ≤ 1) :
    h.journal.countP (kind ·.2.2) =
      h.proxy.exchanges.countP fun x => (h.askedBy x.id).any (kind ·.2) := by
  have hnodup : (h.proxy.exchanges.map Exchange.id).Nodup := by
    rw [hn.ids]
    exact List.nodup_range'
  rw [countP_under (fun part : Number × Exchange.Effect => kind part.2) hnodup hn.journal ?_,
    List.countP_map]
  · rfl
  · intro id hid
    obtain ⟨x, hx, rfl⟩ := List.mem_map.1 hid
    exact honce x hx

section Sound

variable [Domain.Mapping] {h : Chronicle} (hs : h.Sound) {x : Exchange}
  (hx : x ∈ h.proxy.exchanges)

include hs hx

/-- An exchange has asked for one end when it has ended, and for none before. -/
theorem Sound.length_closingsOf :
    (h.closingsOf x.id).length = if x.state.isEnded then 1 else 0 := by
  obtain ⟨c, hc, rfl, hasked, -⟩ := hs.exists_settled hx
  rw [closingsOf, hasked]
  exact hc.length_closings

/-- An exchange asks for an end with an outcome once at most. -/
theorem Sound.countP_endsAs_le (outcome : History.Outcome) :
    (h.askedBy x.id).countP (Exchange.Effect.endsAs outcome ·.2) ≤ 1 := by
  have hlength := hs.length_closingsOf hx
  have hcount : (h.askedBy x.id).countP (Exchange.Effect.endsAs outcome ·.2) =
      (h.closingsOf x.id).countP (·.1 == outcome) := by
    rw [closingsOf, Exchange.closings, List.countP_filterMap, List.countP_map]
    refine List.countP_congr fun part _ => ?_
    cases hclosing : part.2.closing? <;> simp [Exchange.Effect.endsAs, hclosing]
  have hle : (h.closingsOf x.id).countP (·.1 == outcome) ≤ (h.closingsOf x.id).length :=
    List.countP_le_length
  rw [hcount]
  split at hlength <;> omega

/-- An exchange asks for a rule of a side to be counted once at most. -/
theorem Sound.countP_countsFor_le (side : Rule.Side) :
    (h.askedBy x.id).countP (Exchange.Effect.countsFor side ·.2) ≤ 1 := by
  obtain ⟨c, hc, rfl, hasked, -⟩ := hs.exists_settled hx
  have hcount : (h.askedBy c.exchange.id).countP (Exchange.Effect.countsFor side ·.2) =
      (c.applied.map Prod.fst).count side := by
    rw [← hc.counts_eq, Exchange.counts, List.count, List.countP_filterMap, List.countP_map, hasked]
    refine List.countP_congr fun part _ => ?_
    cases hcounted : part.2.counted? <;> simp [Exchange.Effect.countsFor, hcounted]
  rw [hcount]
  exact List.nodup_iff_count_le_one.1 hc.nodup_sides side

/-- An exchange that asks for a rule of a side to be counted has completed its actions. -/
theorem Sound.any_countsFor (side : Rule.Side) :
    (h.askedBy x.id).any (Exchange.Effect.countsFor side ·.2) = h.completed side x := by
  obtain ⟨c, hc, rfl, hasked, happlied⟩ := hs.exists_settled hx
  have hsides : h.completed side c.exchange = (c.applied.map Prod.fst).any (· == side) := by
    rw [completed, happlied, List.any_map]
    rfl
  rw [hsides, ← hc.counts_eq, Exchange.counts, List.any_filterMap, List.any_map, hasked]
  refine List.any_congr rfl fun part => ?_
  cases hcounted : part.2.counted? with
  | none => simp [Exchange.Effect.countsFor, hcounted]
  | some other => simp [Exchange.Effect.countsFor, hcounted]

end Sound

/-- An end with an outcome is an effect that ends with it. -/
theorem any_endsAs (h : Chronicle) (outcome : History.Outcome) (x : Exchange) :
    (h.askedBy x.id).any (Exchange.Effect.endsAs outcome ·.2) = h.endedAs outcome x := by
  rw [endedAs, closingsOf, Exchange.closings, List.any_filterMap, List.any_map]
  rfl

/-! ## Balance -/

/-- The tallies of a proxy are numbers of its exchanges. -/
structure Balanced (h : Chronicle) : Prop where
  /-- No number was given out twice. -/
  ids_nodup : (h.proxy.exchanges.map Exchange.id).Nodup
  /-- An exchange has asked for one end when it has ended, and for none before. -/
  ends : ∀ x ∈ h.proxy.exchanges,
    (h.closingsOf x.id).length = if x.state.isEnded then 1 else 0
  exchanges : h.proxy.history.tallies.exchanges = h.proxy.exchanges.length
  aborted : h.proxy.history.tallies.aborted = h.proxy.exchanges.countP (h.endedAs .aborted)
  failed : h.proxy.history.tallies.failed = h.proxy.exchanges.countP (h.endedAs .failed)
  cancelled : h.proxy.history.tallies.cancelled = h.proxy.exchanges.countP (h.endedAs .cancelled)
  /-- Every exchange goes on, was forwarded, or is tallied with its end. -/
  total : h.proxy.history.tallies.exchanges =
    h.proxy.exchanges.countP (!·.state.isEnded) + h.proxy.exchanges.countP (h.endedAs .forwarded) +
      h.proxy.history.tallies.aborted + h.proxy.history.tallies.failed +
      h.proxy.history.tallies.cancelled
  requestRules : h.proxy.history.tallies.requestRulesApplied =
    h.proxy.exchanges.countP (h.completed .request)
  responseRules : h.proxy.history.tallies.responseRulesApplied =
    h.proxy.exchanges.countP (h.completed .response)

/-- A tally of ends is the number of exchanges with that end. -/
theorem Sound.tally_ends [Domain.Mapping] {h : Chronicle} (hs : h.Sound) {tallied : Nat}
    {outcome : History.Outcome}
    (htallied : tallied = h.journal.countP (Exchange.Effect.endsAs outcome ·.2.2)) :
    tallied = h.proxy.exchanges.countP (h.endedAs outcome) := by
  rw [htallied, countP_journal hs.numbered _ fun x hx => hs.countP_endsAs_le hx outcome]
  exact List.countP_congr fun x _ => by rw [any_endsAs]

/-- A tally of rules is the number of exchanges that completed one of that side. -/
theorem Sound.tally_rules [Domain.Mapping] {h : Chronicle} (hs : h.Sound) {tallied : Nat}
    {side : Rule.Side}
    (htallied : tallied = h.journal.countP (Exchange.Effect.countsFor side ·.2.2)) :
    tallied = h.proxy.exchanges.countP (h.completed side) := by
  rw [htallied, countP_journal hs.numbered _ fun x hx => hs.countP_countsFor_le hx side]
  exact List.countP_congr fun x hx => by rw [hs.any_countsFor hx]

/-- Exchanges that each have one of five properties are as many as have each of them. -/
theorem length_eq_countP {exchanges : List Exchange} {p q r s t : Exchange → Bool}
    (hone : ∀ x ∈ exchanges,
      (p x).toNat + (q x).toNat + (r x).toNat + (s x).toNat + (t x).toNat = 1) :
    exchanges.length = exchanges.countP p + exchanges.countP q + exchanges.countP r +
      exchanges.countP s + exchanges.countP t := by
  have hcons : ∀ (f : Exchange → Bool) (x : Exchange) (rest : List Exchange),
      (x :: rest).countP f = rest.countP f + (f x).toNat := by
    intro f x rest
    cases hf : f x <;> simp [hf]
  induction exchanges with
  | nil => rfl
  | cons x rest ih =>
      have hx := hone x (List.mem_cons_self ..)
      have hrest := ih fun y hy => hone y (List.mem_cons_of_mem _ hy)
      simp only [List.length_cons, hcons]
      omega

/-- An exchange goes on or has ended, and then with one outcome. -/
theorem Sound.one_outcome [Domain.Mapping] {h : Chronicle} (hs : h.Sound) {x : Exchange}
    (hx : x ∈ h.proxy.exchanges) :
    (!x.state.isEnded).toNat + (h.endedAs .forwarded x).toNat + (h.endedAs .aborted x).toNat +
      (h.endedAs .failed x).toNat + (h.endedAs .cancelled x).toNat = 1 := by
  have hlength := hs.length_closingsOf hx
  obtain ⟨c, hc, rfl, hasked, -⟩ := hs.exists_settled hx
  have hclosings : h.closingsOf c.exchange.id = c.closings := by
    rw [closingsOf, hasked]
    rfl
  cases hended : c.exchange.state.isEnded with
  | false =>
      rw [hended, hclosings] at hlength
      have hnil : c.closings = [] := List.eq_nil_of_length_eq_zero hlength
      simp [endedAs, hclosings, hnil]
  | true =>
      rw [hended, hclosings] at hlength
      obtain ⟨⟨outcome, update⟩, hclose⟩ := List.length_eq_one_iff.1 hlength
      have hne := hc.outcome_ne_pending (outcome, update) (by rw [hclose]; simp)
      cases outcome with
      | pending => exact absurd rfl hne
      | _ =>
          simp only [endedAs, hclosings, hclose]
          rfl

/-- Whatever the order in which exchanges and everything else take their steps, once there is a
configuration the tallies are numbers of exchanges. -/
theorem balanced_run [Domain.Mapping] (source : RuleSource) (config : Config)
    (moments : List Moment) :
    ((start { source with config := some config }).run moments).Balanced := by
  have hs := sound_run source config moments
  have hexchanges := exchanges_run { source with config := some config } moments
  have haborted := hs.tally_ends (counts_aborted.run _ moments)
  have hfailed := hs.tally_ends (counts_failed.run _ moments)
  have hcancelled := hs.tally_ends (counts_cancelled.run _ moments)
  refine ⟨?_, fun x hx => hs.length_closingsOf hx, hexchanges, haborted, hfailed, hcancelled, ?_,
    hs.tally_rules (counts_requestRules.run _ moments),
    hs.tally_rules (counts_responseRules.run _ moments)⟩
  · rw [hs.numbered.ids]
    exact List.nodup_range'
  · rw [hexchanges, haborted, hfailed, hcancelled]
    exact length_eq_countP fun x hx => hs.one_outcome hx

end Chronicle

end FaultInjection
