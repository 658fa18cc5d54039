import FaultInjection.Proofs.Proxy.Chronicle

/-!
# Proxies - The log

The log of a proxy holds entries under the numbers of exchanges.  An exchange changes no
entry but the one under its own number, and whatever it writes there does not depend on
the number.

Main definitions:

- `Exchange.Effect.revise` and `Exchange.reviseAll`, what effects do to an entry.
- `History.Entry.Agrees`, entries that are alike but for their numbers.

Main results:

- `Proxy.mem_entries_recordAll_self` and `Proxy.mem_entries_recordAll_of_ne`: entries
  after effects.
- `Chronicle.filed_run`: each entry of the log stands under the number of an exchange.
-/

namespace FaultInjection

/-! ## Entries -/

/-- Entries that are alike but for their numbers. -/
def History.Entry.Agrees (e other : History.Entry) : Prop := e = { other with id := e.id }

namespace Exchange

/-- What an effect does to the entry of its exchange. -/
def Effect.revise : Effect → History.Entry → History.Entry
  | .amend update, e => update.apply e
  | .close outcome update, e => { update with outcome := some outcome : History.Update }.apply e
  | _, e => e

/-- What effects do to the entry of their exchange. -/
def reviseAll (e : History.Entry) (effects : List Effect) : History.Entry :=
  effects.foldl (fun e effect => effect.revise e) e

/-- The same new values keep entries alike. -/
theorem agrees_apply {e other : History.Entry} (h : e.Agrees other) (update : History.Update) :
    (update.apply e).Agrees (update.apply other) := by
  unfold History.Entry.Agrees at h
  rw [h]
  rfl

/-- The same effects keep entries alike. -/
theorem agrees_reviseAll {e other : History.Entry} (h : e.Agrees other) (effects : List Effect) :
    (reviseAll e effects).Agrees (reviseAll other effects) := by
  induction effects generalizing e other with
  | nil => exact h
  | cons effect rest ih =>
      refine ih ?_
      cases effect with
      | amend update => exact agrees_apply h update
      | close outcome update => exact agrees_apply h _
      | _ => exact h

end Exchange

namespace Proxy

open Exchange (reviseAll)

/-! ## Effects -/

/-- An effect changes the entry under the number of its exchange. -/
theorem entries_record (id : Nat) (h : History) (effect : Exchange.Effect) :
    (record id h effect).entries = h.entries.map fun pair =>
      if pair.1 == .whole id then (pair.1, effect.revise pair.2) else pair := by
  cases effect with
  | amend update => exact h.entries_amend (.whole id) update
  | close outcome update =>
      exact History.entries_amend { h with tallies := h.tallies.countEnd outcome } (.whole id) _
  | _ => simp [record, Exchange.Effect.revise, History.countRule]

theorem entries_foldl_record (id : Nat) (h : History) (effects : List Exchange.Effect) :
    (effects.foldl (record id) h).entries = h.entries.map fun pair =>
      if pair.1 == .whole id then (pair.1, reviseAll pair.2 effects) else pair := by
  induction effects generalizing h with
  | nil => simp [reviseAll]
  | cons effect rest ih =>
      rw [List.foldl_cons, ih, entries_record, List.map_map]
      refine List.map_congr_left fun pair _ => ?_
      by_cases hkey : pair.1 = .whole id
      · simp [hkey, reviseAll]
      · simp [hkey]

/-- The entry of an exchange after its effects is the entry before them, revised. -/
theorem mem_entries_foldl_record_self {id : Nat} {h : History} {effects : List Exchange.Effect}
    {e : History.Entry} (he : (.whole id, e) ∈ (effects.foldl (record id) h).entries) :
    ∃ old, (.whole id, old) ∈ h.entries ∧ e = reviseAll old effects := by
  rw [entries_foldl_record, List.mem_map] at he
  obtain ⟨⟨key, old⟩, hold, heq⟩ := he
  by_cases hkey : key = .whole id
  · subst hkey
    simp only [BEq.rfl, if_true, Prod.mk.injEq, true_and] at heq
    exact ⟨old, hold, heq.symm⟩
  · rw [if_neg (by simpa using hkey)] at heq
    cases heq
    exact absurd rfl hkey

/-- The entry of an exchange stays as it is after effects of another. -/
theorem mem_entries_foldl_record_of_ne {id other : Nat} (hne : other ≠ id) {h : History}
    {effects : List Exchange.Effect} {e : History.Entry}
    (he : (.whole id, e) ∈ (effects.foldl (record other) h).entries) :
    (.whole id, e) ∈ h.entries := by
  rw [entries_foldl_record, List.mem_map] at he
  obtain ⟨⟨key, old⟩, hold, heq⟩ := he
  by_cases hkey : key = .whole other
  · rw [if_pos (by simpa using hkey)] at heq
    have hsame : Number.whole other = .whole id := hkey.symm.trans (congrArg Prod.fst heq)
    exact absurd (Number.whole_inj.1 hsame) hne
  · rw [if_neg (by simpa using hkey)] at heq
    exact heq ▸ hold

/-- Entries of one arrival are alike. -/
theorem agrees_entryOf (id other : Nat) (now : Number) (arrival : Arrival) :
    (entryOf id now arrival).Agrees (entryOf other now arrival) :=
  rfl

/-- Effects file no entry under a new number. -/
theorem exists_key_of_mem_foldl_record {id : Nat} {h : History} {effects : List Exchange.Effect}
    {pair : Number × History.Entry} (hpair : pair ∈ (effects.foldl (record id) h).entries) :
    ∃ old ∈ h.entries, old.1 = pair.1 := by
  rw [entries_foldl_record, List.mem_map] at hpair
  obtain ⟨old, hold, rfl⟩ := hpair
  refine ⟨old, hold, ?_⟩
  split <;> rfl

end Proxy

namespace Chronicle

/-- Each entry of the log stands under the number of an exchange. -/
def Filed (h : Chronicle) : Prop :=
  ∀ pair ∈ h.proxy.history.entries, ∃ id ∈ h.proxy.exchanges.map Exchange.id, pair.1 = .whole id

/-- Each moment keeps the entries under the numbers of exchanges. -/
theorem filed_next [Domain.Mapping] {h : Chronicle} (hf : h.Filed) (m : Moment) : (h.next m).Filed
    := by
  intro pair hpair
  cases h.proxy.attends m with
  | started arrival client hm =>
      rw [(h.ids_arrived hm).1]
      simp only [next, h.proxy.attend_arrived hm] at hpair
      obtain ⟨old, hold, hkey⟩ := Proxy.exists_key_of_mem_foldl_record hpair
      rcases History.mem_entries_record hold with rfl | hold
      · exact ⟨_, List.mem_append_right _ (List.mem_singleton.2 rfl), hkey.symm⟩
      · obtain ⟨id, hid, heq⟩ := hf old hold
        exact ⟨id, List.mem_append_left _ hid, hkey ▸ heq⟩
  | stepped id event x hm hx =>
      rw [(h.ids_of_not_arrived (by simp [hm])).1]
      simp only [next, h.proxy.attend_told hm hx] at hpair
      obtain ⟨old, hold, hkey⟩ := Proxy.exists_key_of_mem_foldl_record hpair
      exact hkey ▸ hf old hold
  | rested hm hnone q hkept hattend =>
      rw [(h.ids_of_not_arrived hm).1]
      simp only [next, hattend] at hpair
      rcases hkept.history with hsame | hcleared
      · rw [hsame] at hpair
        exact hf pair hpair
      · rw [hcleared] at hpair
        cases hpair

/-! ## One moment -/

section Moments

variable {h : Chronicle} {m : Moment} {id : Nat}

/-- An exchange that is told something has its entry revised. -/
theorem history_told [Domain.Mapping] {event : Exchange.Event} {x : Exchange}
    (hm : m.what = .told id event) (hx : h.proxy.exchange? id = some x) :
    (h.next m).proxy.history =
      (x.next m.time event).2.foldl (Proxy.record id) h.proxy.history := by
  rw [next, h.proxy.attend_told hm hx]

/-- The entry of an exchange stays as it is at moments that are not its own. -/
theorem mem_entries_of_not_told [Domain.Mapping] (hm : ∀ event, m.what ≠ .told id event)
    (hid : id ≠ h.proxy.history.lastId + 1) {e : History.Entry}
    (he : (.whole id, e) ∈ (h.next m).proxy.history.entries) :
    (.whole id, e) ∈ h.proxy.history.entries := by
  cases h.proxy.attends m with
  | started arrival client hwhat =>
      simp only [next, h.proxy.attend_arrived hwhat] at he
      have hold := Proxy.mem_entries_foldl_record_of_ne (Ne.symm hid) he
      rcases History.mem_entries_record hold with heq | hold
      · exact absurd (Number.whole_inj.1 (congrArg Prod.fst heq)) hid
      · exact hold
  | stepped other event x hwhat hx =>
      have hne : other ≠ id := fun heq => hm event (heq ▸ hwhat)
      simp only [next, h.proxy.attend_told hwhat hx] at he
      exact Proxy.mem_entries_foldl_record_of_ne hne he
  | rested hwhat hnone q hkept hattend =>
      simp only [next, hattend] at he
      rcases hkept.history with hsame | hcleared
      · rwa [hsame] at he
      · rw [hcleared] at he
        cases he

/-- The entry of an exchange that has just started is the one of its arrival, revised. -/
theorem mem_entries_arrived [Domain.Mapping] (hn : h.Numbered) (hf : h.Filed) {arrival : Arrival}
    {client : Client} (hm : m.what = .arrived arrival client)
    (hid : id = h.proxy.history.lastId + 1) {e : History.Entry}
    (he : (.whole id, e) ∈ (h.next m).proxy.history.entries) :
    e = Exchange.reviseAll (Proxy.entryOf id m.time arrival)
      (Exchange.start id m.time h.proxy.source.current arrival client).2 := by
  subst hid
  simp only [next, h.proxy.attend_arrived hm] at he
  obtain ⟨old, hold, rfl⟩ := Proxy.mem_entries_foldl_record_self he
  rcases History.mem_entries_record hold with heq | hbefore
  · have hentry : old = Proxy.entryOf (h.proxy.history.lastId + 1) m.time arrival :=
      congrArg Prod.snd heq
    rw [hentry]
  · -- Before its arrival no entry can stand under the number.
    obtain ⟨other, hother, heq⟩ := hf _ hbefore
    rw [hn.ids, List.mem_range'_1, ← Number.whole_inj.1 heq] at hother
    omega

/-- The first exchange of a proxy has the only entry. -/
theorem entries_arrived_first [Domain.Mapping] (source : RuleSource) {arrival : Arrival}
    {client : Client} (hm : m.what = .arrived arrival client) :
    ((start source).next m).proxy.history.entries =
      [(.whole 1, Exchange.reviseAll (Proxy.entryOf 1 m.time arrival)
        (Exchange.start 1 m.time source.current arrival client).2)] := by
  simp only [next, Proxy.attend_arrived _ hm, Proxy.entries_foldl_record]
  simp [start, History.record, History.issueId, History.place, History.limit, Proxy.entryOf]

end Moments

end Chronicle

end FaultInjection
