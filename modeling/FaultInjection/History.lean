import FaultInjection.Document
import FaultInjection.Rule
import FaultInjection.Timestamp

/-!
# History - The log of exchanges

The history holds the last 500 exchanges, oldest first, each under the number
under which it was recorded.  It also counts exchanges, applied rules and ends;
the counts go on when entries leave the log.  Every change gives rise to notices
for whoever watches.

Main definitions:

- `History.Entry`, `History.Outcome`, `History.Tallies`, and `History` itself.
- `History.issueId`, `History.record`, `History.amend`, `History.close`,
  `History.clear`: the operations.

Main results:

- `History.length_entries_record`: a record never makes the log longer than its
  limit.
- `History.mem_entries_record`, `History.place_of_not_mem`: what a record leaves
  in the log.
- `History.entries_amend`, `History.amend_of_not_mem`: new values are written to
  the entry of their number, and nothing happens without one.
-/

namespace FaultInjection

namespace History

/-- How an exchange ends, or that it has not ended. -/
inductive Outcome where
  | pending
  | forwarded
  | aborted
  | failed
  | cancelled
  deriving DecidableEq, Repr, Inhabited

namespace Outcome

/-- The name of an outcome. -/
def name : Outcome → String
  | pending => "pending"
  | forwarded => "forwarded"
  | aborted => "aborted"
  | failed => "failed"
  | cancelled => "cancelled"

/-- The outcome of a name. -/
def ofName? (name : String) : Option Outcome :=
  [pending, forwarded, aborted, failed, cancelled].find? (·.name == name)

end Outcome

/-- What is known about an exchange. -/
structure Entry where
  id : Number
  method : String
  url : String
  requestRule : Option String := none
  responseRule : Option String := none
  status : Option Number := none
  outcome : Outcome := .pending
  duration : Option Number := none
  /-- The time of its start, in milliseconds. -/
  timestamp : Number
  deriving DecidableEq, Repr

/-- New values for parts of an entry; an absent part stays as it is. -/
structure Update where
  id : Option Number := none
  method : Option String := none
  url : Option String := none
  requestRule : Option (Option String) := none
  responseRule : Option (Option String) := none
  status : Option (Option Number) := none
  outcome : Option Outcome := none
  duration : Option (Option Number) := none
  timestamp : Option Number := none
  deriving DecidableEq, Repr

/-- The entry with new values for some parts. -/
def Update.apply (u : Update) (e : Entry) : Entry :=
  { e with
    id := u.id.getD e.id
    method := u.method.getD e.method
    url := u.url.getD e.url
    requestRule := u.requestRule.getD e.requestRule
    responseRule := u.responseRule.getD e.responseRule
    status := u.status.getD e.status
    outcome := u.outcome.getD e.outcome
    duration := u.duration.getD e.duration
    timestamp := u.timestamp.getD e.timestamp }

/-- How many exchanges there were, and what became of them. -/
structure Tallies where
  exchanges : Nat := 0
  requestRulesApplied : Nat := 0
  responseRulesApplied : Nat := 0
  aborted : Nat := 0
  failed : Nat := 0
  cancelled : Nat := 0
  deriving DecidableEq, Repr

/-- The tallies with one more end. -/
def Tallies.countEnd (t : Tallies) : Outcome → Tallies
  | .aborted => { t with aborted := t.aborted + 1 }
  | .failed => { t with failed := t.failed + 1 }
  | .cancelled => { t with cancelled := t.cancelled + 1 }
  | _ => t

/-- The tallies with one more applied rule. -/
def Tallies.countRule (t : Tallies) : Rule.Side → Tallies
  | .request => { t with requestRulesApplied := t.requestRulesApplied + 1 }
  | .response => { t with responseRulesApplied := t.responseRulesApplied + 1 }

/-- What a watcher of the history is told. -/
inductive Notice where
  | recorded (id : Number)
  | changed
  deriving DecidableEq, Repr

/-- The text of a notice. -/
def Notice.text : Notice → String
  | recorded id => "exchange " ++ id.text
  | changed => "change"

/-- How many entries the log holds at most. -/
def limit : Nat := 500

/-- The log with an entry under a number, in the place of the old entry of that number. -/
def place (id : Number) (entry : Entry) : List (Number × Entry) → List (Number × Entry)
  | [] => [(id, entry)]
  | (k, e) :: rest => if k = id then (k, entry) :: rest else (k, e) :: place id entry rest

end History

/-- The log of exchanges, with counts and the state of the listener. -/
structure History where
  /-- Entries under the numbers under which they were recorded, oldest first. -/
  entries : List (Number × History.Entry) := []
  lastId : Nat := 0
  tallies : History.Tallies := {}
  running : Bool := false
  port : Number := 0
  deriving DecidableEq, Repr

namespace History

/-! ## Look-ups -/

/-- How many entries the log holds. -/
def size (h : History) : Nat := h.entries.length

/-- The entry recorded under a number. -/
def get? (h : History) (id : Number) : Option Entry :=
  (h.entries.find? fun pair => pair.1 == id).map Prod.snd

/-- The entries, oldest first. -/
def toList (h : History) : List Entry := h.entries.map Prod.snd

/-- The numbers under which the log has entries. -/
def ids (h : History) : List Number := h.entries.map Prod.fst

/-! ## Operations -/

/-- The next number for an exchange, and the history that has given it out. -/
def issueId (h : History) : Nat × History := (h.lastId + 1, { h with lastId := h.lastId + 1 })

/-- The history with one more exchange; the oldest entries beyond the limit leave the log. -/
def record (h : History) (entry : Entry) : History × List Notice :=
  let entries := place entry.id entry h.entries
  ({ h with
      entries := entries.drop (entries.length - limit)
      tallies := { h.tallies with exchanges := h.tallies.exchanges + 1 } },
    [.recorded entry.id, .changed])

/-- The history with new values in the entry of a number; without that entry nothing changes. -/
def amend (h : History) (id : Number) (update : Update) : History × List Notice :=
  if h.entries.any (fun pair => pair.1 == id) then
    ({ h with
        entries := h.entries.map fun pair =>
          if pair.1 == id then (pair.1, update.apply pair.2) else pair },
      [.changed])
  else (h, [])

/-- The history in which an exchange has ended; the end counts even without its entry. -/
def close (h : History) (id : Number) (outcome : Outcome) (update : Update) :
    History × List Notice :=
  { h with tallies := h.tallies.countEnd outcome }.amend id { update with outcome := some outcome }

/-- The history in which one more rule was applied. -/
def countRule (h : History) (side : Rule.Side) : History :=
  { h with tallies := h.tallies.countRule side }

/-- The history with an empty log. -/
def clear (h : History) : History × List Notice := ({ h with entries := [] }, [.changed])

/-- The history with all counts at zero. -/
def resetTallies (h : History) : History × List Notice := ({ h with tallies := {} }, [.changed])

/-- The history with a new state of the listener; without a port the old one stays. -/
def setRunning (h : History) (running : Bool) (port : Option Number) : History × List Notice :=
  ({ h with running, port := port.getD h.port }, [.changed])

/-- A record never makes the log longer than its limit. -/
theorem length_entries_record (h : History) (entry : Entry) :
    (h.record entry).1.entries.length ≤ limit := by
  simp only [record, List.length_drop]
  omega

/-- What is recorded takes its place, and the rest was in the log before. -/
theorem mem_place {id : Number} {entry : Entry} {entries : List (Number × Entry)}
    {pair : Number × Entry} (h : pair ∈ place id entry entries) :
    pair = (id, entry) ∨ pair ∈ entries := by
  induction entries with
  | nil => exact .inl (List.mem_singleton.1 h)
  | cons first rest ih =>
      obtain ⟨key, old⟩ := first
      rw [place] at h
      split at h
      · rename_i hkey
        rcases List.mem_cons.1 h with heq | hrest
        · exact .inl (by rw [heq, hkey])
        · exact .inr (List.mem_cons_of_mem _ hrest)
      · rcases List.mem_cons.1 h with heq | hrest
        · exact .inr (by rw [heq]; exact List.mem_cons_self ..)
        · rcases ih hrest with heq | hold
          · exact .inl heq
          · exact .inr (List.mem_cons_of_mem _ hold)

/-- An entry under a new number comes last. -/
theorem place_of_not_mem {id : Number} {entry : Entry} {entries : List (Number × Entry)}
    (h : id ∉ entries.map Prod.fst) : place id entry entries = entries ++ [(id, entry)] := by
  induction entries with
  | nil => rfl
  | cons first rest ih =>
      rw [List.map_cons, List.mem_cons, not_or] at h
      rw [place, if_neg (Ne.symm h.1), ih h.2, List.cons_append]

/-- New values are written to the entry of a number, if the log has one. -/
theorem entries_amend (h : History) (id : Number) (update : Update) :
    (h.amend id update).1.entries = h.entries.map fun pair =>
      if pair.1 == id then (pair.1, update.apply pair.2) else pair := by
  unfold amend
  split
  · rfl
  · rename_i hnone
    have hsame : ∀ pair ∈ h.entries,
        (if pair.1 == id then (pair.1, update.apply pair.2) else pair) = pair := by
      intro pair hpair
      have hne : ¬ (pair.1 == id) = true := fun heq => hnone (List.any_eq_true.2 ⟨pair, hpair, heq⟩)
      rw [if_neg hne]
    rw [List.map_congr_left hsame, List.map_id']

/-- Without an entry of the number, nothing is written and no watcher is told. -/
theorem amend_of_not_mem {h : History} {id : Number} (hid : id ∉ h.ids) (update : Update) :
    h.amend id update = (h, []) := by
  have hany : ¬ (h.entries.any fun pair => pair.1 == id) = true := by
    intro hany
    obtain ⟨pair, hpair, heq⟩ := List.any_eq_true.1 hany
    exact hid (List.mem_map.2 ⟨pair, hpair, by simpa using heq⟩)
  rw [amend, if_neg hany]

/-- What is in the log after a record was there before, or is what was recorded. -/
theorem mem_entries_record {h : History} {entry : Entry} {pair : Number × Entry}
    (hpair : pair ∈ (h.record entry).1.entries) : pair = (entry.id, entry) ∨ pair ∈ h.entries := by
  simp only [record] at hpair
  exact mem_place (List.mem_of_mem_drop hpair)

/-! ## Documents -/

/-- The document of an optional text. -/
def textOrNull (s : Option String) : Document := (s.map Document.text).getD .null

/-- The document of an optional number. -/
def numberOrNull (n : Option Number) : Document := (n.map Document.number).getD .null

/-- The document of an entry. -/
def Entry.document (e : Entry) : Document :=
  .record [
    ("id", .number e.id),
    ("method", .text e.method),
    ("url", .text e.url),
    ("requestRule", textOrNull e.requestRule),
    ("responseRule", textOrNull e.responseRule),
    ("status", numberOrNull e.status),
    ("outcome", .text e.outcome.name),
    ("duration", numberOrNull e.duration),
    ("timestamp", .text (Timestamp.text e.timestamp))]

/-- The document of tallies. -/
def Tallies.document (t : Tallies) : Document :=
  let count (n : Nat) : Document := .number (.ofNat n)
  .record [
    ("exchanges", count t.exchanges),
    ("requestRulesApplied", count t.requestRulesApplied),
    ("responseRulesApplied", count t.responseRulesApplied),
    ("aborted", count t.aborted),
    ("failed", count t.failed),
    ("cancelled", count t.cancelled)]

end History

end FaultInjection
