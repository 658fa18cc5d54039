import FaultInjection.History
import Mathlib.Data.List.Induction
import Mathlib.Data.List.Nodup

/-!
# History - The log as recent history

Exchanges are recorded, amended and closed in any order, and the log is cleared at any time.
What the log holds can be told from the operations alone: the newest entries of those recorded
since it was last cleared, each with all that was written to it afterwards.  What is written to
an entry that has left the log is lost, and counts and numbers go on as if there were no log.

Main definitions:

- `History.Operation`, `History.apply` and `History.run`.
- `History.sinceClear` and `History.recordings`, what was recorded since the last clear, and
  `History.held`, the newest of it.
- `History.Recording.current`, an entry with what was written to it afterwards.
- `History.IsRecent`, what the log holds and how it goes on.

Main results:

- `History.entries_run`: the entries of the log under their numbers.
- `History.tallies_run` and `History.lastId_run`: counts and numbers come from the operations that
  count and number, and from no others.
- `History.isRecent_run`: the log is the recent history, however the operations are mixed.
-/

namespace FaultInjection

namespace History

/-! ## Operations -/

/-- What can be done to a history. -/
inductive Operation where
  | issueId
  | record (entry : Entry)
  | amend (id : Number) (update : Update)
  | close (id : Number) (outcome : Outcome) (update : Update)
  | countRule (side : Rule.Side)
  | clear
  | resetTallies
  deriving DecidableEq, Repr

/-- The history after an operation, with what watchers are told. -/
def apply (h : History) : Operation → History × List Notice
  | .issueId => (h.issueId.2, [])
  | .record entry => h.record entry
  | .amend id update => h.amend id update
  | .close id outcome update => h.close id outcome update
  | .countRule side => (h.countRule side, [])
  | .clear => h.clear
  | .resetTallies => h.resetTallies

/-- The history after operations. -/
def run (h : History) (ops : List Operation) : History := ops.foldl (fun h op => (h.apply op).1) h

theorem run_append (h : History) (ops later : List Operation) :
    h.run (ops ++ later) = (h.run ops).run later :=
  List.foldl_append ..

theorem run_concat (h : History) (ops : List Operation) (op : Operation) :
    h.run (ops ++ [op]) = ((h.run ops).apply op).1 :=
  run_append h ops [op]

/-- The number of the entry that an operation records. -/
def Operation.recorded? : Operation → Option Number
  | .record entry => some entry.id
  | _ => none

/-- The numbers of the entries that operations record, in their order. -/
def recordedIds (ops : List Operation) : List Number := ops.filterMap Operation.recorded?

/-! ## What was recorded -/

/-- What an operation writes to the entry of a number. -/
def Operation.updateOf? (id : Number) : Operation → Option Update
  | .amend other update => if other = id then some update else none
  | .close other outcome update =>
    if other = id then some { update with outcome := some outcome } else none
  | _ => none

/-- An entry as it was recorded, with all that was done afterwards. -/
structure Recording where
  entry : Entry
  later : List Operation
  deriving DecidableEq, Repr

/-- The entry with what was written to it afterwards, in the order in which it was written. -/
def Recording.current (r : Recording) : Entry :=
  (r.later.filterMap (Operation.updateOf? r.entry.id)).foldl (fun e update => update.apply e)
    r.entry

/-- The operations since the log was last cleared. -/
def sinceClear (ops : List Operation) : List Operation :=
  (ops.reverse.takeWhile (· ≠ .clear)).reverse

/-- The entries that operations record, each with the operations that follow. -/
def recordings : List Operation → List Recording
  | [] => []
  | .record entry :: rest => ⟨entry, rest⟩ :: recordings rest
  | _ :: rest => recordings rest

/-- The last items of a list, at most `n`. -/
def newest {α : Type} (n : Nat) (items : List α) : List α := items.drop (items.length - n)

/-- The newest entries recorded since the log was last cleared. -/
def held (ops : List Operation) : List Recording := newest limit (recordings (sinceClear ops))

theorem length_newest {α : Type} (n : Nat) (items : List α) :
    (newest n items).length = min n items.length := by
  rw [newest, List.length_drop]
  omega

theorem newest_of_length_le {α : Type} {n : Nat} {items : List α} (h : items.length ≤ n) :
    newest n items = items := by
  rw [newest, Nat.sub_eq_zero_of_le h, List.drop_zero]

theorem newest_newest {α : Type} (n : Nat) (items : List α) :
    newest n (newest n items) = newest n items := by
  have hshort : (newest n items).length ≤ n := by
    rw [length_newest]
    exact Nat.min_le_left _ _
  exact newest_of_length_le hshort

/-- One more item takes the place of the first of the last ones. -/
theorem newest_newest_concat {α : Type} {n : Nat} (hn : 0 < n) (items : List α) (item : α) :
    newest n (newest n items ++ [item]) = newest n (items ++ [item]) := by
  have hlength := length_newest n items
  rcases Nat.lt_or_ge items.length n with hshort | hlong
  · rw [newest_of_length_le (Nat.le_of_lt hshort)]
  · have hfirst : (newest n items ++ [item]).length - n = 1 := by
      rw [List.length_append, hlength, List.length_singleton]
      omega
    have hrest : (items ++ [item]).length - n = items.length - n + 1 := by
      rw [List.length_append, List.length_singleton]
      omega
    have hnewest : 1 ≤ (newest n items).length := by omega
    have hitems : items.length - n + 1 ≤ items.length := by omega
    calc
      newest n (newest n items ++ [item]) = (newest n items).drop 1 ++ [item] := by
        rw [newest, hfirst, List.drop_append_of_le_length hnewest]
      _ = items.drop (items.length - n + 1) ++ [item] := by
        rw [newest, List.drop_drop]
      _ = newest n (items ++ [item]) := by
        rw [newest, hrest, List.drop_append_of_le_length hitems]

theorem map_newest {α β : Type} (f : α → β) (n : Nat) (items : List α) :
    (newest n items).map f = newest n (items.map f) := by
  rw [newest, newest, List.map_drop, List.length_map]

/-! ## One more operation -/

theorem recordedIds_concat (ops : List Operation) (op : Operation) :
    recordedIds (ops ++ [op]) = recordedIds ops ++ op.recorded?.toList := by
  rw [recordedIds, recordedIds, List.filterMap_append]
  cases op <;> rfl

theorem sinceClear_concat (ops : List Operation) (op : Operation) :
    sinceClear (ops ++ [op]) = if op = .clear then [] else sinceClear ops ++ [op] := by
  by_cases hop : op = .clear
  · simp [sinceClear, hop]
  · simp [sinceClear, hop]

/-- An operation at the end is done after all that was recorded, and it can record an entry. -/
theorem recordings_concat (ops : List Operation) (op : Operation) :
    recordings (ops ++ [op]) =
      (recordings ops).map (fun r => { r with later := r.later ++ [op] }) ++
        match op with
        | .record entry => [⟨entry, []⟩]
        | _ => [] := by
  induction ops with
  | nil => cases op <;> rfl
  | cons first rest ih => cases first <;> simp [recordings, ih]

/-- The entry of a number after an operation. -/
def Operation.revise (op : Operation) (id : Number) (entry : Entry) : Entry :=
  match op.updateOf? id with
  | some update => update.apply entry
  | none => entry

/-- An operation that is addressed to a number revises the entry of that number. -/
theorem revise_of_updateOf? {op : Operation} {id : Number} {update : Update}
    (hop : ∀ key, op.updateOf? key = if id = key then some update else none)
    (key : Number) (entry : Entry) :
    op.revise key entry = if key = id then update.apply entry else entry := by
  by_cases hkey : key = id
  · simp [Operation.revise, hop, hkey]
  · simp [Operation.revise, hop, hkey, Ne.symm hkey]

/-- One more operation revises an entry if it is addressed to its number. -/
theorem Recording.current_concat (r : Recording) (op : Operation) :
    Recording.current { r with later := r.later ++ [op] } = op.revise r.entry.id r.current := by
  cases hop : op.updateOf? r.entry.id <;>
    simp [Recording.current, Operation.revise, List.filterMap_append, hop]

/-- What an operation adds to the log. -/
def Operation.added : Operation → List (Number × Entry)
  | .record entry => [(entry.id, entry)]
  | _ => []

/-- The entries recorded since the last clear, as they are now, under their numbers. -/
def current (ops : List Operation) : List (Number × Entry) :=
  (recordings (sinceClear ops)).map fun r => (r.entry.id, r.current)

/-- One more operation revises the entries and can add one, unless it clears the log. -/
theorem current_concat (ops : List Operation) (op : Operation) :
    current (ops ++ [op]) =
      if op = .clear then []
      else (current ops).map (fun pair => (pair.1, op.revise pair.1 pair.2)) ++ op.added := by
  by_cases hop : op = .clear
  · simp [current, sinceClear_concat, hop, recordings]
  · rw [current, sinceClear_concat, if_neg hop, if_neg hop, recordings_concat, List.map_append,
      current, List.map_map, List.map_map]
    congr 1
    · exact List.map_congr_left fun r _ => congrArg (Prod.mk r.entry.id) (r.current_concat op)
    · cases op <;> rfl

/-! ## The log -/

/-- An operation revises the entries of the log and can add one, unless it clears the log. -/
theorem entries_apply {h : History} {op : Operation} (hfresh : ∀ id ∈ op.recorded?, id ∉ h.ids)
    (hlength : h.entries.length ≤ limit) :
    (h.apply op).1.entries =
      if op = .clear then []
      else newest limit
        (h.entries.map (fun pair => (pair.1, op.revise pair.1 pair.2)) ++ op.added) := by
  have hkept : h.entries.map (fun pair => (pair.1, pair.2)) = h.entries := List.map_id _
  have hwritten : ∀ (other : History) id update, other.entries = h.entries →
      (other.amend id update).1.entries = newest limit (h.entries.map fun pair =>
        (pair.1, if pair.1 = id then update.apply pair.2 else pair.2)) := by
    intro other id update hsame
    rw [entries_amend, hsame, newest_of_length_le (by rwa [List.length_map])]
    refine List.map_congr_left fun pair _ => ?_
    by_cases hpair : pair.1 = id <;> simp [hpair]
  cases op with
  | record entry =>
      have hnew : entry.id ∉ h.entries.map Prod.fst := hfresh entry.id rfl
      simp only [apply, record, place_of_not_mem hnew]
      simp only [reduceCtorEq, if_false, Operation.revise, Operation.updateOf?, Operation.added,
        hkept]
      rfl
  | amend id update =>
      have hrevise : ∀ key entry, (Operation.amend id update).revise key entry =
          if key = id then update.apply entry else entry := revise_of_updateOf? fun _ => rfl
      simp only [reduceCtorEq, if_false, hrevise, Operation.added, List.append_nil]
      exact hwritten h id update rfl
  | close id outcome update =>
      have hrevise : ∀ key entry, (Operation.close id outcome update).revise key entry =
          if key = id then { update with outcome := some outcome : Update }.apply entry
          else entry := revise_of_updateOf? fun _ => rfl
      simp only [reduceCtorEq, if_false, hrevise, Operation.added, List.append_nil]
      exact hwritten _ id _ rfl
  | clear => rfl
  | issueId | countRule | resetTallies =>
      simp only [reduceCtorEq, if_false, Operation.revise, Operation.updateOf?, Operation.added,
        hkept, List.append_nil, newest_of_length_le hlength]
      rfl

/-- New values are written under the number under which the entry stands. -/
theorem ids_amend (h : History) (id : Number) (update : Update) :
    (h.amend id update).1.ids = h.ids := by
  rw [ids, entries_amend, List.map_map]
  refine List.map_congr_left fun pair _ => ?_
  simp only [Function.comp_apply]
  split <;> rfl

/-- No operation files an entry under a number, save the one that records it. -/
theorem mem_ids_apply {h : History} {op : Operation} {id : Number}
    (hid : id ∈ (h.apply op).1.ids) : id ∈ h.ids ∨ op.recorded? = some id := by
  cases op with
  | record entry =>
      obtain ⟨pair, hpair, rfl⟩ := List.mem_map.1 hid
      rcases mem_entries_record hpair with rfl | hold
      · exact .inr rfl
      · exact .inl (List.mem_map_of_mem hold)
  | amend key update =>
      rw [apply, ids_amend] at hid
      exact .inl hid
  | close key outcome update =>
      rw [apply, close, ids_amend] at hid
      exact .inl hid
  | clear => cases hid
  | issueId | countRule | resetTallies => exact .inl hid

/-- The numbers of the log are old ones or those of entries that were recorded. -/
theorem mem_ids_run {h : History} {ops : List Operation} {id : Number}
    (hid : id ∈ (h.run ops).ids) : id ∈ h.ids ∨ id ∈ recordedIds ops := by
  induction ops using List.reverseRecOn with
  | nil => exact .inl hid
  | append_singleton ops op ih =>
      rw [run_concat] at hid
      rw [recordedIds_concat, List.mem_append]
      rcases mem_ids_apply hid with hbefore | hnew
      · rcases ih hbefore with hold | hrecorded
        · exact .inl hold
        · exact .inr (.inl hrecorded)
      · exact .inr (.inr (by simp [hnew]))

/-- The log holds the newest of the entries recorded since the last clear. -/
theorem entries_run {ops : List Operation} (hids : (recordedIds ops).Nodup) :
    (run {} ops).entries = newest limit (current ops) := by
  induction ops using List.reverseRecOn with
  | nil => rfl
  | append_singleton ops op ih =>
      rw [recordedIds_concat, List.nodup_append] at hids
      obtain ⟨hbefore, -, hdisjoint⟩ := hids
      have hfresh : ∀ id ∈ op.recorded?, id ∉ (run {} ops).ids := by
        intro id hid hmem
        rcases mem_ids_run hmem with hold | hrecorded
        · cases hold
        · exact hdisjoint id hrecorded id (by simpa using hid) rfl
      have hentries := ih hbefore
      have hlength : (run {} ops).entries.length ≤ limit := by
        rw [hentries, length_newest]
        exact Nat.min_le_left _ _
      rw [run_concat, entries_apply hfresh hlength, current_concat, hentries]
      by_cases hop : op = .clear
      · simp [hop, newest]
      · rw [if_neg hop, if_neg hop, map_newest]
        -- An operation that records nothing leaves no more entries than before.
        cases op with
        | record entry => exact newest_newest_concat (Nat.zero_lt_succ 499) _ _
        | _ => simp only [Operation.added, List.append_nil, newest_newest]

/-! ## Counts and numbers -/

/-- What an operation counts. -/
def Operation.tally (t : Tallies) : Operation → Tallies
  | .record _ => { t with exchanges := t.exchanges + 1 }
  | .close _ outcome _ => t.countEnd outcome
  | .countRule side => t.countRule side
  | .resetTallies => {}
  | _ => t

/-- The number given out last, after an operation. -/
def Operation.issue (n : Nat) : Operation → Nat
  | .issueId => n + 1
  | _ => n

/-- New values change nothing but the entries. -/
theorem amend_eq (h : History) (id : Number) (update : Update) :
    (h.amend id update).1 = { h with entries := (h.amend id update).1.entries } := by
  unfold amend
  split <;> rfl

theorem tallies_apply (h : History) (op : Operation) :
    (h.apply op).1.tallies = op.tally h.tallies := by
  cases op with
  | amend id update => rw [apply, amend_eq]; rfl
  | close id outcome update => rw [apply, close, amend_eq]; rfl
  | _ => rfl

theorem lastId_apply (h : History) (op : Operation) :
    (h.apply op).1.lastId = op.issue h.lastId := by
  cases op with
  | record entry => simp only [apply, record, Operation.issue]
  | amend id update => rw [apply, amend_eq]; rfl
  | close id outcome update => rw [apply, close, amend_eq]; rfl
  | _ => rfl

/-- The counts come from the operations that count, whatever the log holds. -/
theorem tallies_run (h : History) (ops : List Operation) :
    (h.run ops).tallies = ops.foldl Operation.tally h.tallies := by
  induction ops generalizing h with
  | nil => rfl
  | cons op rest ih =>
      rw [List.foldl_cons, ← tallies_apply]
      exact ih (h.apply op).1

/-- The last number comes from the operations that give numbers out, whatever the log holds. -/
theorem lastId_run (h : History) (ops : List Operation) :
    (h.run ops).lastId = ops.foldl Operation.issue h.lastId := by
  induction ops generalizing h with
  | nil => rfl
  | cons op rest ih =>
      rw [List.foldl_cons, ← lastId_apply]
      exact ih (h.apply op).1

/-! ## Recent history -/

/-- After operations the log is the recent history. -/
structure IsRecent (ops : List Operation) : Prop where
  /-- The log holds the newest entries in the order in which they were recorded, each with what
  was written to it since. -/
  toList : (run {} ops).toList = (held ops).map Recording.current
  /-- They stand under the numbers under which they were recorded. -/
  ids : (run {} ops).ids = (held ops).map (·.entry.id)
  /-- There are as many as were recorded since the last clear, but never more than the limit. -/
  size : (run {} ops).size = min limit (recordings (sinceClear ops)).length
  /-- New values for an entry that is not in the log change nothing, and no watcher is told. -/
  amend : ∀ id ∉ (run {} ops).ids, ∀ update,
    (run {} ops).amend id update = (run {} ops, [])
  /-- The end of an exchange without an entry counts, and that is all. -/
  close : ∀ id ∉ (run {} ops).ids, ∀ outcome update,
    (run {} ops).close id outcome update =
      ({ run {} ops with tallies := (run {} ops).tallies.countEnd outcome }, [])
  /-- An entry that has left the log never comes back. -/
  gone : ∀ id ∈ recordedIds ops, id ∉ (run {} ops).ids → ∀ later,
    (recordedIds (ops ++ later)).Nodup → id ∉ (run {} (ops ++ later)).ids
  /-- A clear changes no count, then or later. -/
  tallies : ∀ later,
    (run {} (ops ++ .clear :: later)).tallies = (run {} (ops ++ later)).tallies
  /-- A clear changes no number that is given out, then or later. -/
  issued : ∀ later,
    (run {} (ops ++ .clear :: later)).issueId.1 = (run {} (ops ++ later)).issueId.1

/-- What has left the log stays away, since no other entry is recorded under its number. -/
theorem not_mem_ids_append {ops later : List Operation} {id : Number}
    (hrecorded : id ∈ recordedIds ops) (hgone : id ∉ (run {} ops).ids)
    (hids : (recordedIds (ops ++ later)).Nodup) : id ∉ (run {} (ops ++ later)).ids := by
  intro hmem
  rw [run_append] at hmem
  rw [recordedIds, List.filterMap_append, List.nodup_append] at hids
  rcases mem_ids_run hmem with hold | hlater
  · exact hgone hold
  · exact hids.2.2 id hrecorded id hlater rfl

/-- However operations are mixed, if entries are recorded under different numbers, the log is the
recent history. -/
theorem isRecent_run (ops : List Operation) (hids : (recordedIds ops).Nodup) : IsRecent ops := by
  have hentries : (run {} ops).entries = (held ops).map fun r => (r.entry.id, r.current) := by
    rw [entries_run hids, current, held, map_newest]
  refine {
    toList := ?_
    ids := ?_
    size := ?_
    amend := fun id hid update => amend_of_not_mem hid update
    close := fun id hid outcome update => ?_
    gone := fun id hrecorded hgone later hlater => not_mem_ids_append hrecorded hgone hlater
    tallies := fun later => ?_
    issued := fun later => ?_ }
  · rw [History.toList, hentries, List.map_map]
    rfl
  · rw [History.ids, hentries, List.map_map]
    rfl
  · rw [History.size, hentries, List.length_map, held, length_newest]
  · rw [History.close, amend_of_not_mem]
    exact hid
  · simp only [tallies_run, List.foldl_append, List.foldl_cons, Operation.tally]
  · simp only [issueId, lastId_run, List.foldl_append, List.foldl_cons, Operation.issue]

/-- One exchange more than the log holds, and late news of the first and of the last. -/
def overflowing : List Operation :=
  (List.range 501).map
      (fun n => .record { id := .whole n, method := "GET", url := "/", timestamp := 0 }) ++
    [.amend (.whole 0) { status := some (some 200) }, .close (.whole 500) .failed {}]

/-- After one exchange too many the log holds the last five hundred; what is told of the first one
comes too late, and what is told of the last one counts. -/
theorem isRecent_run_overflowing : (recordedIds overflowing).Nodup ∧ IsRecent overflowing := by
  have hrecorded : recordedIds overflowing = (List.range 501).map Number.whole := by
    have hlate : List.filterMap Operation.recorded?
        [.amend (.whole 0) { status := some (some 200) }, .close (.whole 500) .failed {}] = [] :=
      rfl
    rw [recordedIds, overflowing, List.filterMap_append, hlate, List.append_nil,
      List.filterMap_map]
    exact congrFun List.filterMap_eq_map (List.range 501)
  have hids : (recordedIds overflowing).Nodup := by
    rw [hrecorded]
    exact List.nodup_range.map fun _ _ => Number.whole_inj.1
  exact ⟨hids, isRecent_run overflowing hids⟩

end History

end FaultInjection
