import FaultInjection.Proofs.Target.PercentEncoding
import FaultInjection.Proofs.Target.Steps

/-!
# Request targets - Parameters that are replaced again

Replacing parameters decodes a query, writes over it and encodes it anew.  What was encoded
is decoded to the same parameters, so that replacing parameters twice is replacing them
once with the second parameters written over the first.  It fails where the query cannot be
decoded or the target cannot have a query, and not otherwise.

Main definitions:

- `Target.IsOverlaid`, the parameters of a query with others written over them.
- `Target.ReplacesTo`, what becomes of a target when parameters are replaced.

Main results:

- `Target.replaceParameters_replaceParameters`: replacing parameters twice.
- `Target.exists_replaceParameters_eq_error_iff`: when parameters cannot be replaced.
- `Target.replacesTo_of_replaceParameters`: what is kept and what is written.
- `Target.replaceParameters_composes`: all of this together.
-/

namespace FaultInjection

open Parameters (Spells IsReadableQuery)

/-- A list without repetitions has none to erase. -/
theorem eraseDups_eq_self {α : Type} [DecidableEq α] {xs : List α} (h : xs.Nodup) :
    xs.eraseDups = xs := by
  induction xs with
  | nil => rfl
  | cons x xs ih =>
      obtain ⟨hx, hxs⟩ := List.nodup_cons.1 h
      have hothers : xs.filter (fun y => !y == x) = xs := by
        refine List.filter_eq_self.2 fun y hy => ?_
        simpa using ne_of_mem_of_not_mem hy hx
      rw [List.eraseDups_cons, hothers, ih hxs]

namespace Target

/-! ## Replacing twice -/

/-- Replacing parameters twice is replacing them once with the second ones written over the first,
in what it makes and in how it fails. -/
theorem replaceParameters_replaceParameters {t u : Target} {written : Parameters}
    (ht : t.IsWellFormed) (hkeys : written.keys.Nodup)
    (h : t.replaceParameters (some written) = .ok u) (others : Parameters) :
    u.replaceParameters (some others) = t.replaceParameters (some (written.overlay others)) := by
  obtain ⟨own, hown, hmoved⟩ := movedTo_of_replaceParameters ht h
  have hmerged : Parameters.decode (u.query?.getD "") = .ok (own.overlay written) := by
    rw [hmoved.query, getD_nonempty?]
    refine Parameters.decode_encode (QueryBytes.nodup_keys_overlay ?_ written)
    exact QueryBytes.nodup_keys_of_decode? (Parameters.decode_eq_ok_iff.1 hown)
  rw [replaceParameters_eq, replaceParameters_eq, hown, hmerged]
  simp only [Except.bind, hmoved.withPathAndQuery_eq, hmoved.path, Option.getD_some,
    Parameters.overlay_overlay hkeys]

/-- Replacing the same parameters again changes nothing. -/
theorem replaceParameters_again {t u : Target} {written : Parameters} (ht : t.IsWellFormed)
    (hkeys : written.keys.Nodup) (h : t.replaceParameters (some written) = .ok u) :
    u.replaceParameters (some written) = .ok u := by
  rw [replaceParameters_replaceParameters ht hkeys h, Parameters.overlay_self hkeys, h]

/-! ## Failures -/

/-- Parameters cannot be replaced where the query cannot be decoded, in an authority alone, and
where the asterisk would get a query. -/
theorem exists_replaceParameters_eq_error_iff {t : Target} {written : Parameters}
    (ht : t.IsWellFormed) :
    (∃ fault, t.replaceParameters (some written) = .error fault) ↔
      ¬ IsReadableQuery (t.query?.getD "") ∨ t.isAuthorityForm = true ∨
      t.path? = some "*" ∧
        ∃ own, Parameters.decode (t.query?.getD "") = .ok own ∧ own.overlay written ≠ [] := by
  rw [exists_error_iff, ← Parameters.exists_decode_eq_ok_iff]
  simp only [replaceParameters_eq_ok_iff ht]
  cases hown : Parameters.decode (t.query?.getD "") with
  | error fault => simp
  | ok own =>
      cases hform : t.isAuthorityForm with
      | true => simp
      | false => simp

/-! ## What is kept and what is written -/

/-- The parameters of a query with others written over them. -/
structure IsOverlaid (pairs written merged : Parameters) : Prop where
  /-- Keys that are there keep the places of their first occurrences, and new ones follow in the
  order in which they are written. -/
  keys : merged.keys = (Parameters.keys pairs).eraseDups ++
    written.keys.filter (· ∉ Parameters.keys pairs)
  /-- A key has the value that is written, or else the last one that it had. -/
  values : ∀ key, merged.get? key =
    (written.get? key).or (Parameters.get? key pairs.reverse)

/-- What is written over the parameters of a query leaves them overlaid. -/
theorem isOverlaid_overlay (pairs : Parameters) {written : Parameters}
    (hkeys : written.keys.Nodup) :
    IsOverlaid pairs written ((Parameters.ofPairs pairs).overlay written) := by
  have hown : (Parameters.ofPairs pairs).keys = (Parameters.keys pairs).eraseDups := by
    rw [Parameters.ofPairs, Parameters.keys_overlay]
    simp [Parameters.keys]
  constructor
  · have hnew : written.keys.removeAll (Parameters.keys pairs).eraseDups =
        written.keys.filter (· ∉ Parameters.keys pairs) := by
      simp [List.removeAll]
    rw [Parameters.keys_overlay, hown, hnew, eraseDups_eq_self (hkeys.filter _)]
  · intro key
    have hnone : Parameters.get? key [] = none := rfl
    rw [Parameters.get?_overlay, Parameters.get?_reverse hkeys, Parameters.ofPairs,
      Parameters.get?_overlay, hnone, Option.or_none]

/-- What becomes of a target when parameters are replaced. -/
structure ReplacesTo (t u : Target) (written : Parameters) : Prop where
  scheme : u.scheme = t.scheme
  authority : u.authority = t.authority
  /-- The path is kept, and is the root where there was none. -/
  path : u.path? = some (t.path?.getD "/")
  /-- The query is written of the parameters of the old one with the others written over them, and
  is read as these again.  There is none where there are no parameters. -/
  query : ∃ pairs merged, Spells (t.query?.getD "") pairs ∧ IsOverlaid pairs written merged ∧
    u.query? = (if merged = [] then none else some merged.encode) ∧
    Parameters.decode (u.query?.getD "") = .ok merged

/-- When parameters are replaced, all else is kept. -/
theorem replacesTo_of_replaceParameters {t u : Target} {written : Parameters}
    (ht : t.IsWellFormed) (hkeys : written.keys.Nodup)
    (h : t.replaceParameters (some written) = .ok u) : ReplacesTo t u written := by
  obtain ⟨own, hown, hmoved⟩ := movedTo_of_replaceParameters ht h
  obtain ⟨pairs, hpairs, rfl⟩ := Parameters.decode_eq_ok_iff_spells.1 hown
  have hnodup : ((Parameters.ofPairs pairs).overlay written).keys.Nodup :=
    QueryBytes.nodup_keys_overlay
      (QueryBytes.nodup_keys_of_decode? (Parameters.decode_eq_ok_iff.1 hown)) written
  refine ⟨hmoved.scheme, hmoved.authority, hmoved.path, pairs, _, hpairs,
    isOverlaid_overlay pairs hkeys, ?_, ?_⟩
  · rw [hmoved.query, nonempty?]
    simp only [Parameters.encode_eq_empty_iff]
  · rw [hmoved.query, getD_nonempty?, Parameters.decode_encode hnodup]

/-- Parameters that are replaced twice are replaced once with the second ones written over the
first, so that replacing the same ones again changes nothing.  They cannot be replaced only where
the query cannot be decoded, in an authority alone, and where the asterisk would get a query.  All
else is kept, keys with their places and last values included. -/
theorem replaceParameters_composes {raw : String} {t : Target} {written : Parameters}
    (hparse : parse raw = .ok t) (hkeys : written.keys.Nodup) :
    (∀ u, t.replaceParameters (some written) = .ok u →
      (∀ others, u.replaceParameters (some others) =
        t.replaceParameters (some (written.overlay others))) ∧
      u.replaceParameters (some written) = .ok u ∧ ReplacesTo t u written) ∧
    ((∃ fault, t.replaceParameters (some written) = .error fault) ↔
      ¬ IsReadableQuery (t.query?.getD "") ∨ t.isAuthorityForm = true ∨
      t.path? = some "*" ∧
        ∃ own, Parameters.decode (t.query?.getD "") = .ok own ∧ own.overlay written ≠ []) := by
  have ht := isWellFormed_of_parse hparse
  refine ⟨fun u hu => ⟨?_, ?_, ?_⟩, exists_replaceParameters_eq_error_iff ht⟩
  · exact replaceParameters_replaceParameters ht hkeys hu
  · exact replaceParameters_again ht hkeys hu
  · exact replacesTo_of_replaceParameters ht hkeys hu

/-- A key that occurs twice keeps its first place and its last value, or gets the one written. -/
theorem replaceParameters_composes_repeatedKey :
    let t : Target := ⟨some "http", some "h", some ⟨"/", some "a=1&b=x+y&a=%C3%A9&&c"⟩⟩
    let u : Target := ⟨some "http", some "h", some ⟨"/", some "a=%C3%A9&b=%25&c=&d="⟩⟩
    let written : Parameters := [("d", ""), ("b", "%")]
    parse "http://h?a=1&b=x+y&a=%C3%A9&&c" = .ok t ∧ written.keys.Nodup ∧
      t.replaceParameters (some written) = .ok u ∧
      u.replaceParameters (some [("c", "&"), ("d", "2")]) =
        t.replaceParameters (some [("d", "2"), ("b", "%"), ("c", "&")]) ∧
      u.replaceParameters (some written) = .ok u ∧ ReplacesTo t u written ∧
      ((∃ fault, t.replaceParameters (some written) = .error fault) ↔
        ¬ IsReadableQuery (t.query?.getD "") ∨ t.isAuthorityForm = true ∨
        t.path? = some "*" ∧
          ∃ own, Parameters.decode (t.query?.getD "") = .ok own ∧ own.overlay written ≠ []) := by
  intro t u written
  have hparse : parse "http://h?a=1&b=x+y&a=%C3%A9&&c" = .ok t := by decide +kernel
  have hkeys : written.keys.Nodup := by decide
  have hu : t.replaceParameters (some written) = .ok u := by decide +kernel
  obtain ⟨hmade, hfault⟩ := replaceParameters_composes hparse hkeys
  obtain ⟨htwice, hagain, hkept⟩ := hmade u hu
  exact ⟨hparse, hkeys, hu, htwice [("c", "&"), ("d", "2")], hagain, hkept, hfault⟩

end Target

end FaultInjection
