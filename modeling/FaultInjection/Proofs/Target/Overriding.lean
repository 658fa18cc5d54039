import FaultInjection.Proofs.Target.Steps

/-!
# Request targets - Parameters that are written over a query

Replacing parameters decodes the whole query, writes over it and encodes all of it
again.  A key that is not written over keeps its last value, as long as raw characters
are read as their UTF-8; a raw character above U+007F stands for one byte on the request
line and comes back as two.  Hence the bytes of a query of escapes and visible ASCII are
kept, and those of other queries are not.

Main definitions:

- `Target.pairs` and `Target.writtenPairs`, the query of a target with one byte for each
  raw character, and with its UTF-8.

Main results:

- `Target.queryText_of_replaceParameters`: which query parameters are written as.
- `Target.lastValue?_replaceParameters`: the last values of keys that are not written
  over.
-/

namespace FaultInjection

namespace Target

open QueryBytes

/-! ## Queries of targets -/

/-- The text of the query, which is empty where there is none. -/
def queryText (t : Target) : String := (t.pathAndQuery.bind PathAndQuery.query).getD ""

/-- The keys and values of the query, with one byte for each raw character. -/
def pairs (t : Target) : List Pair := QueryBytes.pairs rawByte t.queryText.toList

/-- The keys and values of the query, with the UTF-8 of each raw character. -/
def writtenPairs (t : Target) : List Pair :=
  QueryBytes.pairs String.utf8EncodeChar t.queryText.toList

/-- Parameters are replaced by writing them over those of the query. -/
theorem queryText_of_replaceParameters {t u : Target} {parameters : Parameters}
    (ht : t.IsWellFormed) (h : t.replaceParameters (some parameters) = .ok u) :
    ∃ own, Parameters.decode? t.queryText = some own ∧
      u.queryText = (own.overlay parameters).encode := by
  obtain ⟨own, hown, hmoved⟩ := movedTo_of_replaceParameters ht h
  refine ⟨own, Parameters.decode_eq_ok_iff.1 hown, ?_⟩
  change u.query?.getD "" = _
  rw [hmoved.query, getD_nonempty?]

/-! ## Keys that are not written over -/

/-- A key that is not written over has no last value among parameters. -/
theorem lastValue?_untouched {parameters : Parameters} {key : Bytes}
    (hkey : ∀ pair ∈ parameters, utf8Bytes pair.1 ≠ key) :
    lastValue? key (ofParameters parameters) = none := by
  refine lastValue?_eq_none fun pair hpair => ?_
  obtain ⟨parameter, hmem, rfl⟩ := List.mem_map.1 hpair
  exact hkey parameter hmem

/-- A key that parameters are not written over keeps the last value that it has with raw
characters read as UTF-8.  Where the query holds none above U+007F, this is its last value as
bytes. -/
theorem lastValue?_replaceParameters {raw : String} {t u : Target} {parameters : Parameters}
    (hparse : parse raw = .ok t) (hreplace : t.replaceParameters (some parameters) = .ok u) :
    (∀ key, (∀ pair ∈ parameters, utf8Bytes pair.1 ≠ key) →
      lastValue? key u.pairs = lastValue? key t.writtenPairs) ∧
    ((∀ c ∈ t.queryText.toList, c.toNat < 0x80) →
      ∀ key, (∀ pair ∈ parameters, utf8Bytes pair.1 ≠ key) →
        lastValue? key u.pairs = lastValue? key t.pairs) := by
  obtain ⟨own, hown, hquery⟩ :=
    queryText_of_replaceParameters (isWellFormed_of_parse hparse) hreplace
  have hwritten : ∀ key, (∀ pair ∈ parameters, utf8Bytes pair.1 ≠ key) →
      lastValue? key u.pairs = lastValue? key t.writtenPairs := by
    intro key hkey
    calc lastValue? key u.pairs
        = lastValue? key (ofParameters (own.overlay parameters)) := by
          rw [pairs, hquery, pairs_encode]
      _ = lastValue? key (ofParameters own ++ ofParameters parameters) :=
          lastValue?_overlay (nodup_keys_of_decode? hown) key parameters
      _ = lastValue? key (ofParameters own) := by
          rw [lastValue?_append, lastValue?_untouched hkey, Option.none_or]
      _ = lastValue? key t.writtenPairs := lastValue?_of_decode? hown key
  refine ⟨hwritten, fun hascii key hkey => ?_⟩
  have hsame : t.pairs = t.writtenPairs := pairs_congr fun c hc => rawByte_of_lt (hascii c hc)
  rw [hwritten key hkey, hsame]

/-- Parameters are written over a query with a repeated key, escapes and an empty piece. -/
theorem lastValue?_replaceParameters_escapes :
    ∃ t u, parse "/s?q=a+b&x=1&&q=%C3%A9" = .ok t ∧
      t.replaceParameters (some [("x", "2"), ("y", "&")]) = .ok u ∧
      u.queryText = "q=%C3%A9&x=2&y=%26" ∧
      lastValue? [113] u.pairs = lastValue? [113] t.writtenPairs ∧
      lastValue? [113] u.pairs = lastValue? [113] t.pairs ∧
      lastValue? [113] t.pairs = some [0xc3, 0xa9] := by
  let t : Target := { pathAndQuery := some ⟨"/s", some "q=a+b&x=1&&q=%C3%A9"⟩ }
  let u : Target := { pathAndQuery := some ⟨"/s", some "q=%C3%A9&x=2&y=%26"⟩ }
  have hparse : parse "/s?q=a+b&x=1&&q=%C3%A9" = .ok t := by decide +kernel
  have hreplace : t.replaceParameters (some [("x", "2"), ("y", "&")]) = .ok u := by
    decide +kernel
  have hkey : ∀ pair ∈ [("x", "2"), ("y", "&")], utf8Bytes pair.1 ≠ [113] := by decide +kernel
  have hall : t.queryText.toList.all (decide <| ·.toNat < 0x80) = true := by decide +kernel
  have hplain : ∀ c ∈ t.queryText.toList, c.toNat < 0x80 :=
    fun c hc => of_decide_eq_true (List.all_eq_true.1 hall c hc)
  obtain ⟨hwritten, hascii⟩ := lastValue?_replaceParameters hparse hreplace
  exact ⟨t, u, hparse, hreplace, rfl, hwritten [113] hkey, hascii hplain [113] hkey,
    by decide +kernel⟩

/-- A raw byte above those of ASCII comes back as the two bytes of its UTF-8. -/
theorem not_forall_lastValue?_kept :
    ¬ ∀ (raw : String) (t u : Target) (parameters : Parameters) (key value : Bytes),
      parse raw = .ok t → t.replaceParameters (some parameters) = .ok u →
      (∀ pair ∈ parameters, utf8Bytes pair.1 ≠ key) →
      lastValue? key t.pairs = some value → lastValue? key u.pairs = some value := by
  intro h
  let t : Target := { pathAndQuery := some ⟨"/", some "a=\u00e9"⟩ }
  let u : Target := { pathAndQuery := some ⟨"/", some "a=%C3%A9&b=1"⟩ }
  have hkept : lastValue? [97] u.pairs = some [0xe9] :=
    h "/?a=\u00e9" t u [("b", "1")] [97] [0xe9] (by decide +kernel) (by decide +kernel)
      (by decide +kernel) (by decide +kernel)
  exact absurd hkept (by decide +kernel)

end Target

end FaultInjection
