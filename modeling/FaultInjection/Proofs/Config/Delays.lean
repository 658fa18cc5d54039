import FaultInjection.Proofs.Config.Validity
import FaultInjection.Proofs.Number.Rounding
import Mathlib.Control.Monad.Basic

/-!
# Configuration - Delays

A delay is written as a number of milliseconds, as a text with units, or as a record of seconds
and nanoseconds.  The first two are looked at when they are read, so that none of them is
infinite.  The counts of a record are not looked at together: where their milliseconds overflow,
the rule has an infinite delay, and this is the only way to have one.

Main definitions:

- `Duration.Overflows`, counts whose milliseconds are too many for a finite number.
- `Document.DelayOverflows`, the documents of rules that ask for such counts.
- `Rule.HasDelayOf`, what the delay of a rule is.

Main results:

- `Duration.isNonneg_of_parseDuration`: a text with units stands for no negative number.
- `Schema.milliseconds_whole`: what two counts come to.
- `Config.hasDelayOf`: the delay of any rule of any document is absent or a finite amount, exactly
  unless the document asks for counts that overflow.
- `Config.not_forall_delay_isAmount`: there are such counts.
-/

namespace FaultInjection

open Number (IsAmount IsNonneg roundQuotient overflowThreshold unitsPerOne)

/-! ## Texts with units -/

namespace Duration

/-- A unit is a positive number of milliseconds. -/
theorem exists_of_unit? {unit : List Char} {factor : Number} (h : unit? unit = some factor) :
    ∃ units : Nat, 0 < units ∧ factor = .finite units := by
  have hpositive : factor.isFinite = true ∧ (Number.finite 0).lt factor = true := by
    unfold unit? at h
    split at h
    case h_14 => cases h
    all_goals
      obtain rfl := Option.some.inj h
      decide +kernel
  obtain ⟨hfinite, hlt⟩ := hpositive
  cases factor with
  | notANumber => cases hfinite
  | infinite negative => cases hfinite
  | finite units =>
      have hunits : 0 < units := by simpa [Number.lt] using hlt
      exact ⟨units.toNat, by omega, by rw [Int.toNat_of_nonneg (by omega)]⟩

/-- Digits stand for no negative number. -/
theorem isNonneg_ofDecimal (digits : Nat) (exponent : Int) :
    (Number.ofDecimal false digits exponent).IsNonneg := by
  unfold Number.ofDecimal
  split
  · exact Number.isNonneg_finite 0
  · dsimp only
    split
    · exact .inr rfl
    · split
      · exact Number.isNonneg_finite 0
      · simp only [Bool.false_eq_true, if_false]
        split
        · rw [← Int.natCast_mul, ← Int.natCast_mul]
          exact Number.isNonneg_ofQuotient Nat.one_pos
        · rw [← Int.natCast_mul]
          exact Number.isNonneg_ofQuotient (Nat.pow_pos (by decide))

/-- A part is no negative amount of milliseconds. -/
theorem isNonneg_of_value? {part : Part} {value : Number} (h : part.value? = some value) :
    value.IsNonneg := by
  obtain ⟨factor, hfactor, rfl⟩ := Option.map_eq_some_iff.1 h
  obtain ⟨units, hunits, rfl⟩ := exists_of_unit? hfactor
  exact (isNonneg_ofDecimal _ _).mul_finite hunits

/-- Parts add no negative amount to a sum. -/
theorem isNonneg_of_sum? {total sum : Number} {parts : List Part} (htotal : total.IsNonneg)
    (h : sum? total parts = some sum) : sum.IsNonneg := by
  induction parts generalizing total with
  | nil => exact Option.some.inj h ▸ htotal
  | cons part rest ih =>
      rw [sum?] at h
      split at h
      · rename_i value hvalue
        exact ih (htotal.add (isNonneg_of_value? hvalue)) h
      · cases h

/-- A text with units stands for no negative number. -/
theorem isNonneg_of_parseDuration {s : String} {n : Number} (h : parseDuration s = some n) :
    n.IsNonneg := by
  have hzero : (0 : Number) = .finite (0 : Nat) := by decide +kernel
  unfold parseDuration at h
  dsimp only at h
  split at h
  · cases h
  · obtain ⟨parts, -, hsum⟩ := Option.bind_eq_some_iff.1 h
    exact isNonneg_of_sum? (hzero ▸ Number.isNonneg_finite 0) hsum

/-! ## Seconds and nanoseconds -/

/-- Counts whose milliseconds are too many for a finite number: those of the seconds and those of
the nanoseconds, each rounded to the nearest number, add up to the threshold or more. -/
def Overflows (seconds nanos : Nat) : Prop :=
  overflowThreshold ≤
    roundQuotient (seconds * 1000 * unitsPerOne) 1 + roundQuotient (nanos * unitsPerOne) 1000000

end Duration

namespace Schema

open Checked

/-- The milliseconds of two counts are a finite amount exactly if they do not overflow. -/
theorem milliseconds_whole (seconds nanos : Nat) :
    ((milliseconds (.whole seconds) (.whole nanos)).IsAmount ↔
        ¬ Duration.Overflows seconds nanos) ∧
      (Duration.Overflows seconds nanos →
        milliseconds (.whole seconds) (.whole nanos) = .infinite false) := by
  have hthousand : (1000 : Number) = .whole 1000 := by decide +kernel
  have hmillion : (1000000 : Number) = .whole 1000000 := by decide +kernel
  have hvalue : milliseconds (.whole seconds) (.whole nanos) =
      .ofQuotient ((seconds * 1000 * unitsPerOne : Nat) : Int) 1 +
        .ofQuotient ((nanos * unitsPerOne : Nat) : Int) 1000000 := by
    rw [milliseconds, hthousand, hmillion, Number.whole_mul_whole,
      Number.whole_div_whole nanos (by decide), Number.ofNat, Number.ofInt, ← Int.natCast_mul]
  rw [hvalue, Number.ofQuotient_add_ofQuotient Nat.one_pos (by decide)]
  by_cases hover : Duration.Overflows seconds nanos
  · rw [if_neg (Nat.not_lt.2 hover)]
    exact ⟨⟨fun h => absurd h (Number.not_isAmount_infinite false), fun h => absurd hover h⟩,
      fun _ => rfl⟩
  · rw [if_pos (Nat.not_le.1 hover)]
    exact ⟨⟨fun _ => hover, fun _ => ⟨_, rfl⟩⟩, fun h => absurd h hover⟩

/-- A number that passes the tests of a count is a natural number. -/
theorem exists_of_countTests {n : Number} (h : countTests n = []) : ∃ k : Nat, n = .whole k := by
  have hzero : (0 : Number) = .finite 0 := by decide +kernel
  obtain ⟨hwhole, hbelow⟩ : n.isInteger = true ∧ n.lt (.finite 0) = false := by
    simpa [countTests, hzero] using h
  cases n with
  | notANumber => cases hwhole
  | infinite negative => cases hwhole
  | finite units =>
      have hpositive : (0 : Int) < unitsPerOne := by exact_mod_cast Number.unitsPerOne_pos
      simp only [Number.isInteger, Number.toInt?, Option.isSome_ite] at hwhole
      simp only [Number.lt, decide_eq_false_iff_not, Int.not_lt] at hbelow
      obtain ⟨k, rfl⟩ := Int.dvd_of_emod_eq_zero hwhole
      have hk : 0 ≤ k := Int.nonneg_of_mul_nonneg_right hbelow hpositive
      exact ⟨k.toNat, by rw [Number.whole, Int.toNat_of_nonneg hk, Int.mul_comm]⟩

end Schema

/-! ## Notations -/

namespace Document

/-- A document is a record of seconds and nanoseconds; where the nanoseconds are missing there are
none. -/
structure HasCounts (d : Document) (seconds nanos : Nat) : Prop where
  seconds : d.field? "secs" = some (.number (.whole seconds))
  nanos : d.field? "nanos" = some (.number (.whole nanos)) ∨ d.field? "nanos" = none ∧ nanos = 0

/-- What a document says about the delay of its rule. -/
def ruleDelay? (d : Document) : Option Document := (d.field? "actions").bind (field? "delay")

/-- The document of a rule asks for a delay of counts whose milliseconds are too many. -/
def DelayOverflows (d : Document) : Prop :=
  ∃ part seconds nanos, d.ruleDelay? = some part ∧ part.HasCounts seconds nanos ∧
    Duration.Overflows seconds nanos

/-- A record has one count of each kind. -/
theorem HasCounts.unique {d : Document} {seconds seconds' nanos nanos' : Nat}
    (h : d.HasCounts seconds nanos) (h' : d.HasCounts seconds' nanos') :
    seconds = seconds' ∧ nanos = nanos' := by
  have hseconds : seconds = seconds' := by
    have hsame := Option.some.inj (h.seconds.symm.trans h'.seconds)
    exact Number.whole_inj.1 (Document.number.inj hsame)
  refine ⟨hseconds, ?_⟩
  rcases h.nanos with hnanos | ⟨hnone, rfl⟩
  · rcases h'.nanos with hnanos' | ⟨hnone', rfl⟩
    · have hsame := Option.some.inj (hnanos.symm.trans hnanos')
      exact Number.whole_inj.1 (Document.number.inj hsame)
    · rw [hnanos] at hnone'
      cases hnone'
  · rcases h'.nanos with hnanos' | ⟨-, rfl⟩
    · rw [hnone] at hnanos'
      cases hnanos'
    · rfl

/-- The notations of a delay, with what they stand for. -/
inductive StandsForDelay : Document → Number → Prop
  | number (n : Number) (h : n.IsAmount) : StandsForDelay (.number n) n
  | text (s : String) (n : Number) (hparse : parseDuration s = some n) (h : n.IsAmount) :
      StandsForDelay (.text s) n
  | counts (d : Document) (seconds nanos : Nat) (h : d.HasCounts seconds nanos) :
      StandsForDelay d (Schema.milliseconds (.whole seconds) (.whole nanos))

end Document

namespace Schema

open Checked

/-- A number that passes the tests of an amount is one. -/
theorem isAmount_of_amountTests {n : Number} (h : amountTests n = []) : n.IsAmount := by
  have hzero : (0 : Number) = .finite 0 := by decide +kernel
  obtain ⟨hbelow, hfinite⟩ : n.lt (.finite 0) = false ∧ n.isFinite = true := by
    simpa [amountTests, hzero] using h
  exact Number.isAmount_of_not_lt hfinite hbelow

/-- A text that is accepted as a duration is a finite amount. -/
theorem exists_of_durationText {d : Document} {n : Number}
    (h : durationText (some d) = accepted n) :
    ∃ s, d = .text s ∧ parseDuration s = some n ∧ n.IsAmount := by
  unfold durationText at h
  split at h
  · rename_i s hs
    obtain rfl := Option.some.inj (text_eq_accepted_iff.1 hs)
    split at h
    · rename_i ms hms
      obtain rfl : ms = n := by simpa using h
      obtain ⟨hparse, hfinite⟩ := Option.filter_eq_some_iff.1 hms
      refine ⟨s, rfl, hparse, ?_⟩
      rcases Duration.isNonneg_of_parseDuration hparse with hamount | rfl
      · exact hamount
      · cases hfinite
    · cases h
  · cases h

/-- A record that is accepted as a duration has two counts, and stands for what they come to. -/
theorem exists_of_durationRecord {d : Document} {n : Number}
    (h : durationRecord (some d) = accepted n) :
    ∃ seconds nanos, d.HasCounts seconds nanos ∧
      n = milliseconds (.whole seconds) (.whole nanos) := by
  obtain ⟨fields, hfields, hread⟩ := record_eq_accepted_iff.1 h
  obtain rfl := Option.some.inj hfields
  obtain ⟨⟨first, second⟩, hboth, rfl⟩ := reading_eq_accepted_iff.1 hread
  obtain ⟨hfirst, hsecond⟩ := both_eq_accepted_iff.1 hboth
  obtain ⟨hsecs, -, htests⟩ := number_eq_accepted_iff.1 (field_eq_accepted_iff.1 hfirst)
  obtain ⟨seconds, rfl⟩ := exists_of_countTests htests
  rw [field_eq_accepted_iff] at hsecond
  unfold countOrZero at hsecond
  split at hsecond
  · rename_i hnone
    have hzero : (0 : Number) = .whole 0 := by decide +kernel
    obtain rfl : (0 : Number) = second := by simpa using hsecond
    exact ⟨seconds, 0, ⟨hsecs, .inr ⟨hnone, rfl⟩⟩, by rw [hzero]⟩
  · rename_i part hpart
    obtain ⟨hnanos, -, htests'⟩ := number_eq_accepted_iff.1 hsecond
    obtain ⟨nanos, rfl⟩ := exists_of_countTests htests'
    exact ⟨seconds, nanos, ⟨hsecs, .inl (hpart.trans hnanos)⟩, rfl⟩

/-- What is accepted as a duration is in one of its notations. -/
theorem standsForDelay_of_duration {d : Document} {n : Number}
    (h : duration (some d) = accepted n) : d.StandsForDelay n := by
  rw [duration, firstOf_eq_accepted_iff] at h
  obtain ⟨check, hcheck, hvalue⟩ := List.exists_of_findSome?_eq_some h
  rw [value?_eq_some_iff] at hvalue
  simp only [List.mem_cons, List.not_mem_nil, or_false] at hcheck
  rcases hcheck with rfl | rfl | rfl
  · obtain ⟨hnumber, -, htests⟩ := number_eq_accepted_iff.1 hvalue
    obtain rfl := Option.some.inj hnumber
    exact .number n (isAmount_of_amountTests htests)
  · obtain ⟨s, rfl, hparse, hamount⟩ := exists_of_durationText hvalue
    exact .text s n hparse hamount
  · obtain ⟨seconds, nanos, hcounts, rfl⟩ := exists_of_durationRecord hvalue
    exact .counts d seconds nanos hcounts

end Schema

/-! ## Rules -/

/-- The delay of a rule is a finite amount, or it is infinite where the document of the rule asks
for counts that overflow. -/
structure Rule.HasDelayOf (rule : Rule) (d : Document) : Prop where
  isAmount_iff : (∀ delay ∈ rule.actions.delay, delay.IsAmount) ↔ ¬ d.DelayOverflows
  eq_of_overflows : d.DelayOverflows → rule.actions.delay = some (.infinite false)

/-- A rule without a delay has the delay of a document that says nothing about one. -/
theorem Rule.hasDelayOf_none {rule : Rule} {d : Document} (hrule : rule.actions.delay = none)
    (hd : ∀ part, d.ruleDelay? = some part → part = .null) : rule.HasDelayOf d := by
  have hnot : ¬ d.DelayOverflows := by
    rintro ⟨part, seconds, nanos, hpart, hcounts, -⟩
    obtain rfl := hd part hpart
    cases hcounts.seconds
  refine ⟨⟨fun _ => hnot, fun _ delay hdelay => ?_⟩, fun h => absurd h hnot⟩
  rw [hrule] at hdelay
  cases hdelay

/-- A rule has the delay that its document stands for. -/
theorem Rule.hasDelayOf_some {rule : Rule} {d part : Document} {delay : Number}
    (hrule : rule.actions.delay = some delay) (hd : d.ruleDelay? = some part)
    (hstands : part.StandsForDelay delay) : rule.HasDelayOf d := by
  have hforall : (∀ other ∈ rule.actions.delay, other.IsAmount) ↔ delay.IsAmount := by
    simp [hrule]
  have hsame : ∀ other, d.ruleDelay? = some other → other = part := fun other hother =>
    Option.some.inj (hother.symm.trans hd)
  -- A number and a text have no counts.
  have hplain : delay.IsAmount → (∀ seconds nanos, ¬ part.HasCounts seconds nanos) →
      rule.HasDelayOf d := by
    intro hamount hcounts
    have hnot : ¬ d.DelayOverflows := by
      rintro ⟨other, seconds, nanos, hother, hhas, -⟩
      exact hcounts seconds nanos (hsame other hother ▸ hhas)
    exact ⟨⟨fun _ => hnot, fun _ => hforall.2 hamount⟩, fun h => absurd h hnot⟩
  cases hstands with
  | number n hamount => exact hplain hamount fun _ _ h => nomatch h.seconds
  | text s n hparse hamount => exact hplain hamount fun _ _ h => nomatch h.seconds
  | counts d' seconds nanos hcounts =>
      obtain ⟨hamount, hinfinite⟩ := Schema.milliseconds_whole seconds nanos
      have hover : d.DelayOverflows ↔ Duration.Overflows seconds nanos := by
        constructor
        · rintro ⟨other, seconds', nanos', hother, hhas, hover⟩
          obtain ⟨rfl, rfl⟩ := hcounts.unique (hsame other hother ▸ hhas)
          exact hover
        · intro hover
          exact ⟨part, seconds, nanos, hd, hcounts, hover⟩
      exact ⟨hforall.trans (hamount.trans (not_congr hover).symm),
        fun h => hrule.trans (congrArg some (hinfinite (hover.1 h)))⟩

/-- The delay of a rule that is read from a document. -/
theorem Rule.hasDelayOf_of_isReadFrom {rule : Rule} {index : Nat} {d : Document}
    (h : rule.IsReadFrom index d) : rule.HasDelayOf d := by
  obtain ⟨draft, hdraft, rfl⟩ := h.read
  obtain ⟨fields, hfields, given, applies, selected, done, -, -, -, hdone, rfl⟩ :=
    Schema.rule_eq_accepted_iff.1 hdraft
  obtain rfl := Option.some.inj hfields
  have hfield : (Document.record fields).field? "actions" = Record.get? "actions" fields := rfl
  rcases Checked.cases_of_optional hdone with ⟨hmissing, rfl⟩ | ⟨a, found, ha, hfound, rfl⟩
  · refine Rule.hasDelayOf_none rfl fun part hpart => ?_
    rw [Document.ruleDelay?, hfield] at hpart
    rcases hmissing with hnone | hnull
    · rw [hnone] at hpart
      cases hpart
    · rw [hnull] at hpart
      cases hpart
  · obtain ⟨parts, hparts, abort, delay, append, replace, -, hdelay, -, -, rfl⟩ :=
      Schema.actions_eq_accepted_iff.1 hfound
    obtain rfl := Option.some.inj hparts
    have hpart : (Document.record fields).ruleDelay? = Record.get? "delay" parts := by
      rw [Document.ruleDelay?, hfield, ha]
      rfl
    rcases Checked.cases_of_optional hdelay with ⟨hmissing, rfl⟩ | ⟨part, n, hn, hread, rfl⟩
    · refine Rule.hasDelayOf_none rfl fun part hsome => ?_
      rw [hpart] at hsome
      rcases hmissing with hnone | hnull
      · rw [hnone] at hsome
        cases hsome
      · rw [hnull] at hsome
        exact (Option.some.inj hsome).symm
    · exact Rule.hasDelayOf_some rfl (hpart.trans hn) (Schema.standsForDelay_of_duration hread)

/-! ## Configurations -/

/-- Each rule of a configuration stands at the place of its document, and its delay is absent or a
finite amount exactly unless the document asks for counts that overflow. -/
theorem Config.hasDelayOf {document : Option Document} {file : Option String} {config : Config}
    (h : ofDocument document file = .ok config) :
    config.rules.length = (Document.rules document).length ∧
      ∀ (index : Nat) (rule : Rule) (d : Document), config.rules[index]? = some rule →
        (Document.rules document)[index]? = some d → rule.HasDelayOf d := by
  have hrules := Schema.hasRulesOf_of_config (Schema.ofDocument_eq_ok_iff.1 h)
  refine ⟨hrules.length_eq, fun index rule d hrule hd => ?_⟩
  exact Rule.hasDelayOf_of_isReadFrom (hrules.isReadFrom index rule d hrule hd)

/-- A document with a rule for requests for each of some delays. -/
def Document.delaying (delays : List Document) : Document :=
  .record [("rules", .list (delays.map fun delay =>
    .record [("target", .text "request"), ("actions", .record [("delay", delay)])]))]

/-- Seconds that are a number whose milliseconds are none. -/
def Document.longDelay : Document := .record [("secs", .number (.ofDecimal false 1 306))]

/-- Of a number, a text and two records of counts, only the record that overflows gives its rule an
infinite delay. -/
theorem Config.hasDelayOf_notations :
    let delays : List Document := [.number 250, .text "1m 30s",
      .record [("secs", .number 2), ("nanos", .number 500000)], Document.longDelay]
    let rule (index : Nat) (delay : Number) : Rule :=
      ⟨Schema.positionName index, .request, {}, { delay := some delay }⟩
    let config : Config := ⟨defaultListenPort, [],
      [rule 0 250, rule 1 90000, rule 2 (2000 + 1 / 2), rule 3 (.infinite false)]⟩
    let document := Document.delaying delays
    ofDocument (some document) none = .ok config ∧
      ∀ (index : Nat) (rule : Rule) (d : Document), config.rules[index]? = some rule →
        (Document.rules (some document))[index]? = some d → rule.HasDelayOf d := by
  intro delays rule config document
  have hconfig : ofDocument (some document) none = .ok config := by decide +kernel
  exact ⟨hconfig, (hasDelayOf hconfig).2⟩

/-- Seconds are accepted whose milliseconds are no finite number. -/
theorem Config.not_forall_delay_isAmount :
    ¬ ∀ (document : Option Document) (file : Option String) (config : Config),
      ofDocument document file = .ok config →
        ∀ rule ∈ config.rules, ∀ delay ∈ rule.actions.delay, delay.IsAmount := by
  intro h
  let rule : Rule := ⟨"rule-0", .request, {}, { delay := some (.infinite false) }⟩
  have hamount : (Number.infinite false).IsAmount :=
    h (some (Document.delaying [Document.longDelay])) none ⟨defaultListenPort, [], [rule]⟩
      (by decide +kernel) rule (List.mem_singleton.2 rfl) _ rfl
  exact Number.not_isAmount_infinite false hamount

end FaultInjection
