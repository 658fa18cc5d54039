import FaultInjection.Framing
import FaultInjection.Proofs.HeaderRecord

/-!
# Framing - Heads that frame a body

The head of a message frames a body when it has no transfer encoding, and either
exactly the length of the body or no length for no body.  Framed headers do so for
every body; besides the framing, they are the headers of before in their order.

Main definitions:

- `Framing.FramesBody`, for fields that are sent, and `Headers.FramesBody`, for a
  header list.
- `Headers.passedOn`, the pairs of framed headers one by one.
- `Headers.exactLength?` and `Headers.Frames`, what framed headers are without their order.

Main results:

- `Headers.framesBody_toRecord_iff`: the two agree.
- `Headers.framesBody_framed`: framed headers frame their body.
- `Headers.framed_eq_passedOn`: which pairs framed headers are.
- `Headers.frames_framed`: one length that is exact or none, and all other headers.
- `Headers.Frames.contentLength_toRecord`: the same of the fields that are sent.
-/

namespace FaultInjection

open HeaderRecord

namespace Framing

/-- Fields that are sent frame a body. -/
def FramesBody (fields : Record Value) (body : Bytes) : Prop :=
  fields.get? transferEncoding = none ∧
    (fields.get? contentLength = some (.single (Nat.repr body.length)) ∨
      fields.get? contentLength = none ∧ body = [])

instance (fields : Record Value) (body : Bytes) : Decidable (FramesBody fields body) :=
  inferInstanceAs (Decidable (_ ∧ (_ ∨ _ ∧ _)))

end Framing

namespace Headers

open Framing

/-- A header list frames a body. -/
def FramesBody (h : Headers) (body : Bytes) : Prop :=
  h.getAll transferEncoding = [] ∧
    (h.getAll contentLength = [Nat.repr body.length] ∨ h.getAll contentLength = [] ∧ body = [])

theorem isPlain_contentLength : isPlain contentLength = true := by
  decide +kernel

theorem isPlain_transferEncoding : isPlain transferEncoding = true := by
  decide +kernel

/-- The fields that are sent for headers frame a body exactly when the headers do. -/
theorem framesBody_toRecord_iff (h : Headers) (body : Bytes) :
    Framing.FramesBody h.toRecord body ↔ h.FramesBody body := by
  simp only [Framing.FramesBody, FramesBody, get?_toRecord h isPlain_contentLength,
    get?_toRecord h isPlain_transferEncoding, Value.ofValues?_eq_none_iff,
    Value.ofValues?_eq_single_iff]

/-- Framed headers frame their body. -/
theorem framesBody_framed (h : Headers) (body : Bytes) :
    (h.framed body.length).FramesBody body := by
  refine ⟨h.getAll_framed_transferEncoding body.length, ?_⟩
  rw [h.getAll_framed_contentLength body.length]
  by_cases hframed : (h.isFramed || decide (0 < body.length)) = true
  · exact .inl (if_pos hframed)
  · have hempty : body = [] := by
      simp only [Bool.or_eq_true, decide_eq_true_eq, not_or, Nat.not_lt, Nat.le_zero] at hframed
      exact List.length_eq_zero_iff.1 hframed.2
    exact .inr ⟨if_neg hframed, hempty⟩

/-- Headers for the next neighbour alone are of no account for the frame of a body. -/
theorem framesBody_erase_neighbourConnection (h : Headers) (body : Bytes) :
    (h.erase neighbourConnection).FramesBody body ↔ h.FramesBody body := by
  have hlength : sameName neighbourConnection contentLength = false := by decide
  have hencoding : sameName neighbourConnection transferEncoding = false := by decide
  simp [FramesBody, getAll_erase, hlength, hencoding]

/-- The headers of a response with a body frame it, unless they pass as they came and do not
frame it themselves. -/
theorem framesBody_responseHeaders_iff (method : String) {status : Number} (h : Headers)
    (body : Bytes) (replaced : Bool) (hstatus : isBodilessStatus status = false) :
    (responseHeaders method status h body replaced).FramesBody body ↔
      method ≠ "HEAD" ∨ replaced = true ∨ h.FramesBody body := by
  have hbodiless : isBodiless method status = (method == "HEAD") := by simp [isBodiless, hstatus]
  by_cases hmethod : method = "HEAD"
  · subst hmethod
    cases replaced with
    | true => simp [responseHeaders, framesBody_framed]
    | false =>
        simp [responseHeaders, hbodiless, framesBody_erase_neighbourConnection]
  · simp [responseHeaders, hbodiless, hmethod, framesBody_framed]

/-! ## Pairs that are passed on -/

/-- Whether a name is that of a header that frames a body or is for the next neighbour. -/
def isReplaced (name : String) : Bool :=
  sameName name transferEncoding || sameName name neighbourConnection ||
    sameName name contentLength

/-- The pairs of before in their order, without those that frame a body and those for the next
neighbour, and behind them the length of a body that was framed or is there. -/
def passedOn (h : Headers) (length : Nat) : Headers where
  toList := (h.toList.filter fun pair => !isReplaced pair.1) ++
    if h.contains contentLength || h.contains transferEncoding || 0 < length then
      [(contentLength, Nat.repr length)]
    else []

/-- The pairs that are left are those whose names are not replaced. -/
theorem toList_erase_withoutNeighbours (h : Headers) :
    (h.withoutNeighbours.erase contentLength).toList =
      h.toList.filter fun pair => !isReplaced pair.1 := by
  simp only [withoutNeighbours, erase, isReplaced, List.filter_filter, Bool.not_or]
  refine List.filter_congr fun pair _ => ?_
  rw [Bool.and_comm, Bool.and_comm (!sameName pair.1 neighbourConnection)]

/-- Without a header of a name there is nothing to erase. -/
theorem erase_of_not_contains {h : Headers} {name : String} (hname : h.contains name = false) :
    h.erase name = h := by
  have hall : ∀ pair ∈ h.toList, (!sameName pair.1 name) = true := by
    simpa [contains] using hname
  rw [erase, List.filter_eq_self.2 hall]

/-- Framed headers are the pairs that are passed on. -/
theorem framed_eq_passedOn (h : Headers) (length : Nat) : h.framed length = h.passedOn length := by
  unfold framed passedOn isFramed
  rw [← toList_erase_withoutNeighbours]
  split
  · rfl
  · rename_i hframed
    have hnone : h.contains contentLength = false := by
      simp only [Bool.or_eq_true, not_or, Bool.not_eq_true] at hframed
      exact hframed.1.1
    have hless : h.withoutNeighbours.contains contentLength = false := by
      simp only [contains, List.any_eq_false] at hnone ⊢
      intro pair hpair
      exact hnone pair (List.mem_filter.1 (List.mem_filter.1 hpair).1).1
    rw [erase_of_not_contains hless, List.append_nil]

/-! ## One length and all other headers -/

/-- The length that a body is sent with: the exact one, where the headers framed a body in any way
or there is one. -/
def exactLength? (h : Headers) (body : Bytes) : Option String :=
  if h.contains contentLength || h.contains transferEncoding || 0 < body.length then
    some (Nat.repr body.length)
  else none

/-- Headers that are sent for others with a body: its exact length is all that frames it, and the
others are kept in their order. -/
structure Frames (sent h : Headers) (body : Bytes) : Prop where
  noEncoding : sent.getAll transferEncoding = []
  noNeighbour : sent.getAll neighbourConnection = []
  length : sent.getAll contentLength = (h.exactLength? body).toList
  others : (sent.toList.filter fun pair => !isReplaced pair.1) =
    h.toList.filter fun pair => !isReplaced pair.1

/-- Headers that are passed on keep those that are not replaced. -/
theorem others_passedOn (h : Headers) (length : Nat) :
    ((h.passedOn length).toList.filter fun pair => !isReplaced pair.1) =
      h.toList.filter fun pair => !isReplaced pair.1 := by
  have hself : isReplaced contentLength = true := by simp [isReplaced, sameName]
  have htail : ((if h.contains contentLength || h.contains transferEncoding || 0 < length then
      [(contentLength, Nat.repr length)] else []).filter fun pair => !isReplaced pair.1) = [] := by
    split <;> simp [hself]
  simp only [passedOn, List.filter_append, List.filter_filter, Bool.and_self, htail,
    List.append_nil]

/-- Framed headers are sent for those of before. -/
theorem frames_framed (h : Headers) (body : Bytes) : (h.framed body.length).Frames h body := by
  constructor
  · exact h.getAll_framed_transferEncoding body.length
  · exact h.getAll_framed_neighbourConnection body.length
  · rw [getAll_framed_contentLength, exactLength?, isFramed]
    split <;> rfl
  · rw [framed_eq_passedOn]
    exact others_passedOn h body.length

section Fields

variable {sent h : Headers} {body : Bytes}

/-- No transfer encoding is among the fields that are sent. -/
theorem Frames.transferEncoding_toRecord (hframes : sent.Frames h body) :
    sent.toRecord.get? transferEncoding = none := by
  rw [get?_toRecord sent isPlain_transferEncoding, hframes.noEncoding]
  rfl

/-- No header for the next neighbour is among the fields that are sent. -/
theorem Frames.neighbourConnection_toRecord (hframes : sent.Frames h body) :
    sent.toRecord.get? neighbourConnection = none := by
  have hplain : isPlain neighbourConnection = true := by decide +kernel
  rw [get?_toRecord sent hplain, hframes.noNeighbour]
  rfl

/-- The exact length, where there is one, is a single value among the fields that are sent. -/
theorem Frames.contentLength_toRecord (hframes : sent.Frames h body) :
    sent.toRecord.get? contentLength = (h.exactLength? body).map .single := by
  rw [get?_toRecord sent isPlain_contentLength, hframes.length]
  cases h.exactLength? body <;> rfl

end Fields

end Headers

end FaultInjection
