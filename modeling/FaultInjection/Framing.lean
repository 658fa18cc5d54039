import FaultInjection.Headers
import FaultInjection.Number.Basic
import FaultInjection.Text.Encoding

/-!
# Framing - Where a body ends

Bodies are passed on whole, so a message that was framed in any way, or that has a
body, is framed by the exact length of the body; a message without framing and
without a body stays as it is.  Headers between neighbours are not passed on.

A response that never carries a body describes a resource by its framing headers,
and these pass as they came, unless a rule gave the response a body of its own.

Main definitions:

- `Headers.framed`, the headers of a message with a body of some length.
- `isBodilessStatus` and `isBodiless`, whether a response never carries a body.
- `responseHeaders`, the headers that a response is sent with.

Main results:

- `Headers.getAll_framed_transferEncoding`: a framed message has no transfer
  encoding.
- `Headers.getAll_framed_contentLength`: a framed message has the exact length, or
  no length at all.
-/

namespace FaultInjection

namespace Framing

/-- The name of the header that holds the length of a body. -/
def contentLength : String := "content-length"

/-- The name of the header that says how a body is cut up on its way. -/
def transferEncoding : String := "transfer-encoding"

/-- The name of a header for the next neighbour alone. -/
def neighbourConnection : String := "proxy-connection"

end Framing

namespace Headers

open Framing

/-- Whether headers say in any way where the body ends. -/
def isFramed (h : Headers) : Bool := h.contains contentLength || h.contains transferEncoding

/-- The headers without framing in parts and without those for the next neighbour. -/
def withoutNeighbours (h : Headers) : Headers :=
  (h.erase transferEncoding).erase neighbourConnection

/-- The headers of a message with a body of some length. -/
def framed (h : Headers) (length : Nat) : Headers :=
  if h.isFramed || 0 < length then h.withoutNeighbours.set contentLength [Nat.repr length]
  else h.withoutNeighbours

end Headers

/-- Whether a response with a status never carries a body. -/
def isBodilessStatus (status : Number) : Bool :=
  ((100 : Number).le status && status.lt 200) || status.same 204 || status.same 304

/-- Whether a response to a method never carries a body. -/
def isBodiless (method : String) (status : Number) : Bool :=
  method == "HEAD" || isBodilessStatus status

/-- The headers that a response is sent with, given the method that was forwarded and whether a
rule gave the response its body. -/
def responseHeaders (method : String) (status : Number) (h : Headers) (body : Bytes)
    (bodyReplaced : Bool) : Headers :=
  if isBodiless method status && !bodyReplaced then h.erase Framing.neighbourConnection
  else h.framed body.length

namespace Headers

open Framing

/-! ## Framed headers -/

/-- A framed message has no transfer encoding. -/
theorem getAll_framed_transferEncoding (h : Headers) (length : Nat) :
    (h.framed length).getAll transferEncoding = [] := by
  have hne : sameName contentLength transferEncoding = false := by decide
  have hneighbour : sameName neighbourConnection transferEncoding = false := by decide
  have hself : sameName transferEncoding transferEncoding = true := by simp [sameName]
  unfold framed withoutNeighbours
  split <;> simp [getAll_set, getAll_erase, hne, hneighbour, hself]

/-- A message that is framed has no header for the next neighbour. -/
theorem getAll_framed_neighbourConnection (h : Headers) (length : Nat) :
    (h.framed length).getAll neighbourConnection = [] := by
  have hne : sameName contentLength neighbourConnection = false := by decide
  have hself : sameName neighbourConnection neighbourConnection = true := by simp [sameName]
  unfold framed withoutNeighbours
  split <;> simp [getAll_set, getAll_erase, hne, hself]

/-- A framed message has the exact length, or no length at all where it had no framing and no
body. -/
theorem getAll_framed_contentLength (h : Headers) (length : Nat) :
    (h.framed length).getAll contentLength =
      if h.isFramed || 0 < length then [Nat.repr length] else [] := by
  have hself : sameName contentLength contentLength = true := by simp [sameName]
  have htransfer : sameName transferEncoding contentLength = false := by decide
  have hneighbour : sameName neighbourConnection contentLength = false := by decide
  unfold framed withoutNeighbours
  split
  · simp [getAll_set, hself]
  · rename_i hframed
    simp only [Bool.or_eq_true, not_or] at hframed
    have hnone : h.getAll contentLength = [] := by
      have : ¬ h.contains contentLength = true := fun hc => hframed.1 (by simp [isFramed, hc])
      rw [contains_eq_true_iff] at this
      exact Classical.not_not.1 this
    simp [getAll_erase, hneighbour, htransfer, hnone]

end Headers

end FaultInjection
