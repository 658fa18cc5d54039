import FaultInjection.Number.Decimal

/-!
# Listening - Places where connections are taken

Connections are taken at a host and a port.  A port is a whole number below 65536,
and zero stands for any free port.  The system can refuse a place for a reason of its
own.

Main definitions:

- `Place`, and `isPort`, which numbers are ports.
- `ListenFault`, why connections cannot be taken, and `listen`, the port on which they
  are.

Main results:

- `listen_isOk_iff`: connections are taken exactly at a port that is not refused.
-/

namespace FaultInjection

/-- A place where connections are taken. -/
structure Place where
  host : String
  port : Number
  deriving DecidableEq, Repr

/-- The host where connections are taken unless another one is given. -/
def localHost : String := "127.0.0.1"

/-- Why connections cannot be taken at a place. -/
inductive ListenFault where
  | badPort (port : Number)
  /-- The system refuses the place. -/
  | refused (code : Option String) (reason : String)
  deriving DecidableEq, Repr

namespace ListenFault

/-- The message of a fault. -/
def message : ListenFault → String
  | badPort port =>
    "options.port should be >= 0 and < 65536. Received type number (" ++ port.text ++ ")."
  | refused _ reason => reason

/-- The code by which a place is refused that is taken already. -/
def inUseCode : String := "EADDRINUSE"

/-- Whether a place is refused because it is taken already. -/
def isInUse : ListenFault → Bool
  | refused (some code) _ => code == inUseCode
  | _ => false

end ListenFault

/-- Whether a number is a port. -/
def isPort (n : Number) : Bool :=
  match n.toInt? with
  | some i => 0 ≤ i && i < 65536
  | none => false

/-- The port that is taken where any free one will do. -/
def freePort : Number := 40000

/-- The port on which connections are taken, unless the system refuses the place. -/
def listen (refusal : Option ListenFault) (port : Number) : Except ListenFault Number :=
  if !isPort port then .error (.badPort port)
  else
    match refusal with
    | some fault => .error fault
    | none => .ok (if port.same 0 then freePort else port)

/-- Connections are taken exactly at a port that is not refused. -/
theorem listen_isOk_iff (refusal : Option ListenFault) (port : Number) :
    (∃ taken, listen refusal port = .ok taken) ↔ isPort port = true ∧ refusal = none := by
  unfold listen
  cases hport : isPort port <;> cases refusal <;> simp

end FaultInjection
