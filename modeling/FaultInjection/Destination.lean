import FaultInjection.Host
import FaultInjection.Target.Parameters

/-!
# Destinations - Where a request goes

A request goes to the authority of its target, or else to the host that a header
names.  An authority may start with user information, which does not count, and
end with a port; the host is a domain name or an address.  Rules play no part in
the choice.

Main definitions:

- `Destination`, and `Destination.parse?`, the destination that an authority
  names.
- `Destination.ofRequest?`, the destination of a target with a host header.
-/

namespace FaultInjection

/-- A host and a port. -/
structure Destination where
  host : String
  port : Nat
  deriving DecidableEq, Repr

namespace Destination

/-- The port where none is named. -/
def defaultPort : Nat := 80

/-- Whether a character is removed at the end of an authority. -/
def isTrimmed (c : Char) : Bool := c.toNat ≤ 0x20

/-- Whether a character is left out wherever it stands. -/
def isOmitted (c : Char) : Bool := c == '\t' || c == '\n' || c == '\r'

/-- Whether a character ends an authority. -/
def endsAuthority (c : Char) : Bool := c == '/' || c == '\\' || c == '?' || c == '#'

/-- Whether a character stands for the slashes before an authority. -/
def isSlash (c : Char) : Bool := c == '/' || c == '\\'

/-- The part of a text that names a host and port, with user information. -/
def authority (s : String) : List Char :=
  let trimmed := (s.toList.reverse.dropWhile isTrimmed).reverse
  ((trimmed.filter (!isOmitted ·)).dropWhile isSlash).takeWhile (!endsAuthority ·)

/-- The authority without user information. -/
def withoutUser (cs : List Char) : List Char := (cs.reverse.takeWhile (· ≠ '@')).reverse

/-- The host of an authority and what follows the colon behind it, if there is one; a colon
within brackets belongs to the host. -/
def cutPort (inBrackets : Bool) : List Char → List Char × Option (List Char)
  | [] => ([], none)
  | c :: rest =>
    if c = ':' && !inBrackets then ([], some rest)
    else
      let next := if c = '[' then true else if c = ']' then false else inBrackets
      let (host, port) := cutPort next rest
      (c :: host, port)

/-- The port that digits name; without digits it is the usual one. -/
def port? (digits : List Char) : Option Nat :=
  if !digits.all (fun c => '0' ≤ c && c ≤ '9') then none
  else if digits.isEmpty then some defaultPort
  else (Ipv4.digitsValue? 10 0 digits).filter (· < 65536)

/-- The bytes of a text in which a percent sign with two hexadecimal digits is a byte. -/
def percentBytes : List Char → Bytes
  | [] => []
  | '%' :: a :: b :: rest =>
    match Parameters.hexDigit? a, Parameters.hexDigit? b with
    | some high, some low => UInt8.ofNat (high * 16 + low) :: percentBytes rest
    | _, _ => Utf8.encode ['%'] ++ percentBytes (a :: b :: rest)
  | c :: rest => Utf8.encode [c] ++ percentBytes rest

variable [Domain.Mapping]

/-- The host in its usual form: an address, or a domain name. -/
def host? (cs : List Char) : Option String :=
  match cs with
  | [] => none
  | '[' :: rest =>
    if rest.getLast? = some ']' then (Ipv6.parse? rest.dropLast).map Ipv6.text else none
  | cs => do
    let name ← Domain.normal? (Utf8.decodeLossy (percentBytes cs))
    if Ipv4.endsInNumber name then (Ipv4.parse? name).map Ipv4.text
    else return String.ofList name

/-- The destination that an authority names. -/
def parse? (s : String) : Option Destination := do
  let (host, port) := cutPort false (withoutUser (authority s))
  return ⟨← host? host, ← port? (port.getD [])⟩

/-- The destination of a target with a host header; an empty text names none. -/
def ofRequest? (target : Target) (hostHeader : Option String) : Option Destination := do
  let name ← target.authority.orElse fun _ => hostHeader
  if name = "" then none else parse? name

end Destination

end FaultInjection
