import FaultInjection.Exchange.Transition
import FaultInjection.RuleSource

/-!
# Proxies - Exchanges side by side

A proxy runs any number of exchanges.  They share a rule source, of which each takes
the configuration in force when its request arrives, and a history, in which each
writes to its own entry.

Main definitions:

- `Proxy`, with `Proxy.arrive` and `Proxy.deliver`.

Main results:

- `Proxy.exchange?_arrive`: an arrival leaves the other exchanges as they are.
-/

namespace FaultInjection

/-- A rule source, a history and exchanges. -/
structure Proxy where
  source : RuleSource
  history : History := {}
  /-- The exchanges, in the order of their starts. -/
  exchanges : List Exchange := []

namespace Proxy

/-- The exchange of a number. -/
def exchange? (p : Proxy) (id : Nat) : Option Exchange := p.exchanges.find? (·.id == id)

/-- What the history becomes by an effect of the exchange of a number. -/
def record (id : Nat) (h : History) : Exchange.Effect → History
  | .amend update => (h.amend (.whole id) update).1
  | .close outcome update => (h.close (.whole id) outcome update).1
  | .countRule side => h.countRule side
  | _ => h

/-- The proxy after effects of the exchange of a number. -/
def recordAll (p : Proxy) (id : Nat) (effects : List Exchange.Effect) : Proxy :=
  { p with history := effects.foldl (record id) p.history }

/-- The entry of an exchange at its start. -/
def entryOf (id : Nat) (now : Number) (arrival : Arrival) : History.Entry := {
  id := .whole id
  method := arrival.methodText
  url := arrival.targetText
  timestamp := now }

/-- The proxy after a request has arrived, the number of its exchange and what it asks for. -/
def arrive [Domain.Mapping] (p : Proxy) (now : Number) (arrival : Arrival) (client : Client) :
    Proxy × Nat × List Exchange.Effect :=
  let (id, issued) := p.history.issueId
  let (history, _) := issued.record (entryOf id now arrival)
  let (x, effects) := Exchange.start id now p.source.current arrival client
  ({ p with history, exchanges := p.exchanges ++ [x] }.recordAll id effects, id, effects)

/-- The proxy after an event of the exchange of a number, and what the exchange asks for. -/
def deliver (p : Proxy) (now : Number) (id : Nat) (event : Exchange.Event) :
    Proxy × List Exchange.Effect :=
  match p.exchange? id with
  | none => (p, [])
  | some x =>
    let (next, effects) := x.next now event
    let exchanges := p.exchanges.map fun other => if other.id == id then next else other
    ({ p with exchanges }.recordAll id effects, effects)

/-- An arrival leaves the other exchanges as they are. -/
theorem exchange?_arrive [Domain.Mapping] (p : Proxy) (now : Number) (arrival : Arrival)
    (client : Client) (id : Nat) (x : Exchange) (h : p.exchange? id = some x) :
    (p.arrive now arrival client).1.exchange? id = some x := by
  simp only [exchange?] at h
  simp [arrive, exchange?, recordAll, h]

end Proxy

end FaultInjection
