import FaultInjection.Proofs.Exchange.Conclusion

/-!
# Exchanges - Where requests go

A request goes where its head leads it, by its target or else by its host header.  Rules and
ports have no say in this; a configuration bears on an exchange only by the rules that it
has for this one destination.

Main definitions:

- `Arrival.destination?`, the destination that the head of a request leads to.

Main results:

- `Exchange.destination_of_takeIn`: a request that is taken in goes there.
- `Exchange.start_congr`: an exchange depends on a configuration by its rules for there alone.
- `Exchange.Course.destination_of_mem_forwards`: whatever the rules, a request that is
  forwarded goes there.
-/

namespace FaultInjection

/-- The destination that the head of a request leads to, by its target or else by its host
header. -/
def Arrival.destination? [Domain.Mapping] (arrival : Arrival) : Option Destination :=
  (Target.parse arrival.targetText).toOption.bind (Destination.ofRequest? · arrival.host?)

namespace Exchange

variable {arrival : Arrival}

/-- A target that can be read leads to a destination, or to none. -/
theorem destination?_of_parse [Domain.Mapping] {target : Target}
    (hparse : Target.parse arrival.targetText = .ok target) :
    arrival.destination? = Destination.ofRequest? target arrival.host? := by
  rw [Arrival.destination?, hparse]
  rfl

/-- A request that is taken in goes where its head leads it. -/
theorem destination_of_takeIn [Domain.Mapping] {rules : Destination → List Rule} {intake : Intake}
    (h : takeIn rules arrival = .ok intake) :
    arrival.destination? = some intake.destination := by
  have hparse := (settled_of_takeIn h).1
  rw [takeIn_of_parse hparse] at h
  rw [destination?_of_parse hparse]
  cases hscheme : foreignScheme? intake.target with
  | some scheme =>
      rw [hscheme] at h
      cases h
  | none =>
      cases hdestination : Destination.ofRequest? intake.target arrival.host? with
      | none =>
          rw [hscheme, hdestination] at h
          cases h
      | some destination =>
          simp only [hscheme, hdestination] at h
          rw [← Except.ok.inj h]

/-- A request is taken in alike under rules that are the same where its head leads it. -/
theorem takeIn_congr [Domain.Mapping] {rules other : Destination → List Rule}
    (h : ∀ destination, arrival.destination? = some destination →
      rules destination = other destination) :
    takeIn rules arrival = takeIn other arrival := by
  cases hparse : Target.parse arrival.targetText with
  | error fault =>
      rw [takeIn, takeIn, hparse]
      rfl
  | ok target =>
      rw [takeIn_of_parse hparse, takeIn_of_parse hparse]
      rw [destination?_of_parse hparse] at h
      cases hdestination : Destination.ofRequest? target arrival.host? with
      | none => rfl
      | some destination => simp only [h destination hdestination]

/-- An exchange starts alike under configurations with the same rules for where it goes. -/
theorem start_congr [Domain.Mapping] {config other : Config}
    (h : ∀ destination, arrival.destination? = some destination →
      rulesFor config destination = rulesFor other destination)
    (id : Nat) (now : Number) (client : Client) :
    start id now (.ok config) arrival client = start id now (.ok other) arrival client := by
  simp only [start, takeIn_congr h]
  cases takeIn (rulesFor other) arrival <;> rfl

namespace Course

/-- An exchange goes alike under configurations with the same rules for where it goes, whatever
comes. -/
theorem run_start_congr [Domain.Mapping] {config other : Config}
    (h : ∀ destination, arrival.destination? = some destination →
      rulesFor config destination = rulesFor other destination)
    (id : Nat) (now : Number) (client : Client) (trace : List (Number × Event)) :
    (start id now (.ok config) arrival client).run trace =
      (start id now (.ok other) arrival client).run trace := by
  rw [start, start, start_congr h]

/-- Whatever the rules are and whatever comes, a request that is forwarded goes where the head of
the request that arrived leads it. -/
theorem destination_of_mem_forwards [Domain.Mapping] {id : Nat} {now : Number} {config : Config}
    {client : Client} {trace : List (Number × Event)} {message : Forwarded}
    (h : message ∈ ((start id now (.ok config) arrival client).run trace).forwards) :
    arrival.destination? = some ⟨message.host, message.port⟩ := by
  rcases forwards_run id now config arrival client trace with
    hnone | ⟨intake, request, htake, hforwarded, -⟩
  · rw [hnone] at h
    cases h
  · rw [hforwarded, List.mem_singleton] at h
    rw [h, destination_of_takeIn htake]
    rfl

end Course

end Exchange

end FaultInjection
