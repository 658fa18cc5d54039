import FaultInjection.Trial

/-!
# Trials - What becomes of a verdict

A verdict that is carried out adds to a failure of its own only what becomes of its delay,
which can be cancelled or still run, and it changes the trial only by its entries and by the
timers of its delay.

Main results:

- `Trial.carryOut_pass`: a message that passes leaves the trial as it is.
- `Trial.carryOut_ofRule`: the verdict of a rule is that of its actions, after what is
  logged about the match.
- `Trial.carryOut_eq_result_or_halt`: a verdict ends in its result, in the cause of a
  cancellation, or not yet.
- `Trial.carryOut_eq_target_iff`: which verdicts end in an ill-formed target.
-/

namespace FaultInjection

namespace Trial

variable {α : Type} (plan : Cancellation) (threshold : Log.Level) (t : Trial)

/-- Without entries nothing is logged. -/
@[simp] theorem logged_nil : t.logged threshold [] = t := by
  simp [logged]

/-- A message that passes leaves the trial as it is. -/
theorem carryOut_pass (message : α) :
    t.carryOut plan threshold (.pass message) = (t, .ok message) := by
  simp [carryOut, Verdict.pass]

/-- The verdict of a rule is carried out as that of its actions, once the match is logged. -/
theorem carryOut_ofRule {verdict : Verdict α} (hsilent : verdict.notices = []) (rule : Rule)
    (words : String) :
    t.carryOut plan threshold (.ofRule rule words verdict) =
      (t.logged threshold (Verdict.ofRule rule words verdict).notices).carryOut plan threshold
        verdict := by
  simp only [carryOut, Verdict.ofRule, hsilent, logged_nil]

/-- A message that is held back is released, or the cancellation of its delay gives the cause, or
it is still held back. -/
theorem hold_eq_ok_or_cause_or_waiting (time : Number) (message : α) :
    (t.hold plan time message).2 = .ok message ∨
      (∃ cause, (t.hold plan time message).2 = .error (.failed (.cause cause))) ∨
      (t.hold plan time message).2 = .error .waiting := by
  unfold hold
  dsimp only
  split
  · exact .inl rfl
  · exact .inr (.inl ⟨_, rfl⟩)
  · exact .inr (.inr rfl)

/-- A verdict ends in its result, unless its delay is cancelled or has not ended while a changed
message is held back. -/
theorem carryOut_eq_result_or_halt (verdict : Verdict α) :
    (t.carryOut plan threshold verdict).2 = verdict.result.mapError .failed ∨
      verdict.delay.isSome = true ∧ (∃ message, verdict.result = .ok message) ∧
        ((∃ cause, (t.carryOut plan threshold verdict).2 = .error (.failed (.cause cause))) ∨
          (t.carryOut plan threshold verdict).2 = .error .waiting) := by
  unfold carryOut
  dsimp only
  cases hresult : verdict.result with
  | error failure => exact .inl rfl
  | ok message =>
      cases hdelay : verdict.delay with
      | none => exact .inl rfl
      | some time =>
          have hheld := hold_eq_ok_or_cause_or_waiting plan (t.logged threshold verdict.notices)
            time message
          rcases hout : (t.logged threshold verdict.notices).hold plan time message with ⟨u, held⟩
          simp only [hout] at hheld ⊢
          rcases hheld with rfl | ⟨cause, rfl⟩ | rfl
          · exact .inl rfl
          · exact .inr ⟨rfl, ⟨message, rfl⟩, .inl ⟨cause, rfl⟩⟩
          · exact .inr ⟨rfl, ⟨message, rfl⟩, .inr rfl⟩

/-- A message comes out of a verdict as its result. -/
theorem result_of_carryOut {verdict : Verdict α} {message : α}
    (h : (t.carryOut plan threshold verdict).2 = .ok message) : verdict.result = .ok message := by
  rcases carryOut_eq_result_or_halt plan threshold t verdict with
    hsame | ⟨-, -, ⟨cause, hcause⟩ | hwaiting⟩
  · cases hresult : verdict.result with
    | error failure =>
        rw [hsame, hresult] at h
        cases h
    | ok other =>
        rw [hsame, hresult] at h
        exact congrArg Except.ok (Except.ok.inj h)
  · rw [hcause] at h
    cases h
  · rw [hwaiting] at h
    cases h

/-- A verdict ends in an ill-formed target exactly where its result is one: a delay gives no other
failure than the cause of its cancellation. -/
theorem carryOut_eq_target_iff {verdict : Verdict α} {fault : TargetFault} :
    (t.carryOut plan threshold verdict).2 = .error (.failed (.target fault)) ↔
      verdict.result = .error (.target fault) := by
  rcases carryOut_eq_result_or_halt plan threshold t verdict with
    hsame | ⟨-, ⟨message, hmessage⟩, ⟨cause, hcause⟩ | hwaiting⟩
  · rw [hsame]
    cases verdict.result with
    | error failure =>
        change Except.error (Halt.failed failure) = .error (.failed (.target fault)) ↔ _
        simp
    | ok message =>
        change Except.ok message = .error (Halt.failed (.target fault)) ↔ _
        simp
  · simp [hmessage, hcause]
  · simp [hmessage, hwaiting]

/-- The message of a verdict without a delay comes out at once. -/
theorem carryOut_of_delay_eq_none {verdict : Verdict α} {message : α}
    (h : verdict.delay = none) (hresult : verdict.result = .ok message) :
    (t.carryOut plan threshold verdict).2 = .ok message := by
  rcases carryOut_eq_result_or_halt plan threshold t verdict with hsame | ⟨hdelay, -⟩
  · rw [hsame, hresult]
    rfl
  · rw [h] at hdelay
    cases hdelay

end Trial

end FaultInjection
