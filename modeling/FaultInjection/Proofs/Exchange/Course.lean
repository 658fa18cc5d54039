import FaultInjection.Exchange.Transition

/-!
# Exchanges - Courses

A course is one exchange from the arrival of its request on, with what it was told,
what it asked for and when, and the rules whose actions were completed.  It also
keeps apart what it was told after its request had gone out, since only that can be
news of the response.

Main definitions:

- `Exchange.Course`, with `Course.start`, `Course.next` and `Course.run`.
- `Exchange.completed?`, the rule whose actions an event completes.
- `Course.closings` and `Course.forwards`, the ends and the forwarded requests among
  the effects.

Main results:

- `Course.run_induction`: what holds at the start and is kept by each event holds of
  every run.
-/

namespace FaultInjection

namespace Exchange

/-! ## Kinds of effects -/

/-- The outcome and the new values of an effect that ends an exchange. -/
def Effect.closing? : Effect → Option (History.Outcome × History.Update)
  | .close outcome update => some (outcome, update)
  | _ => none

/-- The request that an effect forwards. -/
def Effect.forwarded? : Effect → Option Forwarded
  | .forward message => some message
  | _ => none

/-- The side of the rule that an effect counts. -/
def Effect.counted? : Effect → Option Rule.Side
  | .countRule side => some side
  | _ => none

/-- The ends among effects. -/
def closings (effects : List Effect) : List (History.Outcome × History.Update) :=
  effects.filterMap Effect.closing?

/-- The requests that effects forward. -/
def forwards (effects : List Effect) : List Forwarded := effects.filterMap Effect.forwarded?

/-- The sides of the rules that effects count. -/
def counts (effects : List Effect) : List Rule.Side := effects.filterMap Effect.counted?

@[simp]
theorem closings_nil : closings [] = [] :=
  rfl

@[simp]
theorem forwards_nil : forwards [] = [] :=
  rfl

@[simp]
theorem counts_nil : counts [] = [] :=
  rfl

@[simp]
theorem closings_append (first second : List Effect) :
    closings (first ++ second) = closings first ++ closings second :=
  List.filterMap_append

@[simp]
theorem forwards_append (first second : List Effect) :
    forwards (first ++ second) = forwards first ++ forwards second :=
  List.filterMap_append

@[simp]
theorem counts_append (first second : List Effect) :
    counts (first ++ second) = counts first ++ counts second :=
  List.filterMap_append

@[simp]
theorem closings_cons (effect : Effect) (rest : List Effect) :
    closings (effect :: rest) = effect.closing?.toList ++ closings rest := by
  cases effect <;> rfl

@[simp]
theorem forwards_cons (effect : Effect) (rest : List Effect) :
    forwards (effect :: rest) = effect.forwarded?.toList ++ forwards rest := by
  cases effect <;> rfl

@[simp]
theorem counts_cons (effect : Effect) (rest : List Effect) :
    counts (effect :: rest) = effect.counted?.toList ++ counts rest := by
  cases effect <;> rfl

/-- Log entries end nothing. -/
@[simp]
theorem closings_map_log (entries : List Log.Entry) : closings (entries.map Effect.log) = [] := by
  simp [closings, Effect.closing?]

/-- Log entries forward nothing. -/
@[simp]
theorem forwards_map_log (entries : List Log.Entry) : forwards (entries.map Effect.log) = [] := by
  simp [forwards, Effect.forwarded?]

/-- Log entries count nothing. -/
@[simp]
theorem counts_map_log (entries : List Log.Entry) : counts (entries.map Effect.log) = [] := by
  simp [counts, Effect.counted?]

/-! ## Actions that are completed -/

/-- The rule of a verdict that lets its message go at once. -/
def immediate? {α : Type} (verdict : Verdict α) : Option Rule :=
  match verdict.result, verdict.delay with
  | .ok _, none => verdict.rule
  | _, _ => none

/-- The rule of a message whose delay is over. -/
def released? {α : Type} (held : Held α) : Delay → Option Rule
  | .elapsed => held.rule
  | _ => none

/-- The rule whose actions an event completes without a failure, with its side. -/
def completed? (x : Exchange) (event : Event) : Option (Rule.Side × Rule) :=
  match x.state, event with
  | .active intake (.readingRequest body), .requestEnd =>
    (immediate? (Rule.onRequest intake.rules intake.port (intake.request body))).map
      (.request, ·)
  | .active _ (.holdingRequest held delay), .timerFired =>
    (released? held (delay.next .fired)).map (.request, ·)
  | .active intake (.readingResponse _ status headers body), .responseEnd =>
    (immediate? (Rule.onResponse intake.rules intake.inbound
      ⟨status.getD 502, headers, body⟩)).map (.response, ·)
  | .active _ (.holdingResponse _ held delay), .timerFired =>
    (released? held (delay.next .fired)).map (.response, ·)
  | _, _ => none

/-! ## Courses -/

/-- An exchange with what has happened since its request arrived. -/
structure Course where
  exchange : Exchange
  /-- What it has asked for, with the times. -/
  asked : List (Number × Effect) := []
  /-- What it was told. -/
  told : List Event := []
  /-- What it was told after its request had been forwarded. -/
  replies : List Event := []
  /-- The rules whose actions were completed. -/
  applied : List (Rule.Side × Rule) := []

namespace Course

/-- The ends that a course has asked for. -/
def closings (c : Course) : List (History.Outcome × History.Update) :=
  Exchange.closings (c.asked.map Prod.snd)

/-- The requests that a course has forwarded. -/
def forwards (c : Course) : List Forwarded := Exchange.forwards (c.asked.map Prod.snd)

/-- The course of a request that arrives. -/
def start [Domain.Mapping] (id : Nat) (now : Number) (config : Except String Config)
    (arrival : Arrival) (client : Client) : Course :=
  let (exchange, effects) := Exchange.start id now config arrival client
  { exchange, asked := effects.map (now, ·) }

/-- The course after an event that makes an exchange of its own with some effects. -/
def after (c : Course) (now : Number) (event : Event) (outcome : Outcome) : Course where
  exchange := outcome.1
  asked := c.asked ++ outcome.2.map (now, ·)
  told := c.told ++ [event]
  replies := if c.forwards.isEmpty then [] else c.replies ++ [event]
  applied := c.applied ++ (c.exchange.completed? event).toList

/-- The course after an event. -/
def next (c : Course) (now : Number) (event : Event) : Course :=
  c.after now event (c.exchange.next now event)

/-- The course after events with their times. -/
def run (c : Course) (trace : List (Number × Event)) : Course :=
  trace.foldl (fun c (now, event) => c.next now event) c

@[simp]
theorem run_nil (c : Course) : c.run [] = c :=
  rfl

@[simp]
theorem run_cons (c : Course) (now : Number) (event : Event) (rest : List (Number × Event)) :
    c.run ((now, event) :: rest) = (c.next now event).run rest :=
  rfl

theorem run_append (c : Course) (first second : List (Number × Event)) :
    c.run (first ++ second) = (c.run first).run second :=
  List.foldl_append

/-- A run is told the events of its trace in their order. -/
theorem told_run (c : Course) (trace : List (Number × Event)) :
    (c.run trace).told = c.told ++ trace.map Prod.snd := by
  induction trace generalizing c with
  | nil => simp
  | cons entry rest ih =>
      obtain ⟨now, event⟩ := entry
      simp [ih, next, after]

/-- A run from the arrival of a request is told the events of its trace and no others. -/
theorem told_run_start [Domain.Mapping] (id : Nat) (now : Number) (config : Except String Config)
    (arrival : Arrival) (client : Client) (trace : List (Number × Event)) :
    ((start id now config arrival client).run trace).told = trace.map Prod.snd :=
  told_run ..

/-- What holds of a course and is kept by each event holds after any events. -/
theorem run_induction {motive : Course → Prop} {c : Course} (hstart : motive c)
    (hnext : ∀ c now event, motive c → motive (c.next now event))
    (trace : List (Number × Event)) : motive (c.run trace) := by
  induction trace generalizing c with
  | nil => exact hstart
  | cons entry rest ih =>
      obtain ⟨now, event⟩ := entry
      exact ih (hnext c now event hstart)

/-- The ends among effects that were all asked for at one time. -/
theorem closings_of_asked {c : Course} {now : Number} {effects : List Effect}
    (h : c.asked = effects.map (now, ·)) : c.closings = Exchange.closings effects := by
  simp [closings, h, Function.comp_def]

/-- The requests that effects forward which were all asked for at one time. -/
theorem forwards_of_asked {c : Course} {now : Number} {effects : List Effect}
    (h : c.asked = effects.map (now, ·)) : c.forwards = Exchange.forwards effects := by
  simp [forwards, h, Function.comp_def]

/-! ## One event -/

section After

variable (c : Course) (now : Number) (event : Event) (outcome : Outcome)

@[simp]
theorem exchange_after : (c.after now event outcome).exchange = outcome.1 :=
  rfl

@[simp]
theorem told_after : (c.after now event outcome).told = c.told ++ [event] :=
  rfl

@[simp]
theorem closings_after :
    (c.after now event outcome).closings = c.closings ++ Exchange.closings outcome.2 := by
  simp [closings, after, Function.comp_def]

@[simp]
theorem forwards_after :
    (c.after now event outcome).forwards = c.forwards ++ Exchange.forwards outcome.2 := by
  simp [forwards, after, Function.comp_def]

/-- Before a request has gone out nothing is news of the response. -/
theorem replies_after_nil (h : c.forwards = []) : (c.after now event outcome).replies = [] := by
  simp [after, h]

/-- Once a request has gone out every event can be news of the response. -/
theorem replies_after_of_ne_nil (h : c.forwards ≠ []) :
    (c.after now event outcome).replies = c.replies ++ [event] := by
  simp [after, h]

/-- An event at some stage is a step from that stage. -/
theorem next_of_active {c : Course} {intake : Intake} {stage : Stage}
    (h : c.exchange.state = .active intake stage) :
    c.next now event = c.after now event (c.exchange.nextFrom now intake stage event) := by
  simp [next, Exchange.next, h]

/-- A course whose exchange has ended asks for nothing more. -/
theorem next_of_ended {c : Course} (h : c.exchange.state = .ended) :
    c.next now event = c.after now event (c.exchange, []) := by
  rw [next, next_ended c.exchange now event h]

end After

/-- Once a request has gone out everything that is told can be news of the response. -/
theorem replies_run_of_ne_nil {c : Course} (h : c.forwards ≠ []) (trace : List (Number × Event)) :
    (c.run trace).replies = c.replies ++ trace.map Prod.snd := by
  induction trace generalizing c with
  | nil => simp
  | cons entry rest ih =>
      obtain ⟨now, event⟩ := entry
      have hnext : (c.next now event).forwards ≠ [] := by
        rw [next, forwards_after]
        exact List.append_ne_nil_of_left_ne_nil h _
      rw [run_cons, ih hnext, next, replies_after_of_ne_nil c now event _ h]
      simp

/-! ## Ended exchanges -/

/-- Events after its end change nothing about an exchange and what it has asked for. -/
theorem run_of_ended {c : Course} (h : c.exchange.state = .ended)
    (trace : List (Number × Event)) :
    (c.run trace).exchange = c.exchange ∧ (c.run trace).asked = c.asked := by
  induction trace generalizing c with
  | nil => exact ⟨rfl, rfl⟩
  | cons entry rest ih =>
      obtain ⟨now, event⟩ := entry
      rw [run_cons, next_of_ended now event h]
      have hrest := ih (c := c.after now event (c.exchange, [])) h
      simpa [after] using hrest

end Course

end Exchange

end FaultInjection
