import FaultInjection.CommandLine.Option
import FaultInjection.Text.Pieces

/-!
# Command line - Arguments

Arguments are options and operands.  A group of letters behind one hyphen is a group
of options, of which the first that takes a value takes the rest of the group; a long
name can have its value behind an equals sign.  Two hyphens alone end the options.

An option that is not known makes strangers of all operands behind it.  Among the
strangers help can be asked for; otherwise the first of them is a fault, and so is an
option without its value and a missing operand.  Operands beyond the first do not
count.

Main definitions:

- `CommandLine.Command`, and `CommandLine.parse`, the command that arguments stand
  for.
- `CommandLine.UsageFault`, with `CommandLine.UsageFault.message`.
-/

namespace FaultInjection

namespace CommandLine

/-- Why arguments are no command. -/
inductive UsageFault where
  | missingValue (key : Key)
  | unknownOption (argument : String)
  | missingConfig
  deriving DecidableEq, Repr

/-- The message of a fault. -/
def UsageFault.message : UsageFault → String
  | missingValue key => "error: option '" ++ key.form ++ "' argument missing"
  | unknownOption argument =>
    "error: unknown option '" ++ argument ++ "'" ++ suggestion argument.toList
  | missingConfig => "error: missing required argument 'config'"

/-- What was read of arguments so far. -/
structure Reading where
  settings : Settings := {}
  operands : List String := []
  /-- An option that is not known, and the arguments behind it that are not options. -/
  strangers : List String := []
  deriving Repr

namespace Reading

/-- Whether an argument looks like an option. -/
def isOption : List Char → Bool
  | '-' :: _ :: _ => true
  | _ => false

/-- The reading with one more option. -/
def set (r : Reading) (key : Key) (value : List Char) : Reading :=
  { r with settings := r.settings.set key (String.ofList value) }

/-- The reading with arguments that are no options of its own. -/
def add (r : Reading) (arguments : List String) : Reading :=
  if r.strangers.isEmpty then { r with operands := r.operands ++ arguments }
  else { r with strangers := r.strangers ++ arguments }

/-- The reading with an argument that is no known option. -/
def addOther (r : Reading) (argument : List Char) : Reading :=
  if isOption argument then { r with strangers := r.strangers ++ [String.ofList argument] }
  else r.add [String.ofList argument]

/-- The reading at two hyphens, with the arguments behind them. -/
def addRest (r : Reading) (arguments : List (List Char)) : Reading :=
  let texts := arguments.map String.ofList
  r.add (if r.strangers.isEmpty then texts else "--" :: texts)

end Reading

/-- The first option of a group of letters, and the letters behind it. -/
def groupHead? : List Char → Option (Key × List Char)
  | '-' :: c :: d :: rest =>
    if c = '-' then none else (Key.ofLetter? c).map (·, d :: rest)
  | _ => none

/-- The option that takes a value, and the value, of a long name with an equals sign. -/
def assignment? : List Char → Option (Key × List Char)
  | '-' :: '-' :: rest =>
    match cutAtFirst '=' rest with
    | (name, some value) => ((Key.ofName? name).filter Key.takesValue).map (·, value)
    | _ => none
  | _ => none

/-- The letters behind the first option of a group are fewer than those of the group. -/
theorem length_of_groupHead? {argument rest : List Char} {key : Key}
    (h : groupHead? argument = some (key, rest)) : rest.length + 2 = argument.length := by
  unfold groupHead? at h
  split at h
  · split at h
    · simp at h
    · simp only [Option.map_eq_some_iff, Prod.mk.injEq] at h
      obtain ⟨_, _, _, rfl⟩ := h
      simp
  · simp at h

/-- The count of characters in arguments, with one more for each argument. -/
def totalLength : List (List Char) → Nat
  | [] => 0
  | argument :: rest => argument.length + 1 + totalLength rest

/-- What is read of arguments. -/
def read (r : Reading) : List (List Char) → Except UsageFault Reading
  | [] => .ok r
  | argument :: rest =>
    if argument = ['-', '-'] then .ok (r.addRest rest)
    else
      match Key.ofArgument? argument with
      | some key =>
        if key.takesValue then
          match rest with
          | [] => .error (.missingValue key)
          | value :: rest => read (r.set key value) rest
        else read (r.set key []) rest
      | none =>
        match h : groupHead? argument with
        | some (key, letters) =>
          have := length_of_groupHead? h
          if key.takesValue then read (r.set key letters) rest
          else read (r.set key []) (('-' :: letters) :: rest)
        | none =>
          match assignment? argument with
          | some (key, value) => read (r.set key value) rest
          | none => read (r.addOther argument) rest
termination_by arguments => totalLength arguments
decreasing_by all_goals simp only [totalLength, List.length_cons]; omega

/-- What is asked for. -/
inductive Command where
  | help
  | run (settings : Settings) (config : String)
  deriving Repr

/-- The arguments that ask for help. -/
def helpArguments : List String := ["-h", "--help"]

/-- The command that was read. -/
def Reading.command (r : Reading) : Except UsageFault Command :=
  if r.strangers.any helpArguments.contains then .ok .help
  else
    match r.strangers, r.operands with
    | argument :: _, _ => .error (.unknownOption argument)
    | [], [] => .error .missingConfig
    | [], config :: _ => .ok (.run r.settings config)

/-- The command that arguments stand for. -/
def parse (arguments : List String) : Except UsageFault Command := do
  (← read {} (arguments.map String.toList)).command

end CommandLine

end FaultInjection
