import FaultInjection.Config.Issue
import FaultInjection.Rule

/-!
# Configuration - Rules with ports

A configuration is a list of rules, the port on which messages are taken in, and
the destination ports whose messages the rules are for.  It is read from a
document, which usually comes from a file; a fault says why there is none.

Main definitions:

- `Config`, and `Config.rulesFor`, the rules for a destination port.
- `ConfigFault`, why there is no configuration, and `ConfigFault.message`.
-/

namespace FaultInjection

/-- Rules with ports. -/
structure Config where
  listenPort : Number
  /-- The destination ports that the rules are for; an empty list stands for all ports. -/
  proxyPorts : List Number
  rules : List Rule
  deriving DecidableEq, Repr

namespace Config

/-- The port on which messages are taken in unless another one is given. -/
def defaultListenPort : Number := 58080

/-- Whether the rules are for a destination port. -/
def coversPort (config : Config) (port : Number) : Bool :=
  config.proxyPorts.isEmpty || config.proxyPorts.any (·.same port)

/-- The rules for a destination port. -/
def rulesFor (config : Config) (port : Number) : List Rule :=
  if config.coversPort port then config.rules else []

end Config

/-! ## Faults -/

/-- Why there is no configuration. -/
inductive ConfigFault.Reason where
  | unreadable (detail : String)
  | unparsable (detail : String)
  | unknownExtension (extension : String)
  | invalid (issues : List Issue)
  deriving DecidableEq, Repr

/-- Why there is no configuration, and in which file. -/
structure ConfigFault where
  file : Option String := none
  reason : ConfigFault.Reason
  deriving DecidableEq, Repr

namespace ConfigFault

/-- The reason in words. -/
def Reason.text : Reason → String
  | unreadable detail => "cannot read: " ++ detail
  | unparsable detail => "cannot parse: " ++ detail
  | unknownExtension extension =>
    "invalid file extension \"" ++ extension ++ "\" (expected .json, .yaml or .yml)"
  | invalid issues => Issue.texts issues

/-- Words about a file; a file without name is not mentioned. -/
def describe (words : String) (file : Option String) : String :=
  match file with
  | some file => if file = "" then words else file ++ ": " ++ words
  | none => words

/-- The message of a fault. -/
def message (fault : ConfigFault) : String := describe fault.reason.text fault.file

end ConfigFault

end FaultInjection
