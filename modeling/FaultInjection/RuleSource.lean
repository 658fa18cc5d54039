import FaultInjection.Config.Load
import FaultInjection.Log

/-!
# Rule sources - The configuration in force

A rule source keeps the configuration of a file.  A load that succeeds puts a new
configuration in the place of the old one; a load that fails leaves the old one in
force.  A source can open watchers of its file, and a watcher that is open loads the
file anew when the file appears or changes; what fails then is reported and does not
fail the watcher.  Opening another watcher does not close the one before it.

Main definitions:

- `RuleSource`, with `RuleSource.current`, `RuleSource.reload`, `RuleSource.start`,
  `RuleSource.stop` and `RuleSource.fileEvent`.
- `RuleSource.Notice`, what listeners are told.

Main results:

- `RuleSource.config_reload_ok` and `RuleSource.reload_error`: a load that succeeds
  puts its configuration in force, and one that fails changes nothing.
- `RuleSource.fileEvent_closed`: a watcher that is closed does nothing.
-/

namespace FaultInjection

/-- The configuration of a file, with watchers of the file. -/
structure RuleSource where
  path : String
  /-- The configuration in force, from the last load that succeeded. -/
  config : Option Config := none
  /-- How many watchers were ever opened. -/
  opened : Nat := 0
  /-- The watchers that are open. -/
  watchers : List Nat := []
  /-- The watcher that was opened last and not stopped. -/
  watcher : Option Nat := none
  deriving Repr

namespace RuleSource

/-- What listeners are told. -/
inductive Notice where
  /-- A configuration with some count of rules was put in force. -/
  | changed (rules : Nat)
  | reloadFailed (fault : ConfigFault)
  deriving DecidableEq, Repr

/-- What can happen to a file. -/
inductive FileEvent where
  | appeared
  | changed
  | other
  deriving DecidableEq, Repr

/-- The source of a path, seen from a directory. -/
def ofPath (directory path : String) : RuleSource := { path := Path.absolute directory path }

/-- Why there is no configuration before the first load. -/
def notStartedText : String := "RuleLoader.start() has not been called"

/-- The configuration in force. -/
def current (s : RuleSource) : Except String Config :=
  match s.config with
  | some config => .ok config
  | none => .error notStartedText

/-- Whether the watcher opened last is still watching. -/
def isWatching (s : RuleSource) : Bool := s.watcher.isSome

/-! ## Loads -/

/-- What became of a load: the source, what listeners are told, and the configuration. -/
structure Load where
  source : RuleSource
  notices : List Notice := []
  result : Except ConfigFault Config

/-- A load of the file. -/
def reload (s : RuleSource) (files : Files) : Load :=
  match Config.load files s.path with
  | .ok config =>
    { source := { s with config := some config }
      notices := [.changed config.rules.length]
      result := .ok config }
  | .error fault => { source := s, result := .error fault }

/-- The source with one more watcher. -/
def openWatcher (s : RuleSource) : RuleSource :=
  { s with opened := s.opened + 1, watchers := s.watchers ++ [s.opened], watcher := some s.opened }

/-- A load of the file that, if it succeeds, opens a watcher where one is wanted. -/
def start (s : RuleSource) (files : Files) (watch : Bool) : Load :=
  let load := s.reload files
  match load.result with
  | .ok _ => if watch then { load with source := load.source.openWatcher } else load
  | .error _ => load

/-- The source with the watcher opened last closed. -/
def stop (s : RuleSource) : RuleSource :=
  { s with watchers := s.watchers.filter fun w => s.watcher != some w, watcher := none }

/-! ## Watchers -/

/-- What an event of a file gives rise to. -/
structure Reaction where
  source : RuleSource
  notices : List Notice := []
  log : List Log.Entry := []

/-- The scope of log entries about rule sources. -/
def logScope : String := "rule-loader"

/-- What is logged about a load after an event. -/
def loadEntry (s : RuleSource) : Except ConfigFault Config → Log.Entry
  | .ok config => {
      level := .info
      scope := logScope
      message := "Reloaded " ++ Nat.repr config.rules.length ++ " rule(s) from " ++ s.path }
  | .error fault => {
      level := .error
      scope := logScope
      message := "Keeping previous rules: " ++ fault.message }

/-- A load after an event. -/
def reloadQuietly (s : RuleSource) (files : Files) : Reaction :=
  let load := s.reload files
  let failures := match load.result with
    | .ok _ => []
    | .error fault => [.reloadFailed fault]
  { source := load.source
    notices := load.notices ++ failures
    log := [s.loadEntry load.result] }

/-- What a watcher makes of an event of the file. -/
def fileEvent (s : RuleSource) (files : Files) (watcher : Nat) (event : FileEvent) : Reaction :=
  if s.watchers.contains watcher && event != .other then s.reloadQuietly files else { source := s }

/-! ## The configuration in force -/

/-- A load that succeeds puts its configuration in force. -/
theorem config_reload_ok (s : RuleSource) (files : Files) (config : Config)
    (h : Config.load files s.path = .ok config) :
    (s.reload files).source.config = some config := by
  simp [reload, h]

/-- A load that fails changes nothing and tells listeners nothing. -/
theorem reload_error (s : RuleSource) (files : Files) (fault : ConfigFault)
    (h : Config.load files s.path = .error fault) :
    s.reload files = { source := s, result := .error fault } := by
  simp [reload, h]

/-- A watcher that is closed does nothing. -/
theorem fileEvent_closed (s : RuleSource) (files : Files) (watcher : Nat) (event : FileEvent)
    (h : watcher ∉ s.watchers) : s.fileEvent files watcher event = { source := s } := by
  simp [fileEvent, h]

end RuleSource

end FaultInjection
