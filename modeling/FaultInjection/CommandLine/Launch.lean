import FaultInjection.CommandLine.Arguments
import FaultInjection.CommandLine.Option
import FaultInjection.Proxy
import FaultInjection.Text.LeadingInteger

/-!
# Command line - Launches

The program loads its rules, takes connections for the proxy and, where that is asked
for, for the administration.  It gives up as soon as one of these fails.  A signal to
end closes all places and stops the watcher.

Main definitions:

- `CommandLine.Launch`, with `CommandLine.launch`, what becomes of a call of the
  program.
- `CommandLine.Running.handleSignal`, what becomes of a signal.
-/

namespace FaultInjection

namespace CommandLine

/-! ## States of the program -/

/-- A program that takes connections. -/
structure Running where
  /-- Where connections are taken, the place of the proxy first. -/
  places : List Place
  proxy : Proxy

/-- Whether the program goes on. -/
inductive Status where
  | exited (code : Nat)
  | running (state : Running)

/-- What has become of a call of the program. -/
structure Launch where
  threshold : Log.Level
  /-- What was written. -/
  lines : List Log.Line := []
  status : Status

namespace Launch

/-- The launch with lines written before its own. -/
def after (l : Launch) (lines : List Log.Line) : Launch := { l with lines := lines ++ l.lines }

/-- The launch that exits with a code after a text on the error stream. -/
def exit (threshold : Log.Level) (code : Nat) (texts : List String) : Launch := {
  threshold
  lines := texts.map (Log.Line.ofText .errors)
  status := .exited code }

end Launch

/-! ## Texts -/

/-- A line of the output stream. -/
def say (text : String) : Log.Line := .ofText .output text

/-- The lines about a configuration that was loaded. -/
def loadedLines (path : String) (config : Config) : List Log.Line :=
  [say ("\n  " ++ programName),
    say ("  Loaded " ++ Nat.repr config.rules.length ++ " rule(s) from " ++ path)] ++
    if config.proxyPorts.isEmpty then []
    else
      [say ("  Intercepting destination ports: " ++
        String.intercalate ", " (config.proxyPorts.map Number.text))]

/-- The texts about a place where connections cannot be taken. -/
def listenFaultTexts (configPath : String) (port : Number) (fault : ListenFault) : List String :=
  if fault.isInUse then
    ["\n  ✗ Port " ++ port.text ++ " is already in use.",
      "    Try: " ++ programName ++ " " ++ configPath ++ " -p " ++ (port + 1).text ++ "\n"]
  else ["  ✗ Failed to start: " ++ fault.message]

/-- The line about the place of the proxy. -/
def proxyLine (place : Place) : Log.Line :=
  say ("  Proxy running on http://" ++ place.host ++ ":" ++ place.port.text)

/-- The line about the place of the administration. -/
def adminLine (port : String) : Log.Line :=
  say ("  API server on http://" ++ localHost ++ ":" ++ port)

/-- The line about how to end the program. -/
def readyLine : Log.Line := say "  Press Ctrl+C to stop.\n"

/-! ## Launches -/

/-- An option's value that is not empty. -/
def present (value : Option String) : Option String := value.filter (· ≠ "")

/-- The port of the proxy: that of the option, or else that of the configuration. -/
def proxyPort (settings : Settings) (config : Config) : Number :=
  ((present settings.port).map leadingInteger).getD config.listenPort

/-- The launch that takes connections for the administration, after those for the proxy. -/
def launchAdmin (threshold : Log.Level) (refusal : Option ListenFault) (settings : Settings)
    (configPath : String) (place : Place) (proxy : Proxy) : Launch :=
  match present settings.apiPort with
  | none => { threshold, lines := [readyLine], status := .running ⟨[place], proxy⟩ }
  | some text =>
    let port := leadingInteger text
    match listen refusal port with
    | .error fault => .exit threshold 1 (listenFaultTexts configPath place.port fault)
    | .ok _ =>
      { threshold
        lines := [adminLine text, readyLine]
        status := .running ⟨[place, ⟨localHost, port⟩], proxy⟩ }

/-- The launch that takes connections for the proxy. -/
def launchProxy (threshold : Log.Level) (refusal : Option ListenFault) (settings : Settings)
    (configPath : String) (source : RuleSource) (config : Config) : Launch :=
  let place : Place := ⟨settings.host, proxyPort settings config⟩
  match listen refusal place.port with
  | .error fault => .exit threshold 1 (listenFaultTexts configPath place.port fault)
  | .ok taken =>
    let (history, _) := ({} : History).setRunning true (some taken)
    (launchAdmin threshold refusal settings configPath place { source, history }).after
      [proxyLine place]

/-- The launch with given settings. -/
def launchWith (files : Files) (directory : String) (threshold : Log.Level)
    (refusal : Option ListenFault) (settings : Settings) (configPath : String) : Launch :=
  let threshold := if settings.verbose then .debug else threshold
  let load := (RuleSource.ofPath directory configPath).start files settings.watch
  match load.result with
  | .error fault => .exit threshold 1 ["\n  ✗ " ++ fault.message ++ "\n"]
  | .ok config =>
    (launchProxy threshold refusal settings configPath load.source config).after
      (loadedLines load.source.path config)

/-- What becomes of a call of the program from a directory, given how the system answers to
attempts to take connections. -/
def launch (files : Files) (directory : String) (threshold : Log.Level)
    (refusal : Option ListenFault) (arguments : List String) : Launch :=
  match parse arguments with
  | .error fault => .exit threshold 1 [fault.message ++ "\n"]
  | .ok .help => { threshold, lines := [say usage], status := .exited 0 }
  | .ok (.run settings configPath) =>
    launchWith files directory threshold refusal settings configPath

/-! ## Signals -/

/-- What has become of a signal. -/
structure SignalOutcome where
  /-- The code with which the program exits, if it does. -/
  code : Option Nat := none
  lines : List Log.Line := []
  /-- For each place whether it was closed. -/
  closed : List Bool
  proxy : Proxy

/-- The signals that end the program. -/
def endingSignals : List String := ["SIGINT", "SIGTERM"]

/-- What becomes of a signal. -/
def Running.handleSignal (r : Running) (signal : String) : SignalOutcome :=
  if endingSignals.contains signal then
    { code := some 0
      lines := [say "\n  Shutting down..."]
      closed := r.places.map fun _ => true
      proxy := { r.proxy with source := r.proxy.source.stop } }
  else { closed := r.places.map fun _ => false, proxy := r.proxy }

end CommandLine

end FaultInjection
