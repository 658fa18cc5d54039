import FaultInjection.CommandLine.Launch

/-!
# Command line - The program

The program takes its arguments, and on its standard input the text of the rule file
that they name.  It writes what a launch writes, and exits with the code of the launch.
-/

namespace FaultInjection

namespace CommandLine

/-- Writes a line to its stream. -/
def writeLine (line : Log.Line) : IO Unit :=
  let text := String.intercalate " " (line.parts.map Document.plainText)
  match line.stream with
  | .output => IO.println text
  | .errors => IO.eprintln text

/-- The text that is left on a stream, behind a text read before. -/
partial def readAll (stream : IO.FS.Stream) (before : String) : IO String := do
  let line ← stream.getLine
  if line.isEmpty then return before else readAll stream (before ++ line)

/-- The files of a call: the one that the arguments name, with the text of a stream. -/
def filesOf (arguments : List String) (stream : IO.FS.Stream) : IO Files := do
  match parse arguments with
  | .ok (.run _ config) =>
    let content ← readAll stream ""
    return Files.write [] (Path.absolute "/" config) content
  | _ => return []

/-- The code with which the program exits. -/
def Launch.exitCode (l : Launch) : Nat :=
  match l.status with
  | .exited code => code
  | .running _ => 0

end CommandLine

end FaultInjection

open FaultInjection.CommandLine in
/-- Writes what a launch with the arguments writes. -/
def main (arguments : List String) : IO UInt32 := do
  let files ← filesOf arguments (← IO.getStdin)
  let result := launch files "/" .info none arguments
  result.lines.forM writeLine
  return UInt32.ofNat result.exitCode
