import FaultInjection.Text.Pieces

/-!
# Files - Texts by path

Rules are read from files.  A file that is not there cannot be read, and the
reason names its path.

A path is a text of components between slashes.  Its extension is that of its
last component and starts with the last dot there; a component that starts with
its only dot has none, and neither has the step to the parent.

Main definitions:

- `Files`, with `Files.read`, `Files.write` and `Files.remove`.
- `Path.absolute`, a path seen from a directory, without steps that cancel out.
- `Path.extension`, the extension of a path.
-/

namespace FaultInjection

/-- The texts of files by path. -/
abbrev Files := List (String × String)

namespace Files

/-- Why a file that is not there cannot be read. -/
def missingText (path : String) : String :=
  "ENOENT: no such file or directory, open '" ++ path ++ "'"

/-- The text of a file, or why it cannot be read. -/
def read (files : Files) (path : String) : Except String String :=
  match files.find? (·.1 == path) with
  | some (_, content) => .ok content
  | none => .error (missingText path)

/-- The files without one. -/
def remove (files : Files) (path : String) : Files := files.filter (·.1 != path)

/-- The files with one written. -/
def write (files : Files) (path content : String) : Files := (path, content) :: files.remove path

end Files

/-! ## Paths -/

namespace Path

/-- The components of a path that are not empty. -/
def components (path : String) : List (List Char) :=
  (piecesAt '/' path.toList).filter (!·.isEmpty)

/-- The components reached by a step, the last one first. -/
def follow (reached : List (List Char)) (component : List Char) : List (List Char) :=
  if component = ['.'] then reached
  else if component = ['.', '.'] then reached.drop 1
  else component :: reached

/-- The absolute path of components. -/
def ofComponents (cs : List (List Char)) : String := String.ofList ('/' :: joinWith '/' cs)

/-- A path seen from a directory, as an absolute path without steps that cancel out. -/
def absolute (directory path : String) : String :=
  let all := match path.toList with
    | '/' :: _ => components path
    | _ => components directory ++ components path
  ofComponents (all.foldl follow []).reverse

/-- The extension of a component, with its dot. -/
def extensionOf (component : List Char) : List Char :=
  let tail := (component.reverse.takeWhile (· ≠ '.')).reverse
  let stem := component.take (component.length - tail.length - 1)
  if !component.contains '.' || stem.isEmpty || component = ['.', '.'] then []
  else '.' :: tail

/-- The extension of a path, empty where there is none. -/
def extension (path : String) : String :=
  String.ofList (extensionOf ((components path).getLast?.getD []))

end Path

end FaultInjection
