import FaultInjection.Listening
import FaultInjection.Text.Encoding

/-!
# Command line - Options

An option has a long name, and mostly a letter too; some options take a value.  What
the options say is gathered in settings, in which a later option counts more than an
earlier one of its kind.  The usage of the program is shown in a table with a column for
what can be written and a column for what it is for; the first column is as wide as its
widest entry.

An option that is not known may be a slip of the pen.  The names suggested for it are
those at the least edit distance, if that is three at most and more than two fifths
of the longer text stay as they are.  The distance of two lists is the least count of
edits that make one of the other: an item is inserted, deleted or replaced, or two
neighbours are swapped, and no stretch is edited twice.  It is read off a table with a
row for each start of the first list and a column for each start of the second.

Main definitions:

- `CommandLine.Key`, the options.
- `CommandLine.Settings`, and `CommandLine.Settings.set`.
- `CommandLine.usage`, the lines that are shown.
- `editDistance`, the distance of two lists.
- `CommandLine.suggestion`, what is suggested for a name.
-/

namespace FaultInjection

namespace CommandLine

/-- An option. -/
inductive Key where
  | port
  | host
  | apiPort
  | noWatch
  | verbose
  deriving DecidableEq, Repr

namespace Key

/-- The options in the order in which they are listed. -/
def all : List Key := [port, host, apiPort, noWatch, verbose]

/-- The letter of an option. -/
def letter? : Key → Option Char
  | port => some 'p'
  | host => some 'H'
  | apiPort => some 'a'
  | noWatch => none
  | verbose => some 'v'

/-- The long name of an option, without its hyphens. -/
def name : Key → String
  | port => "port"
  | host => "host"
  | apiPort => "api-port"
  | noWatch => "no-watch"
  | verbose => "verbose"

/-- What the value of an option is called, if it takes one. -/
def valueName? : Key → Option String
  | port => some "number"
  | host => some "address"
  | apiPort => some "number"
  | noWatch => none
  | verbose => none

/-- Whether an option takes a value. -/
def takesValue (key : Key) : Bool := key.valueName?.isSome

/-- What an option is for. -/
def summary : Key → String
  | port => "Listen port (overrides listen_port)"
  | host => "Listen address (default: \"" ++ localHost ++ "\")"
  | apiPort => "Start the admin API on this port"
  | noWatch => "Do not reload rules when the file changes"
  | verbose => "Log every applied action"

/-- How an option is written. -/
def form (key : Key) : String :=
  ((key.letter?.map fun c => "-" ++ c.toString ++ ", ").getD "") ++ "--" ++ key.name ++
    ((key.valueName?.map fun value => " <" ++ value ++ ">").getD "")

/-- The option of a letter. -/
def ofLetter? (c : Char) : Option Key := all.find? (·.letter? == some c)

/-- The option of a long name. -/
def ofName? (name : List Char) : Option Key := all.find? (·.name.toList == name)

/-- The option that an argument is, without a value in the same argument. -/
def ofArgument? : List Char → Option Key
  | '-' :: '-' :: name => ofName? name
  | ['-', c] => ofLetter? c
  | _ => none

end Key

/-- What the options say. -/
structure Settings where
  port : Option String := none
  host : String := localHost
  apiPort : Option String := none
  watch : Bool := true
  verbose : Bool := false
  deriving DecidableEq, Repr

/-- The settings after one more option; the value does not count for an option that takes none. -/
def Settings.set (s : Settings) (key : Key) (value : String) : Settings :=
  match key with
  | .port => { s with port := some value }
  | .host => { s with host := value }
  | .apiPort => { s with apiPort := some value }
  | .noWatch => { s with watch := false }
  | .verbose => { s with verbose := true }

/-! ## Usage -/

/-- What the program is called. -/
def programName : String := "fault-proxy"

/-- What the program is for. -/
def programSummary : String :=
  "HTTP proxy that delays, rewrites or aborts traffic matching declarative rules"

/-- Something that can be written, with what it is for. -/
abbrev UsageEntry := String × String

/-- The operands. -/
def operandEntries : List UsageEntry := [("config", "Rule file (.json, .yaml or .yml)")]

/-- The options, with the one that asks for help. -/
def optionEntries : List UsageEntry :=
  Key.all.map (fun key => (key.form, key.summary)) ++ [("-h, --help", "display help for command")]

/-- The width of the column of what can be written. -/
def entryWidth : Nat :=
  (operandEntries ++ optionEntries).foldl (fun width entry => max width entry.1.length) 0

/-- A text filled with blanks to a width. -/
def filled (width : Nat) (s : String) : String :=
  s ++ String.ofList (List.replicate (width - s.length) ' ')

/-- The line of an entry. -/
def entryLine (entry : UsageEntry) : String := "  " ++ filled entryWidth entry.1 ++ "  " ++ entry.2

/-- The lines of the usage of the program. -/
def usageLines : List String :=
  ["Usage: " ++ programName ++ " [options] <config>", "", programSummary, "", "Arguments:"] ++
    operandEntries.map entryLine ++ ["", "Options:"] ++ optionEntries.map entryLine

/-- The usage of the program. -/
def usage : String := String.join (usageLines.map (· ++ "\n"))

end CommandLine

/-! ## Edit distance -/

section EditDistance

variable {α : Type} [DecidableEq α]

namespace EditDistance

/-- The cells of a row behind its first one.  The row belongs to the item `c`, which follows
`before`; `item` is the last item of the second list passed, `diagonal` and `left` are the cells
next to the cell in question, and the lists hold the rest of the second list, of the row above
and of the row above that one, two columns behind. -/
def cells (c : α) (before item : Option α) (diagonal left : Nat) :
    List α → List Nat → List Nat → List Nat
  | b :: bs, up :: ups, swapped :: rest =>
    let plain := min (min (up + 1) (left + 1)) (diagonal + if c = b then 0 else 1)
    let cell := if before = some b ∧ item = some c then min plain (swapped + 1) else plain
    cell :: cells c before (some b) up cell bs ups rest
  | _, _, _ => []

/-- The row of an item behind `before`, under two rows. -/
def nextRow (c : α) (before : Option α) (bs : List α) (twoUp up : List Nat) : List Nat :=
  let first := up.headD 0
  (first + 1) :: cells c before none first (first + 1) bs up.tail (0 :: twoUp)

/-- The last row of the table, under two rows. -/
def lastRow (before : Option α) (bs : List α) (twoUp up : List Nat) : List α → List Nat
  | [] => up
  | c :: rest => lastRow (some c) bs up (nextRow c before bs twoUp up) rest

/-- The row of the empty start. -/
def firstRow (bs : List α) : List Nat := List.range (bs.length + 1)

end EditDistance

/-- The least count of edits that make one list of the other. -/
def editDistance (xs ys : List α) : Nat :=
  (EditDistance.lastRow none ys (EditDistance.firstRow ys) (EditDistance.firstRow ys) xs).getLastD 0

end EditDistance

/-! ## Suggestions -/

namespace CommandLine

/-- The greatest distance of a name that is suggested. -/
def greatestDistance : Nat := 3

/-- The long names that can be suggested, in alphabetical order. -/
def suggestible : List String := ["api-port", "help", "host", "no-watch", "port", "verbose"]

/-- The distance of a name from a candidate, if the candidate is close enough. -/
def closeness? (name candidate : List Nat) : Option Nat :=
  let longer := max name.length candidate.length
  if greatestDistance < longer - min name.length candidate.length then none
  else
    let distance := editDistance name candidate
    if distance ≤ greatestDistance && 2 * longer < 5 * (longer - distance) then some distance
    else none

/-- The candidates for a name that are close enough, with their distances. -/
def candidates (name : String) : List (String × Nat) :=
  suggestible.filterMap fun candidate =>
    (closeness? (utf16Units name) (utf16Units candidate)).map (candidate, ·)

/-- The long names suggested for a name, those at the least distance. -/
def suggested (name : String) : List String :=
  let all := candidates name
  (all.filter fun (_, distance) => all.all fun (_, other) => distance ≤ other).map Prod.fst

/-- The words of a suggestion for an argument; only a long name is worth one. -/
def suggestion (argument : List Char) : String :=
  match argument with
  | '-' :: '-' :: name =>
    match (suggested (String.ofList name)).map ("--" ++ ·) with
    | [] => ""
    | [one] => "\n(Did you mean " ++ one ++ "?)"
    | several => "\n(Did you mean one of " ++ String.intercalate ", " several ++ "?)"
  | _ => ""

end CommandLine

end FaultInjection
