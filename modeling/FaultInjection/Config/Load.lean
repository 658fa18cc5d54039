import FaultInjection.Config.Schema
import FaultInjection.Document.Json
import FaultInjection.Document.Yaml
import FaultInjection.Files
import FaultInjection.Text.LetterCase

/-!
# Configuration - Files

A configuration is read from a file in one of two notations, chosen by the
extension of its path in any letter case.  The file is read before its extension
is looked at, so that a missing file is reported as missing.

Main definitions:

- `Config.Notation`, and `Config.Notation.ofExtension?`.
- `Config.load`, the configuration that a file holds.
-/

namespace FaultInjection

namespace Config

/-- A notation of documents. -/
inductive Notation where
  | json
  | yaml
  deriving DecidableEq, Repr

namespace Notation

/-- The notation of an extension in lower case. -/
def ofExtension? : String → Option Notation
  | ".json" => some json
  | ".yaml" | ".yml" => some yaml
  | _ => none

/-- The document that a text in a notation stands for. -/
def read? : Notation → String → Option Document
  | json, s => Document.ofJson? s
  | yaml, s => Document.ofYaml? s

/-- The detail of a text that is not in a notation. -/
def faultText : Notation → String
  | json => "the text is not in the JSON notation"
  | yaml => "the text is not in the YAML notation"

end Notation

/-- The document that the text of a file stands for, by its extension. -/
def decode (extension content : String) : Except ConfigFault.Reason Document :=
  match Notation.ofExtension? extension with
  | none => .error (.unknownExtension extension)
  | some format =>
    match format.read? content with
    | some document => .ok document
    | none => .error (.unparsable format.faultText)

/-- The configuration that the text of a file stands for. -/
def ofText (path content : String) : Except ConfigFault Config :=
  match decode (lowerCase (Path.extension path)) content with
  | .ok document => ofDocument (some document) (some path)
  | .error reason => .error ⟨some path, reason⟩

/-- The configuration that a file holds. -/
def load (files : Files) (path : String) : Except ConfigFault Config :=
  match files.read path with
  | .ok content => ofText path content
  | .error detail => .error ⟨some path, .unreadable detail⟩

end Config

end FaultInjection
