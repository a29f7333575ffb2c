import FormatAudit.Interpreter.Selection
import FormatAudit.Options

/-!
Suite definitions: the parsers to run, the first of them leading, the versions to run them under, and
the options to pass.
-/

namespace FormatAudit

structure Definition where
  parsers : List ParserName
  versions : VersionRange
  coverage : Coverage
  options : Overrides

namespace Definition

/-- The name of the file that holds the definition of a directory's suite. -/
def fileName : String := "fmtspec.yaml"

def fieldNames : List String := ["parsers", "versions", "coverage", "options"]

end Definition

def Coverage.names : List String := ["any", "all"]

def Coverage.ofName? : String → Option Coverage
  | "any" => some .any
  | "all" => some .all
  | _ => none

def Coverage.name : Coverage → String
  | .any => "any"
  | .all => "all"

end FormatAudit
