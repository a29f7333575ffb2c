import FormatAudit.Definition.Fault
import FormatAudit.SystemError

/-!
Why a suite cannot be set up, or did not succeed.
-/

namespace FormatAudit

inductive SuiteError
  | noParsers (dir : String)
  | io (path : String) (cause : SystemError)
  | definition (path : String) (fault : DefinitionFault)
  | range (error : RangeError)
  | parserName (error : NameError)
  | unitsFailed (failed total : Nat) (summary : String)
  deriving DecidableEq, Repr

def SuiteError.message : SuiteError → String
  | noParsers dir => s!"no parsers were specified for {dir}"
  | io path cause => s!"failed to read {path}: {cause.message}"
  | definition path fault => s!"invalid definition file {path}: {fault.message}"
  | range error => error.message
  | parserName error => error.message
  | unitsFailed failed total summary => s!"{failed} of {total} conformance units failed:\n{summary}"

end FormatAudit
