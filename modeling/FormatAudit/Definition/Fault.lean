import FormatAudit.Definition.Basic
import FormatAudit.Text.Visible

/-!
What is wrong with a definition.
-/

namespace FormatAudit

/-- Why a text is not a definition. It is `malformed` when it does not have the form of one at all. -/
inductive DefinitionFault
  | malformed
  | missingField (name : String)
  | unknownField (name : String)
  | unknownCoverage (name : String)
  | pluginsTwice
  | nullSetting
  | integerTooLarge (value : Int)
  | parserName (error : NameError)
  | range (error : RangeError)
  deriving DecidableEq, Repr

namespace DefinitionFault

def choice (names : List String) : String := "one of " ++ String.intercalate ", " names

def cause? : DefinitionFault → Option String
  | malformed => none
  | missingField name => some s!"missing field `{name}`"
  | unknownField name => some s!"unknown field `{name}`, expected {choice Definition.fieldNames}"
  | unknownCoverage name => some s!"unknown variant `{name}`, expected {choice Coverage.names}"
  | pluginsTwice => some "duplicate field `plugin_search_dirs`"
  | nullSetting => some "null is not a valid formatter option value"
  | integerTooLarge value => some s!"integer {value} is out of range for i64"
  | parserName error => some error.message
  | range error => some error.message

def reason? (fault : DefinitionFault) : Option String := fault.cause?.map Text.visibleLine

def message (fault : DefinitionFault) : String := fault.reason?.getD "not the form of a definition"

end DefinitionFault

end FormatAudit
