import FormatAudit.Text.Blank
import FormatAudit.Text.Utf8

/-!
The environment variable that turns on the comparison of structures.
-/

namespace FormatAudit.StructureSwitch

def variableName : String := "AST_COMPARE"

def offWords : List String := ["0", "false", "no", "off"]

def isOnWord (value : String) : Bool :=
  let word := Text.trim value
  word ≠ "" && !offWords.any fun off => word.toLower == off

def isOn (value : Option (List UInt8)) : Bool :=
  match value.map Text.ofUtf8 with
  | some (.ok word) => isOnWord word
  | _ => false

end FormatAudit.StructureSwitch
