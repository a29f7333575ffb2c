import FormatAudit.Json.Document
import FormatAudit.Number.Shortest
import FormatAudit.ParserName
import FormatAudit.Text.Quoted
import FormatAudit.Version.Range

/-!
Reading typed values from JSON text. A decoder goes through a value in the order of its text, so of
several things wrong with a text the first one is reported. It may open 127 lists and objects inside
each other.
-/

namespace FormatAudit

inductive JsonShape
  | null
  | boolean (value : Bool)
  | integer (value : Int)
  | float (value : Binary64)
  | text (value : String)
  | sequence
  | map
  deriving DecidableEq, Repr

inductive DecodeError
  | fault (fault : Json.Fault)
  | skippedFault (fault : Json.Fault)
  | tooDeep
  | trailing
  | wrongShape (found : JsonShape) (expected : String)
  | tooShort (length : Nat) (expected : String)
  | missingField (name : String)
  | duplicateField (name : String)
  | unknownField (name : String) (known : List String)
  | unknownVariant (name : String) (known : List String)
  | nullSetting
  | integerTooLarge (value : Int)
  | parserName (error : NameError)
  | range (error : RangeError)
  deriving DecidableEq, Repr

/-- A float keeps its point, and has an exponent of two digits at least from 10 ^ 16 up and below 10 ^ -5. -/
def JsonShape.floatLayout : DecimalLayout := ⟨fun place => -5 < place && place ≤ 16, true, .signed 2⟩

def JsonShape.description : JsonShape → String
  | null => "null"
  | boolean value => s!"boolean `{value}`"
  | integer value => s!"integer `{value}`"
  | float value => s!"floating point `{floatLayout.render value}`"
  | text value => s!"string {Text.quoted value}"
  | sequence => "sequence"
  | map => "map"

namespace DecodeError

def ticked (name : String) : String := "`" ++ name ++ "`"

/-- The names that would have been right: two with a word between them, more as a list. -/
def choice : List String → String
  | [first, second] => ticked first ++ " or " ++ ticked second
  | names => "one of " ++ String.intercalate ", " (names.map ticked)

def message : DecodeError → String
  | fault f => f.message
  | skippedFault f => f.messageWhenSkipped
  | tooDeep => "recursion limit exceeded"
  | trailing => "trailing characters"
  | wrongShape found expected => s!"invalid type: {found.description}, expected {expected}"
  | tooShort length expected => s!"invalid length {length}, expected {expected}"
  | missingField name => s!"missing field `{name}`"
  | duplicateField name => s!"duplicate field `{name}`"
  | unknownField name known => s!"unknown field `{name}`, expected {choice known}"
  | unknownVariant name known => s!"unknown variant `{name}`, expected {choice known}"
  | nullSetting => "null is not a valid formatter option value"
  | integerTooLarge value => s!"integer {value} is out of range for i64"
  | parserName error => error.message
  | range error => error.message

end DecodeError

abbrev Decoder (α : Type) := (room : Nat) → Json → Except DecodeError α

namespace Decoder

variable {α : Type}

def maxOpen : Nat := 127

def run (decode : Decoder α) (s : String) : Except DecodeError α := do
  let document := Json.read s
  let value ← decode maxOpen document.root
  if document.trailing then .error .trailing else .ok value

def ofFault (r : Except Json.Fault α) : Except DecodeError α := r.mapError .fault

def ended : Option Json.Fault → Except DecodeError Unit
  | none => .ok ()
  | some fault => .error (.fault fault)

def shape : Json → Except DecodeError JsonShape
  | .null => .ok .null
  | .boolean value => .ok (.boolean value)
  | .number numeral => ofFault <| numeral.value.map fun
    | .integer n => .integer n
    | .float x => .float x
  | .text token => ofFault <| token.value.map .text
  | .array _ _ => .ok .sequence
  | .object _ _ => .ok .map
  | .broken fault => .error (.fault fault)

def mismatch (expected : String) (value : Json) : Except DecodeError α := do
  let found ← shape value
  .error (.wrongShape found expected)

def text (expected : String) : Json → Except DecodeError String
  | .text token => ofFault token.value
  | value => mismatch expected value

def descend (room : Nat) (inside : Nat → Except DecodeError α) : Except DecodeError α :=
  match room with
  | 0 => .error .tooDeep
  | room + 1 => inside room

def sequence (item : Decoder α) : Decoder (List α)
  | room, .array items stop => descend room fun room => do
    let values ← items.mapM (item room)
    ended stop
    pure values
  | _, value => mismatch "a sequence" value

def texts (expected : String) : Decoder (List String) := sequence fun _ => text expected

def skip (value : Json) : Except DecodeError Unit :=
  match value.stop? with
  | none => .ok ()
  | some fault => .error (.skippedFault fault)

def noMore : List Json → Option Json.Fault → Except DecodeError Unit
  | _ :: _, _ => .error .trailing
  | [], some .listUnseparated => .error .trailing
  | [], stop => ended stop

end Decoder

end FormatAudit
