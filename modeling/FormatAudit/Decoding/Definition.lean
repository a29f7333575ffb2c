import FormatAudit.Decoding.Tree
import FormatAudit.Definition.Basic

/-!
Reading overrides and suite definitions from JSON. Overrides are open: every member that does not
name the plugin directories is an option. A definition is closed: it has four fields and no other.
-/

namespace FormatAudit.Decoder

def parserName : Decoder ParserName := fun _ value => do
  (ParserName.ofText (← text "a string" value)).mapError .parserName

def versionRange : Decoder VersionRange := fun _ value => do
  (VersionRange.parse (← text "a string" value)).mapError .range

def coverageOfName (name : String) : Except DecodeError Coverage :=
  match Coverage.ofName? name with
  | some coverage => .ok coverage
  | none => .error (.unknownVariant name Coverage.names)

def unit : Json → Except DecodeError Unit
  | .null => .ok ()
  | value => mismatch "unit" value

/-- A coverage is its name, or an object with the name as the key of a null. -/
def coverage : Decoder Coverage
  | _, .text token => do coverageOfName (← ofFault token.value)
  | room, .object members stop => descend room fun _ =>
    match members with
    | [] => .error (.fault (stop.getD .valueUnknown))
    | (key, value) :: rest => do
      let coverage ← coverageOfName (← ofFault key.value)
      unit value
      match rest, stop with
      | [], none => .ok coverage
      | [], some .objectUnfinished => .error (.fault .objectUnfinished)
      | _, _ => .error (.fault .valueUnknown)
  | _, .broken fault =>
    match fault with
    | .valueMissing | .colonMissing | .objectUnfinished => .error (.fault fault)
    | _ => .error (.fault .valueUnknown)
  | _, _ => .error (.fault .valueUnknown)

def examine (room : Nat) : Json → Except DecodeError Unit
  | .null => .ok ()
  | .boolean _ => .ok ()
  | .number numeral => do
    let _ ← ofFault numeral.value
  | .text token => do
    let _ ← ofFault token.value
  | .array items stop =>
    match room with
    | 0 => .error .tooDeep
    | room + 1 => do
      examineItems room items
      ended stop
  | .object members stop =>
    match room with
    | 0 => .error .tooDeep
    | room + 1 => do
      examineMembers room members
      ended stop
  | .broken fault => .error (.fault fault)
where
  examineItems (room : Nat) : List Json → Except DecodeError Unit
    | [] => .ok ()
    | item :: rest => do
      examine room item
      examineItems room rest
  examineMembers (room : Nat) : List (Json.StringToken × Json) → Except DecodeError Unit
    | [] => .ok ()
    | (key, value) :: rest => do
      let _ ← ofFault key.value
      examine room value
      examineMembers room rest

def isPluginKey (key : String) : Bool := key = "plugin_search_dirs" || key = "plugins"

def pluginDirs : Decoder (Option (List String))
  | _, .null => .ok none
  | room, value => some <$> texts "a UTF-8 path string" room value

def overrideMembers (room : Nat) (plugins : Option (Option (List String))) :
    List (Json.StringToken × Json) → Except DecodeError (Option (Option (List String)) × List (String × Json))
  | [] => .ok (plugins, [])
  | (key, value) :: rest => do
    let key ← ofFault key.value
    if isPluginKey key then
      if plugins.isSome then .error (.duplicateField "plugin_search_dirs")
      else overrideMembers room (some (← pluginDirs room value)) rest
    else do
      examine room value
      let (plugins, options) ← overrideMembers room plugins rest
      pure (plugins, (key, value) :: options)

def overrides : Decoder Overrides
  | room, .object members stop => descend room fun room => do
    let (plugins, options) ← overrideMembers room none members
    ended stop
    let settings ← options.mapM fun (key, value) => (key, ·) <$> setting room value
    pure ⟨plugins.getD none, Fields.ofList settings⟩
  | _, value => mismatch "struct OptionOverrides" value

structure DefinitionFields where
  parsers : Option (List ParserName)
  versions : Option VersionRange
  coverage : Option Coverage
  options : Option Overrides

def DefinitionFields.complete (found : DefinitionFields) : Except DecodeError Definition :=
  match found.parsers with
  | none => .error (.missingField "parsers")
  | some parsers =>
    .ok ⟨parsers, found.versions.getD .any, found.coverage.getD .any, found.options.getD .none⟩

def definitionMembers (room : Nat) (found : DefinitionFields) :
    List (Json.StringToken × Json) → Except DecodeError DefinitionFields
  | [] => .ok found
  | (key, value) :: rest => do
    match ← ofFault key.value with
    | "parsers" =>
      if found.parsers.isSome then .error (.duplicateField "parsers")
      else definitionMembers room { found with parsers := some (← sequence parserName room value) } rest
    | "versions" =>
      if found.versions.isSome then .error (.duplicateField "versions")
      else definitionMembers room { found with versions := some (← versionRange room value) } rest
    | "coverage" =>
      if found.coverage.isSome then .error (.duplicateField "coverage")
      else definitionMembers room { found with coverage := some (← coverage room value) } rest
    | "options" =>
      if found.options.isSome then .error (.duplicateField "options")
      else definitionMembers room { found with options := some (← overrides room value) } rest
    | other => .error (.unknownField other Definition.fieldNames)

/-- Reads the next item of a list of fields, unless the list is at its end. -/
def nextItem {α : Type} (decode : Json → Except DecodeError α) (items : List Json) (stop : Option Json.Fault) :
    Except DecodeError (Option α × List Json) :=
  match items with
  | item :: rest => do pure (some (← decode item), rest)
  | [] => do
    ended stop
    pure (none, [])

def definitionOfItems (room : Nat) (items : List Json) (stop : Option Json.Fault) : Except DecodeError Definition := do
  let (parsers, items) ← nextItem (sequence parserName room) items stop
  if parsers.isNone then .error (.tooShort 0 "struct SuiteDefinition with 4 elements")
  let (versions, items) ← nextItem (versionRange room) items stop
  let (coverage, items) ← nextItem (coverage room) items stop
  let (options, items) ← nextItem (overrides room) items stop
  noMore items stop
  DefinitionFields.complete ⟨parsers, versions, coverage, options⟩

def definition : Decoder Definition
  | room, .array items stop => descend room fun room => definitionOfItems room items stop
  | room, .object members stop => descend room fun room => do
    let found ← definitionMembers room ⟨none, none, none, none⟩ members
    ended stop
    found.complete
  | _, value => mismatch "struct SuiteDefinition" value

end FormatAudit.Decoder
