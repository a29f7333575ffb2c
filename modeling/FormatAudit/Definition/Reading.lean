import FormatAudit.Definition.Fault
import FormatAudit.Yaml.Document
import FormatAudit.Yaml.Merge

/-!
Definitions written in YAML. They are read in the order of the text, so of several faults the first is
reported; the options alone are read once all of them have been seen.
-/

namespace FormatAudit

namespace Yaml

abbrev Read (α : Type) := Except DefinitionFault α

def require (holds : Bool) : Read Unit := if holds then .ok () else .error .malformed

def toText : Yaml → Read String
  | .scalar s => match s.text? with
    | some text => .ok text
    | none => .error .malformed
  | _ => .error .malformed

def toList {α : Type} (item : Yaml → Read α) : Yaml → Read (List α)
  | .sequence items whole => do
    let values ← items.mapM item
    require whole
    pure values
  | .scalar s => do
    require s.isNull
    pure []
  | _ => .error .malformed

def toParserName (node : Yaml) : Read ParserName := do
  (ParserName.ofText (← node.toText)).mapError .parserName

def toVersionRange (node : Yaml) : Read VersionRange := do
  (VersionRange.parse (← node.toText)).mapError .range

def coverageOfName (name : String) : Read Coverage :=
  match Coverage.ofName? name with
  | some coverage => .ok coverage
  | none => .error (.unknownCoverage name)

/-- A coverage is its name, or a mapping with the name as the key of a null. -/
def toCoverage : Yaml → Read Coverage
  | .scalar s => coverageOfName s.text
  | .mapping ((.scalar key, value) :: rest) whole => do
    let coverage ← coverageOfName key.text
    let isNull := match value with
      | .scalar s => s.isNull
      | _ => false
    require (isNull && rest.isEmpty && whole)
    pure coverage
  | _ => .error .malformed

/-- The key of a mapping inside an option, which has to stand for a text. -/
def settingKey : Yaml → Read String
  | .scalar s => match s.value with
    | .text name => .ok name
    | _ => .error .malformed
  | _ => .error .malformed

def maxInteger : Int := Nat.pow 2 63 - 1

def settingOfValue : Value → Read Setting
  | .null => .error .nullSetting
  | .boolean value => .ok (.boolean value)
  | .integer value => if value ≤ maxInteger then .ok (.integer value) else .error (.integerTooLarge value)
  | .float value => .ok (.float value)
  | .text value => .ok (.text value)

def toSetting : Yaml → Read Setting
  | .scalar s => settingOfValue s.value
  | .sequence items _ => do pure (.sequence (← settings items))
  | .mapping members _ => do pure (.mapping (Fields.ofList (← settingMembers members)))
  | _ => .error .malformed
where
  settings : List Yaml → Read (List Setting)
    | [] => .ok []
    | item :: rest => do
      let item ← toSetting item
      let rest ← settings rest
      pure (item :: rest)
  settingMembers : List (Yaml × Yaml) → Read (List (String × Setting))
    | [] => .ok []
    | (key, value) :: rest => do
      let key ← settingKey key
      let value ← toSetting value
      let rest ← settingMembers rest
      pure ((key, value) :: rest)

structure OptionMembers where
  pluginDirs : Option (Option (List String))
  settings : List (String × Yaml)

def toPluginDirs : Yaml → Read (Option (List String))
  | .scalar s => do
    require s.isNull
    pure none
  | node => some <$> node.toList toText

def isPluginKey (key : String) : Bool := key = "plugin_search_dirs" || key = "plugins"

def optionMember (found : OptionMembers) (member : Yaml × Yaml) : Read OptionMembers := do
  let (key, value) := member
  let name ← key.toText
  if isPluginKey name then
    if found.pluginDirs.isSome then .error .pluginsTwice
    else pure { found with pluginDirs := some (← value.toPluginDirs) }
  else
    require value.isWhole
    pure { found with settings := found.settings ++ [(name, value)] }

/-- The members of a mapping, and whether they are all of it. A null has none, and neither has a scalar
without text. -/
def toMembers : Yaml → Read (List (Yaml × Yaml) × Bool)
  | .mapping members whole => .ok (members, whole)
  | .scalar s => do
    require (s.isNull || s.text = "")
    pure ([], true)
  | _ => .error .malformed

def toOverrides (node : Yaml) : Read Overrides := do
  let (members, whole) ← node.toMembers
  let found ← members.foldlM optionMember ⟨none, []⟩
  require whole
  let settings ← found.settings.mapM fun (name, node) => (name, ·) <$> node.toSetting
  pure ⟨found.pluginDirs.getD none, Fields.ofList settings⟩

structure DefinitionMembers where
  parsers : Option (List ParserName)
  versions : VersionRange
  coverage : Coverage
  options : Overrides

def definitionField (found : DefinitionMembers) (member : Yaml × Yaml) : Read DefinitionMembers := do
  let (key, value) := member
  match ← key.toText with
  | "parsers" => pure { found with parsers := some (← value.toList toParserName) }
  | "versions" => pure { found with versions := ← value.toVersionRange }
  | "coverage" => pure { found with coverage := ← value.toCoverage }
  | "options" => pure { found with options := ← value.toOverrides }
  | name => .error (.unknownField name)

def toDefinition (node : Yaml) : Read Definition := do
  let (members, whole) ← node.toMembers
  let found ← members.foldlM definitionField ⟨none, .any, .any, .none⟩
  require whole
  match found.parsers with
  | some parsers => pure ⟨parsers, found.versions, found.coverage, found.options⟩
  | none => .error (.missingField "parsers")

end Yaml

def Definition.ofYaml (s : String) : Yaml.Read Definition := do
  let document := Yaml.read s
  match document.root with
  | none => .error .malformed
  | some root => do
    let definition ← root.merged.toDefinition
    Yaml.require document.alone
    pure definition

end FormatAudit
