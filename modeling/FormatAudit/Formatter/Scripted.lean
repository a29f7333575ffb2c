import FormatAudit.Decoding.Tree
import FormatAudit.Snapshot.Basic
import FormatAudit.Text.LineEnds
import FormatAudit.Text.Substring

/-!
Formatters given by rules, for trying out suites. The first rule whose conditions hold says how a call
ends; cleaning and normalising follow rules too.
-/

namespace FormatAudit.Scripted

/-- What has to hold of a call; a condition left out always does. -/
structure Condition where
  parser : Option String
  interpreter : Option String
  source : Option String
  file : Option String
  contains : Option String

inductive Action
  | output (text : String)
  | wrap (before after : String)
  | replace (part replacement : String)
  | report (json : String)
  | lines
  | fail (error : FormatterError)
  | crash (crash : Crash)

structure Rule where
  condition : Condition
  action : Action

inductive KindPattern
  | every
  | exactly (kind : Option String)

/-- Fields to take out of the nodes of a kind, if an option is on. -/
structure CleaningRule where
  kind : KindPattern
  option : Option String
  drop : List String

structure Script where
  format : List Rule
  parse : List Rule
  clean : List CleaningRule
  enable : List String

def Condition.holds (condition : Condition) (source : String) (options : CallOptions) : Bool :=
  condition.parser.all (· == options.parser.text) && condition.interpreter.all (· == options.interpreter.text) &&
    condition.source.all (· == source) && condition.file.all (· == options.file) &&
    condition.contains.all (Text.contains source)

def noRule : FormatterError := .rejected "no rule"

def actionFor (rules : List Rule) (source : String) (options : CallOptions) : Action :=
  match rules.find? (·.condition.holds source options) with
  | some rule => rule.action
  | none => .fail noRule

def spaces (line : List Char) : Nat := line.count ' '

def lineTree (number : Nat) (line : List Char) : Tree :=
  .ofFields [("type", .text "Line"), ("text", .text (String.ofList (line.filter (· ≠ ' ')))),
    ("spaces", .integer (spaces line)), ("lineno", .integer number), ("source", .text (String.ofList line))]

/-- A sequence of the lines of a source that are not empty. A line that starts with a question mark is
an error too. -/
def lineReport (source : String) : ParseReport :=
  let lines := (Text.splitLines source.toList).zipIdx.filter fun (line, _) => line ≠ []
  let doubtful := lines.filter fun (line, _) => line.head? = some '?'
  ⟨.sequence (lines.map fun (line, number) => lineTree number line),
    doubtful.map fun (line, number) => s!"line {number}: " ++ String.ofList line⟩

def ended {α : Type} : Action → Attempt FormatterError α
  | .fail error => .fail error
  | .crash crash => .error (.crash crash)
  | _ => .fail noRule

def formatBy (rules : List Rule) (source : String) (options : CallOptions) : Attempt FormatterError String :=
  match actionFor rules source options with
  | .output text => .ok text
  | .wrap before after => .ok (before ++ source ++ after)
  | .replace part replacement => .ok (Text.replaceAll source part replacement)
  | action => ended action

def parseBy (rules : List Rule) (source : String) (options : CallOptions) : Attempt FormatterError ParseReport :=
  match actionFor rules source options with
  | .report json => .ofExcept ((Decoder.parseReport.run json).mapError fun error => .invalidOutput error.message)
  | .lines => .ok (lineReport source)
  | action => ended action

def KindPattern.fits (pattern : KindPattern) (kind : Option String) : Bool :=
  match pattern with
  | every => true
  | exactly expected => expected == kind

def isEnabled (options : CallOptions) (option : String) : Bool :=
  match options.base.passthrough.get? option with
  | some (.boolean true) => true
  | _ => false

def CleaningRule.drops (rule : CleaningRule) (options : CallOptions) (kind : Option String) (name : String) : Bool :=
  rule.option.all (isEnabled options) && rule.kind.fits kind && rule.drop.contains name

def cleanFields (rules : List CleaningRule) (options : CallOptions) : Tree.Hook (Except Crash) :=
  fun kind fields => .ok (.filter fields fun field => !rules.any (·.drops options kind field.1))

def enableAll (enable : List String) (options : CallOptions) : CallOptions :=
  let passthrough := enable.foldl (fun fields name => fields.insert name (.boolean true)) options.base.passthrough
  { options with base := { options.base with passthrough := passthrough } }

def Script.formatter (script : Script) : Formatter where
  format := formatBy script.format
  parse := parseBy script.parse
  normalizeOptions options := .ok (enableAll script.enable options)
  clean := cleanFields script.clean

def refusingStore : SnapshotStore Unit :=
  ⟨fun _ name _ => (.error (.crash (.text s!"store refused {name}")), ())⟩

end FormatAudit.Scripted
