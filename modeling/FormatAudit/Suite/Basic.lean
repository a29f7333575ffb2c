import FormatAudit.Failure
import FormatAudit.Fixture
import FormatAudit.Interpreter.Selection

/-!
Suites. A suite pairs every fixture of a directory with every chosen interpreter; its units are the
checks on that choice, and for each pair one for each parser and one for the structure of the output.
-/

namespace FormatAudit

/-- A fixture under an interpreter. A fixture that cannot be read is a failure of its own units. -/
structure Case where
  fileName : String
  fixture : Except UnitFailure Fixture
  options : CallOptions

structure Suite where
  dir : String
  checks : List SetCheck
  cases : List Case
  alternates : List ParserName
  structural : Bool

structure Context where
  interpreters : Resolution
  structural : Bool

namespace Case

def unitName (c : Case) (parser : ParserName) (check : String) : String :=
  s!"{c.fileName} - {parser.text}-{check} [{c.options.interpreter.text}]"

def verifyName (c : Case) (parser : ParserName) : String := c.unitName parser "verify"

def primaryName (c : Case) : String := c.verifyName c.options.parser

def structureName (c : Case) : String := c.unitName c.options.parser "ast-compare"

end Case

namespace Suite

def loadFixture (files : FileSystem) (path : String) : Except UnitFailure Fixture :=
  (Fixture.load files path).mapError fun error => .unreadable (Path.fileName path) error.message

def casesOf (files : FileSystem) (primary : ParserName) (base : FormatOptions) (bindings : List Binding)
    (path : String) : List Case :=
  bindings.map fun binding => ⟨Path.fileName path, loadFixture files path, base.resolve primary binding path⟩

def register (files : FileSystem) (context : Context) (dir : String) (parsers : List ParserName)
    (versions : VersionRange) (coverage : Coverage) (overrides : Overrides) : Except SuiteError Suite :=
  match parsers with
  | [] => .error (.noParsers dir)
  | primary :: alternates => do
    let set := InterpreterSet.build context.interpreters versions coverage
    let paths ← Fixture.enumerate files dir
    let cases := paths.flatMap (casesOf files primary (.merged overrides) set.bindings)
    pure ⟨dir, set.checks, cases, alternates, context.structural⟩

def caseNames (suite : Suite) (c : Case) : List String :=
  c.primaryName :: suite.alternates.map c.verifyName ++ if suite.structural then [c.structureName] else []

def unitNames (suite : Suite) : List String :=
  suite.checks.map (·.name) ++ suite.cases.flatMap suite.caseNames

end Suite

end FormatAudit
