import FormatAudit.Snapshot.Basic
import FormatAudit.Suite.Basic
import FormatAudit.Suite.Report
import FormatAudit.Verification

/-!
Running a suite. The leading parser's output of a case is computed once and shared by the units of
the case; a unit that fails or crashes leaves the others as they are.
-/

namespace FormatAudit

structure CaseRun (σ : Type) where
  outcomes : List UnitOutcome
  store : σ
  calls : List Call

structure SuiteRun (σ : Type) where
  report : Report
  store : σ
  calls : List Call

namespace Suite

def crashed (crash : Crash) : UnitFailure := .crashed crash.message

def primary (formatter : Formatter) (c : Case) : List Call × Except UnitFailure (Fixture × String) :=
  match c.fixture with
  | .error failure => ([], .error failure)
  | .ok fixture =>
    let step := (formatter.callFormat fixture.source c.options).mapError fun error =>
      UnitFailure.format c.fileName error.message
    (step.calls, ((fixture, ·) <$> step.result).isolate crashed)

/-- A unit that needs the output of its case: without one it fails as the case did. -/
def dependent (primary : Except UnitFailure (Fixture × String))
    (unit : Fixture → String → Step UnitFailure Unit) : List Call × Verdict :=
  match primary with
  | .error failure => ([], .error failure)
  | .ok (fixture, output) =>
    let step := unit fixture output
    (step.calls, step.result.isolate crashed)

def recordSnapshot {σ : Type} (snapshots : SnapshotStore σ) (c : Case)
    (primary : Except UnitFailure (Fixture × String)) (store : σ) : Verdict × σ :=
  match primary with
  | .error failure => (.error failure, store)
  | .ok (fixture, output) =>
    let (result, store) := snapshots.record store c.fileName (Snapshot.compose fixture.source output)
    (result.isolate crashed, store)

def alternateUnit (formatter : Formatter) (c : Case) (primary : Except UnitFailure (Fixture × String))
    (parser : ParserName) : List Call × UnitOutcome :=
  let (calls, verdict) := dependent primary fun fixture output =>
    verifyAlternate formatter fixture c.options output parser
  (calls, ⟨c.verifyName parser, verdict⟩)

def structureUnit (formatter : Formatter) (c : Case) (primary : Except UnitFailure (Fixture × String)) :
    List Call × UnitOutcome :=
  let (calls, verdict) := dependent primary fun fixture output => do
    let trip ← RoundTrip.take formatter fixture c.options output
    Step.ofAttempt (.ofExcept trip.check)
  (calls, ⟨c.structureName, verdict⟩)

def runCase {σ : Type} (suite : Suite) (formatter : Formatter) (snapshots : SnapshotStore σ) (store : σ)
    (c : Case) : CaseRun σ :=
  let (calls, output) := primary formatter c
  let (verdict, store) := recordSnapshot snapshots c output store
  let units := suite.alternates.map (alternateUnit formatter c output) ++
    if suite.structural then [structureUnit formatter c output] else []
  ⟨⟨c.primaryName, verdict⟩ :: units.map Prod.snd, store, calls ++ units.flatMap Prod.fst⟩

def runCases {σ : Type} (suite : Suite) (formatter : Formatter) (snapshots : SnapshotStore σ) (store : σ) :
    List Case → CaseRun σ
  | [] => ⟨[], store, []⟩
  | c :: rest =>
    let first := suite.runCase formatter snapshots store c
    let others := suite.runCases formatter snapshots first.store rest
    ⟨first.outcomes ++ others.outcomes, others.store, first.calls ++ others.calls⟩

def run {σ : Type} (suite : Suite) (formatter : Formatter) (snapshots : SnapshotStore σ) (store : σ) : SuiteRun σ :=
  let cases := suite.runCases formatter snapshots store suite.cases
  ⟨⟨suite.dir, suite.checks.map (fun check => ⟨check.name, check.verdict⟩) ++ cases.outcomes⟩,
    cases.store, cases.calls⟩

end Suite

end FormatAudit
