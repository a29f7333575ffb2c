import FormatAudit.Failure
import FormatAudit.Suite.Error

/-!
Reports of suites: the verdict of every unit under its name.
-/

namespace FormatAudit

structure UnitOutcome where
  name : String
  verdict : Verdict

def UnitOutcome.passed (outcome : UnitOutcome) : Bool := outcome.verdict.isOk

structure Report where
  dir : String
  outcomes : List UnitOutcome

namespace Report

def failures (report : Report) : List UnitOutcome := report.outcomes.filter (!·.passed)

def isSuccess (report : Report) : Bool := report.outcomes.all (·.passed)

def outcome? (report : Report) (name : String) : Option UnitOutcome := report.outcomes.find? (·.name == name)

def failureLine (outcome : UnitOutcome) : String :=
  match outcome.verdict with
  | .error failure => s!"{outcome.name}: {failure.message}"
  | .ok () => outcome.name

def result (report : Report) : Except SuiteError Unit :=
  match report.failures.map failureLine with
  | [] => .ok ()
  | lines => .error (.unitsFailed lines.length report.outcomes.length (String.intercalate "\n" lines))

end Report

end FormatAudit
