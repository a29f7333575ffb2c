import FormatAudit.Failure
import FormatAudit.Interpreter.Track
import FormatAudit.Version.Range

/-!
The interpreters that a suite runs under, chosen from those found: the ones in its range, no
executable twice, with checks on the choice that are units of the suite.
-/

namespace FormatAudit

/-- Whether a suite is content with any interpreter or asks for one on every track. -/
inductive Coverage
  | any
  | all
  deriving DecidableEq, Repr

structure SetCheck where
  name : String
  verdict : Verdict

structure InterpreterSet where
  bindings : List Binding
  checks : List SetCheck

namespace InterpreterSet

def atLeastOneCheck : String := "at least one valid interpreter version"

def allTracksCheck : String := "all interpreter tracks available"

def choose (range : VersionRange) : List Binding → List Binding → List Binding
  | chosen, [] => chosen
  | chosen, binding :: rest =>
    if chosen.any (·.executable == binding.executable) || !range.admits binding.version then choose range chosen rest
    else choose range (chosen ++ [binding]) rest

def build (resolution : Resolution) (range : VersionRange) (coverage : Coverage) : InterpreterSet :=
  let bindings := choose range [] resolution.bindings
  let atLeastOne : SetCheck :=
    ⟨atLeastOneCheck, if bindings = [] then .error (.noInterpreter range.text) else .ok ()⟩
  let missing := resolution.missingTracks
  let allTracks : SetCheck :=
    ⟨allTracksCheck, if missing = [] then .ok () else .error (.missingTracks missing)⟩
  ⟨bindings, if coverage = .all then [atLeastOne, allTracks] else [atLeastOne]⟩

end InterpreterSet

end FormatAudit
