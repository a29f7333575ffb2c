import FormatAudit.Interpreter.Binding
import FormatAudit.SystemError
import FormatAudit.Version.Reported
import FormatAudit.Version.Requirement

/-!
Finding interpreters. A track names executables to try and the requirement that their version has to
meet; the first that meets it is bound, and nothing after it is probed.
-/

namespace FormatAudit

inductive ProbeError
  | spawn (executable : String) (cause : SystemError)
  | exit (executable : String) (status : ExitStatus) (errors : String)
  deriving DecidableEq, Repr

def ProbeError.message : ProbeError → String
  | spawn executable cause => s!"failed to spawn '{executable}': {cause.message}"
  | exit executable status errors => s!"'{executable}' exited with status {status.text}: {errors}"

abbrev Probe := (executable : String) → Except ProbeError String

structure Track where
  name : String
  candidates : List String
  constraint : Requirement
  deriving DecidableEq, Repr

structure TrackBinding where
  track : String
  binding : Option Binding
  deriving DecidableEq, Repr

/-- The tracks of a search in order, each with what was found for it. -/
structure Resolution where
  tracks : List TrackBinding
  deriving DecidableEq, Repr

namespace Track

def atLeast (major minor : Nat) : Comparator := ⟨.greaterEq, major, some minor, some 0, []⟩

def below (major minor : Nat) : Comparator := ⟨.less, major, some minor, some 0, []⟩

def python2 : Track := ⟨"python2", ["python2", "python"], ⟨[atLeast 2 7, below 3 0]⟩⟩

def python3 : Track := ⟨"python3", ["python3", "python"], ⟨[atLeast 3 0]⟩⟩

def defaults : List Track := [python2, python3]

def bind? (constraint : Requirement) (probe : Probe) (executable : String) : Option Binding :=
  match probe executable with
  | .error _ => none
  | .ok raw => match Version.ofReport? raw with
    | none => none
    | some version => if constraint.admits version then some ⟨executable, version⟩ else none

/-- The first candidate that can be bound, and the executables that were probed to find it. -/
def resolve (constraint : Requirement) (probe : Probe) : List String → Option Binding × List String
  | [] => (none, [])
  | executable :: rest =>
    match bind? constraint probe executable with
    | some binding => (some binding, [executable])
    | none =>
      let (binding, probed) := resolve constraint probe rest
      (binding, executable :: probed)

end Track

namespace Resolution

def detect (tracks : List Track) (probe : Probe) : Resolution × List String :=
  let found := tracks.map fun track => (track.name, Track.resolve track.constraint probe track.candidates)
  (⟨found.map fun (name, binding, _) => ⟨name, binding⟩⟩, found.flatMap fun (_, _, probed) => probed)

def detectOnce (cell : Option Resolution) (tracks : List Track) (probe : Probe) : Resolution × List String :=
  match cell with
  | some resolution => (resolution, [])
  | none => detect tracks probe

def bindings (r : Resolution) : List Binding := r.tracks.filterMap (·.binding)

def missingTracks (r : Resolution) : List String :=
  (r.tracks.filter (·.binding.isNone)).map (·.track)

end Resolution

end FormatAudit
