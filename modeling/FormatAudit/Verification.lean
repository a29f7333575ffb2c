import FormatAudit.Failure
import FormatAudit.Fixture
import FormatAudit.Formatter.Call
import FormatAudit.Tree.Written

/-!
The two things verified of an output: that another parser gives it too, and that it parses to the
tree of its source.
-/

namespace FormatAudit

def verifyAlternate (formatter : Formatter) (fixture : Fixture) (reference : CallOptions)
    (referenceOutput : String) (parser : ParserName) : Step UnitFailure Unit := do
  let output ← (formatter.callFormat fixture.source (reference.withParser parser)).mapError fun error =>
    .format fixture.fileName error.message
  if output = referenceOutput then pure ()
  else .ofAttempt <| .fail <|
    .divergence fixture.fileName reference.parser.text parser.text referenceOutput output

structure RoundTrip where
  fixture : String
  initialErrors : List String
  initial : Tree
  reparsed : Except String Tree

namespace RoundTrip

/-- The formatted text has to parse, to the same tree unless the source had errors of its own. -/
def check (trip : RoundTrip) : Verdict :=
  match trip.reparsed with
  | .error diagnostic => .error (.reparse trip.fixture diagnostic)
  | .ok reparsed =>
    if trip.initialErrors ≠ [] || reparsed.same trip.initial then .ok ()
    else .error (.structureChanged trip.fixture trip.initial.written reparsed.written)

def reparse (formatter : Formatter) (formatted : String) (options normalized : CallOptions) :
    Step UnitFailure (Except String Tree) :=
  let parsed := formatter.callParse formatted options
  ⟨parsed.calls, match parsed.result with
    | .ok report => .ofCrash (Except.ok <$> Tree.normalize (formatter.clean normalized) report.tree)
    | .error (.error error) => .ok (.error error.message)
    | .error (.crash crash) => .error (.crash crash)⟩

def take (formatter : Formatter) (fixture : Fixture) (options : CallOptions) (formatted : String) :
    Step UnitFailure RoundTrip := do
  let initial ← (formatter.callParse fixture.source options).mapError fun error =>
    .parse fixture.fileName error.message
  let normalized ← Step.ofAttempt (.ofCrash (formatter.normalizeOptions options))
  let reparsed ← reparse formatter formatted options normalized
  let tree ← Step.ofAttempt (.ofCrash (Tree.normalize (formatter.clean normalized) initial.tree))
  pure ⟨fixture.fileName, initial.errors, tree, reparsed⟩

end RoundTrip

end FormatAudit
