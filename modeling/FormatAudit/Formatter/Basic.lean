import FormatAudit.Options
import FormatAudit.SystemError
import FormatAudit.Tree.Cleaning

/-!
The formatter under audit, as far as an audit can see it: a function of the source and the options of
a call. Any call may fail, and any may crash.
-/

namespace FormatAudit

/-- A crash with its message, or with something else in the message's place. -/
inductive Crash
  | text (message : String)
  | other
  deriving DecidableEq, Repr

def Crash.message : Crash → String
  | text message => message
  | other => "non-string panic payload"

inductive Fault (ε : Type)
  | error (e : ε)
  | crash (c : Crash)
  deriving DecidableEq, Repr

abbrev Attempt (ε α : Type) := Except (Fault ε) α

namespace Attempt

variable {ε ε' α : Type}

def fail (e : ε) : Attempt ε α := .error (.error e)

def mapError (f : ε → ε') : Attempt ε α → Attempt ε' α
  | .ok a => .ok a
  | .error (.error e) => .error (.error (f e))
  | .error (.crash c) => .error (.crash c)

def ofExcept : Except ε α → Attempt ε α
  | .ok a => .ok a
  | .error e => .error (.error e)

def ofCrash : Except Crash α → Attempt ε α
  | .ok a => .ok a
  | .error c => .error (.crash c)

/-- Turns a crash into an error. -/
def isolate (ofCrash : Crash → ε) : Attempt ε α → Except ε α
  | .ok a => .ok a
  | .error (.error e) => .error e
  | .error (.crash c) => .error (ofCrash c)

end Attempt

inductive FormatterError
  | rejected (message : String)
  | spawn (program : String) (cause : SystemError)
  | exit (program : String) (status : ExitStatus) (errors : String)
  | invalidOutput (message : String)
  deriving DecidableEq, Repr

def FormatterError.message : FormatterError → String
  | rejected message => message
  | spawn program cause => s!"failed to spawn formatter '{program}': {cause.message}"
  | exit program status errors => s!"formatter '{program}' exited with status {status.text}: {errors}"
  | invalidOutput message => s!"formatter produced invalid output: {message}"

structure ParseReport where
  tree : Tree
  errors : List String

namespace ParseReport

def clean (tree : Tree) : ParseReport := ⟨tree, []⟩

def hasErrors (report : ParseReport) : Bool := report.errors ≠ []

def same (a b : ParseReport) : Bool := a.tree.same b.tree && a.errors == b.errors

end ParseReport

/-- A formatter. Trees are compared under options that it may normalise, and after its own cleaning, which by contract
drops fields of a node: that is the bound in `Tree.Hook`. -/
structure Formatter where
  format : (source : String) → CallOptions → Attempt FormatterError String
  parse : (source : String) → CallOptions → Attempt FormatterError ParseReport
  normalizeOptions : CallOptions → Except Crash CallOptions
  clean : CallOptions → Tree.Hook (Except Crash)

namespace Formatter

def cleanNothing : Tree.Hook (Except Crash) := fun _ fields => .ok ⟨fields, Nat.le_refl _⟩

end Formatter

end FormatAudit
