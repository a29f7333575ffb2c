import FormatAudit.Formatter.Basic

/-!
The calls that an audit makes of a formatter. A step carries the calls it makes along with how it
ends, and a step after a failed one makes none.
-/

namespace FormatAudit

inductive CallKind
  | format
  | parse
  deriving DecidableEq, Repr

structure Call where
  kind : CallKind
  source : String
  options : CallOptions

/-- What an audit does in one go: the calls made, and how it ends. -/
structure Step (ε α : Type) where
  calls : List Call
  result : Attempt ε α

namespace Step

variable {ε ε' α β : Type}

def ofAttempt (result : Attempt ε α) : Step ε α := ⟨[], result⟩

def andThen (step : Step ε α) (next : α → Step ε β) : Step ε β :=
  match step.result with
  | .ok a => ⟨step.calls ++ (next a).calls, (next a).result⟩
  | .error fault => ⟨step.calls, .error fault⟩

instance : Monad (Step ε) where
  pure a := ⟨[], .ok a⟩
  bind := andThen

def mapError (f : ε → ε') (step : Step ε α) : Step ε' α := ⟨step.calls, step.result.mapError f⟩

end Step

namespace Formatter

def callFormat (formatter : Formatter) (source : String) (options : CallOptions) : Step FormatterError String :=
  ⟨[⟨.format, source, options⟩], formatter.format source options⟩

def callParse (formatter : Formatter) (source : String) (options : CallOptions) : Step FormatterError ParseReport :=
  ⟨[⟨.parse, source, options⟩], formatter.parse source options⟩

end Formatter

end FormatAudit
