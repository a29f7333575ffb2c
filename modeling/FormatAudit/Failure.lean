/-!
How a unit of an audit fails.
-/

namespace FormatAudit

inductive UnitFailure
  | noInterpreter (range : String)
  | missingTracks (missing : List String)
  | unreadable (fixture message : String)
  | format (fixture message : String)
  | parse (fixture message : String)
  | divergence (fixture reference parser expected actual : String)
  | reparse (fixture diagnostic : String)
  | structureChanged (fixture before after : String)
  | snapshot (name message : String)
  | crashed (message : String)
  deriving DecidableEq, Repr

/-- A unit passes with nothing to say, or fails. -/
abbrev Verdict := Except UnitFailure Unit

def UnitFailure.message : UnitFailure → String
  | noInterpreter range => s!"no installed interpreter satisfies '{range}'"
  | missingTracks missing => s!"interpreter tracks not available: " ++ String.intercalate ", " missing
  | unreadable fixture message => s!"reading {fixture} failed: {message}"
  | format fixture message => s!"formatting {fixture} failed: {message}"
  | parse fixture message => s!"parsing {fixture} failed: {message}"
  | divergence fixture reference parser expected actual =>
    s!"parser '{parser}' output for {fixture} differs from '{reference}'\n" ++
      s!"--- {reference}\n{expected}\n--- {parser}\n{actual}"
  | reparse fixture diagnostic => s!"re-parsing formatted {fixture} failed: {diagnostic}"
  | structureChanged fixture before after =>
    s!"formatting changed the syntax tree of {fixture}\nbefore: {before}\nafter:  {after}"
  | snapshot name message => s!"snapshot '{name}' does not match: {message}"
  | crashed message => s!"unit panicked: {message}"

end FormatAudit
