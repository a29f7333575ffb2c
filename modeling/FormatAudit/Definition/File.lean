import FormatAudit.Definition.Reading
import FormatAudit.Suite.Basic

/-!
Directories that define their own suite: one of their files says what it is.
-/

namespace FormatAudit

/-- The definition that a text is, the text being that of the file at a path. -/
def Definition.ofText (path s : String) : Except SuiteError Definition :=
  (ofYaml s).mapError (.definition path)

def Definition.load (files : FileSystem) (dir : String) : Except SuiteError Definition :=
  let path := Path.join dir fileName
  let text := do
    let directory ← files.openDirectory dir
    directory.readInside fileName
  match text with
  | .ok text => ofText path text
  | .error cause => .error (.io path cause)

def Suite.ofDirectory (files : FileSystem) (context : Context) (dir : String) : Except SuiteError Suite := do
  let definition ← Definition.load files dir
  register files context dir definition.parsers definition.versions definition.coverage definition.options

end FormatAudit
