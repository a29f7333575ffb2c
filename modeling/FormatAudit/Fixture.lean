import FormatAudit.Definition.Basic
import FormatAudit.Files.FileSystem
import FormatAudit.Suite.Error
import FormatAudit.Text.LineEnds

/-!
Fixtures: the sample sources of a directory. What else lies there is left alone: hidden files,
recorded snapshots, the definition of the suite, and whatever is not itself a file.
-/

namespace FormatAudit

structure Fixture where
  path : String
  source : String
  deriving DecidableEq, Repr

namespace Fixture

def snapshotExtension : String := "snap"

def hiddenMark : Char := '.'

def isFixtureName (name : String) : Bool :=
  Path.extension? name ≠ some snapshotExtension && name.toList.head? ≠ some hiddenMark &&
    name ≠ Definition.fileName

/-- The name of an entry, if it is that of a fixture. An entry with a name that is no text is passed over
before it is asked what it is. -/
def nameOf? (entry : FileName × FileTree) : Except SystemError (Option String) :=
  match Text.ofUtf8 entry.1 with
  | .error _ => .ok none
  | .ok name => do
    let isFile ← entry.2.isFile
    .ok (if isFixtureName name && isFile then some name else none)

def names : List (Except SystemError (FileName × FileTree)) → Except SystemError (List String)
  | [] => .ok []
  | item :: rest => do
    let name? ← nameOf? (← item)
    let more ← names rest
    .ok (name?.toList ++ more)

def namesIn (files : FileSystem) (dir : String) : Except SystemError (List String) := do
  let directory ← files.openDirectory dir
  names directory.listing

def enumerate (files : FileSystem) (dir : String) : Except SuiteError (List String) := do
  let names ← (namesIn files dir).mapError (.io dir)
  .ok (names.map (Path.join dir))

def ofText (path s : String) : Fixture := ⟨path, Text.normalizeLineEndings s⟩

def fileName (fixture : Fixture) : String := Path.fileName fixture.path

def load (files : FileSystem) (path : String) : Except SuiteError Fixture :=
  let text := do
    let directory ← files.openPath (Path.parent path)
    directory.readInside (Path.fileName path)
  match text with
  | .ok text => .ok (ofText path text)
  | .error cause => .error (.io path cause)

end Fixture

end FormatAudit
