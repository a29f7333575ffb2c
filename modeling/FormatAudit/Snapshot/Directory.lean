import FormatAudit.Files.FileSystem
import FormatAudit.Snapshot.Basic
import FormatAudit.Text.Blank
import FormatAudit.Text.LineEnds
import FormatAudit.Yaml.Document
import FormatAudit.Yaml.Merge

/-!
Snapshots in files. A directory of its own beside the fixtures holds one file for each name; it is
only compared with, never written.
-/

namespace FormatAudit

structure SnapshotDirectory where
  path : String
  deriving DecidableEq, Repr

namespace SnapshotDirectory

def directoryName : String := "__snapshots__"

def push (base component : String) : String :=
  if base.toList.getLast? = some '/' then base ++ component else base ++ "/" ++ component

def rootOf (current s : String) : String :=
  match s.toList with
  | '/' :: '/' :: '/' :: _ => "/"
  | '/' :: '/' :: _ => "//"
  | '/' :: _ => "/"
  | _ => current

/-- The absolute form of a path that is not empty. Dots and repeated slashes go, steps upwards and a
slash at the end stay. -/
def absolute (current s : String) : String :=
  let components := (Path.ofText s).components.filter (· ≠ ".")
  let path := components.foldl push (rootOf current s)
  if s.toList.getLast? = some '/' then push path "" else path

def ofPath (current dir : String) : SnapshotDirectory := ⟨if dir = "" then "" else absolute current dir⟩

def ofFixtures (current dir : String) : SnapshotDirectory := ofPath current (Path.join dir directoryName)

def safeName (name : String) : String :=
  String.ofList (name.toList.flatMap fun c => if c = '/' ∨ c = '\\' then ['_', '_'] else [c])

def isMark (line : List Char) : Bool := Text.trimEnd line = ['-', '-', '-']

def isBinaryKind : Yaml × Yaml → Bool
  | (.scalar key, .scalar kind) => key.text = "snapshot_kind" && kind.text = "binary"
  | _ => false

def isHead (s : String) : Bool :=
  let document := Yaml.read s
  match document.root with
  | some (.mapping members whole) => document.alone && (Yaml.mapping members whole).isWhole && !members.any isBinaryKind
  | _ => false

def withoutReturn (line : List Char) : List Char := if line.getLast? = some '\r' then line.dropLast else line

def joinLines (lines : List (List Char)) : List Char := List.intercalate ['\n'] (lines.map withoutReturn)

/-- The content of a snapshot file. It follows the second line of dashes, if the first line is the first of
them and what stands between is a head; in any other file it follows the first line that is blank and not
the first. -/
def storedContent? (file : String) : Option (List Char) :=
  match Text.splitLines file.toList with
  | first :: rest =>
    if isMark first then
      let head := first :: rest.takeWhile (!isMark ·)
      if isHead (String.ofList (List.intercalate ['\n'] head)) then some (joinLines (rest.drop head.length)) else none
    else some (joinLines ((rest.dropWhile (!Text.trimEnd · = [])).drop 1))
  | [] => none

def isLineEnd (c : Char) : Bool := c = '\n' || c = '\r'

/-- The form in which a stored and a new content are compared: without line ends at the start and blanks
at the end, and with line feeds for CRLF. -/
def comparable (content : List Char) : List Char :=
  Text.joinLineEnds (Text.trimEnd (content.dropWhile isLineEnd))

def withoutMark : List Char → List Char
  | '-' :: '-' :: '-' :: '\n' :: rest => rest
  | content => content

def matchesStored (stored content : List Char) : Bool :=
  comparable stored = comparable content || withoutMark (comparable stored) = withoutMark (comparable content)

def mismatch (name : String) : UnitFailure := .snapshot name "snapshot assertion failed"

def compare (stored : Option String) (name content : String) : Verdict :=
  match stored.bind storedContent? with
  | some stored => if matchesStored stored content.toList then .ok () else .error (mismatch name)
  | none => .error (mismatch name)

def snapshots (files : FileSystem) (dir : String) : SnapshotStore Unit :=
  ⟨fun _ name content =>
    let file := Path.join (Path.join dir directoryName) (safeName name ++ ".snap")
    (.ofExcept (compare (files.readText file).toOption name content), ())⟩

end SnapshotDirectory

end FormatAudit
