import FormatAudit.Files.FileTree

/-!
The files of a machine, as a process sees them: absolute paths start at the root, all others in the
current directory.
-/

namespace FormatAudit

/-- All files, and the names on the way from the root to the current directory. -/
structure FileSystem where
  root : FileTree
  current : List FileName

namespace FileSystem

def descend (node : FileTree) (above : List FileTree) : List FileName → Option (FileTree × List FileTree)
  | [] => some (node, above)
  | name :: way =>
    match node with
    | .directory entries _ => (FileTree.entry? entries name).bind fun inner => descend inner (node :: above) way
    | _ => none

def start (files : FileSystem) (absolute : Bool) : Except SystemError (FileTree × List FileTree) :=
  if absolute then .ok (files.root, [])
  else match descend files.root [] files.current with
    | some place => .ok place
    | none => .error .notFound

def follow (files : FileSystem) (absolute : Bool) (steps : List String) : Except SystemError FileTree := do
  let (node, above) ← files.start absolute
  FileTree.follow (.anywhere files.root) FileTree.maxLinks node above steps

/-- The directory at a path. It can be opened whether or not it can be listed. -/
def openPath (files : FileSystem) (path : Path) : Except SystemError FileTree := do
  if path.components.any (·.contains '\x00') then .error .nulInName
  else if FileTree.maxPathLength < path.length then .error .nameTooLong
  else match ← files.follow path.absolute path.components with
    | .directory entries refusals => .ok (.directory entries refusals)
    | .unknown cause => .error cause
    | _ => .error .notDirectory

def openDirectory (files : FileSystem) (s : String) : Except SystemError FileTree :=
  if s = "" then .error .notFound else files.openPath (Path.ofText s)

def readText (files : FileSystem) (s : String) : Except SystemError String :=
  if s = "" then .error .notFound
  else if s.contains '\x00' then .error .nulInName
  else if FileTree.maxPathLength < s.utf8ByteSize then .error .nameTooLong
  else do FileTree.content (← files.follow (Path.ofText s).absolute (FileTree.steps s))

end FileSystem

end FormatAudit
