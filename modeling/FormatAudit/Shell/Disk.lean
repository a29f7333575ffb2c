import FormatAudit.Fields

/-!
The files that scripts can see: a few that there are on every machine, and what scripts made of them.
-/

namespace FormatAudit.Shell

inductive Entry
  | directory
  | text (content : List Char)
  | program
  | device
  deriving DecidableEq, Repr

/-- What scripts put at paths, or took away from them. -/
structure Disk where
  changes : Fields (Option Entry)

namespace Disk

def directories : List String :=
  ["/", "/bin", "/dev", "/etc", "/home", "/lib", "/opt", "/proc", "/root", "/run", "/sbin", "/sys", "/tmp", "/usr",
    "/usr/bin", "/usr/lib", "/usr/local", "/usr/local/bin", "/usr/sbin", "/usr/share", "/var", "/var/log", "/var/tmp"]

def devices : List String := ["/dev/null", "/dev/zero", "/dev/full", "/dev/random", "/dev/urandom"]

def texts : List String := ["/etc/group", "/etc/hostname", "/etc/hosts", "/etc/passwd", "/etc/shadow"]

def programDirectories : List String := ["/bin", "/usr/bin"]

def programNames : List String :=
  ["[", "bash", "cat", "cut", "dash", "echo", "egrep", "false", "fgrep", "grep", "head", "printf", "pwd", "rev", "sed",
    "sh", "sort", "tac", "tail", "test", "tr", "true", "uniq", "wc"]

/-- The names on the way to a path, with the steps up taken. -/
def normal (names : List String) : List String :=
  (names.foldl (fun way name =>
    if name = "" || name = "." then way else if name = ".." then way.tail else name :: way) []).reverse

def ofNames (names : List String) : String := "/" ++ String.intercalate "/" names

def absolute (directory path : String) : String :=
  ofNames (normal ((if path.startsWith "/" then path else directory ++ "/" ++ path).splitOn "/"))

def parent (path : String) : String := ofNames (normal (path.splitOn "/")).dropLast

def fileName (path : String) : String := ((path.splitOn "/").getLast?).getD ""

def isProgram (path : String) : Bool := parent path ∈ programDirectories && fileName path ∈ programNames

def entry? (disk : Disk) (path : String) : Option Entry :=
  match disk.changes.get? path with
  | some change => change
  | none =>
    if path ∈ directories then some .directory
    else if path ∈ devices then some .device
    else if path ∈ texts then some (.text [])
    else if isProgram path then some .program
    else none

def put (disk : Disk) (path : String) (entry : Option Entry) : Disk :=
  if disk.entry? path = some .device then disk else ⟨disk.changes.insert path entry⟩

def isDirectory (disk : Disk) (path : String) : Bool := disk.entry? path = some .directory

def hasRoom (disk : Disk) (path : String) : Bool := disk.isDirectory (parent path)

def names (disk : Disk) (directory : String) : List String :=
  let changed := (disk.changes.filter fun change => change.2.isSome).map Prod.fst
  let standing := (directories ++ devices ++ texts).filter fun path => (disk.changes.get? path).isNone
  (((standing ++ changed).filter fun path => path ≠ "/" && parent path = directory).map fileName)

def append (disk : Disk) (path : String) (chars : List Char) : Disk :=
  match disk.entry? path with
  | some (.text content) => disk.put path (some (.text (content ++ chars)))
  | some _ => disk
  | none => disk.put path (some (.text chars))

end Disk

end FormatAudit.Shell
