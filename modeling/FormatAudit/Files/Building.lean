import FormatAudit.Files.FileTree

/-!
Building file trees. Directories, files and links are made at paths, which are followed through the
links that are already there: what is written at a link goes to where the link leads.
-/

namespace FormatAudit

namespace FileTree

def names (path : List UInt8) : List FileName :=
  (path.splitOnP (· = 47)).filter fun name => name ≠ [] && name ≠ [46]

def endsInDot (path : List UInt8) : Bool :=
  let pieces := (path.splitOnP (· = 47)).filter (· ≠ [])
  pieces.getLast? = some [46] && (names path).getLast?.any (· ≠ [46, 46])

def put (node : FileTree) : List FileName → FileTree → FileTree
  | [], .directory entries refusals =>
    match node with
    | .directory _ _ => .directory entries refusals
    | node => node
  | [], _ => node
  | name :: way, tree =>
    let (entries, refusals) := match tree with
      | .directory entries refusals => (entries, refusals)
      | _ => ([], {})
    match entry? entries name with
    | none => .directory (entries ++ [(name, put node way (.directory [] {}))]) refusals
    | some inner =>
      let inner := put node way inner
      .directory (entries.map fun entry => if entry.1 = name then (name, inner) else entry) refusals

def nodeAt : List FileName → FileTree → Option FileTree
  | [], tree => some tree
  | name :: way, .directory entries _ =>
    match entry? entries name with
    | some node => nodeAt way node
    | none => none
  | _ :: _, _ => none

/-- The place that names lead to from another place. The last name need not be there yet; whether a
link is followed there is for `last` to say. -/
def locate (root : FileTree) (last : Bool) (links : Nat) (place : List FileName) :
    List FileName → Except SystemError (List FileName)
  | [] => .ok place
  | name :: rest =>
    match nodeAt place root with
    | some (.directory entries _) =>
      if name = [46, 46] then locate root last links place.dropLast rest
      else match entry? entries name with
        | none => if rest = [] then .ok (place ++ [name]) else .error .notFound
        | some (.link target) =>
          if rest = [] ∧ !last then .ok (place ++ [name])
          else match links with
            | 0 => .error .tooManyLinks
            | links + 1 =>
              if target = "" ∨ (Path.ofText target).absolute then .error .notFound
              else locate root last links place (names (Text.toUtf8 target) ++ rest)
        | some _ => locate root last links (place ++ [name]) rest
    | some _ => .error .notDirectory
    | none => .error .notFound
termination_by names => (links, names.length)

def isDirectoryAt (root : FileTree) (way : List FileName) : Bool :=
  match locate root true maxLinks [] way with
  | .ok place =>
    match nodeAt place root with
    | some (.directory _ _) => true
    | _ => false
  | .error _ => false

def putNew (root node : FileTree) (way : List FileName) : Except SystemError FileTree := do
  let place ← locate root false maxLinks [] way
  if (nodeAt place root).isSome then .error .alreadyThere else .ok (put node place root)

def makeDirectories (root : FileTree) : List FileName → Except SystemError FileTree
  | [] => .ok root
  | name :: above =>
    let way := (name :: above).reverse
    let unlessThere (root : FileTree) (error : SystemError) : Except SystemError FileTree :=
      if isDirectoryAt root way then .ok root else .error error
    match putNew root (.directory [] {}) way with
    | .ok root => .ok root
    | .error .notFound => do
      let root ← makeDirectories root above
      match putNew root (.directory [] {}) way with
      | .ok root => .ok root
      | .error error => unlessThere root error
    | .error error => unlessThere root error

def makeDirectory (root : FileTree) (path : List UInt8) : Except SystemError FileTree := do
  let root ← makeDirectories root (names path).dropLast.reverse
  if endsInDot path && !isDirectoryAt root (names path) then .error .notFound
  else makeDirectories root (names path).reverse

def writeFile (root : FileTree) (path content : List UInt8) : Except SystemError FileTree := do
  let place ← locate root true maxLinks [] (names path)
  match nodeAt place root with
  | some (.directory _ _) => .error .isDirectory
  | _ => .ok (put (.file (.ok content)) place root)

def makeLink (root : FileTree) (path : List UInt8) (target : String) : Except SystemError FileTree :=
  if target = "" then .error .notFound else putNew root (.link target) (names path)

def build (root : FileTree) (path : List UInt8) (node : FileTree) : Except SystemError FileTree := do
  let root ← makeDirectories root (names path).dropLast.reverse
  match node with
  | .directory _ _ => makeDirectory root path
  | .link target => makeLink root path target
  | .file content => do writeFile root path (← content)
  | .unknown cause => .error cause

end FileTree

end FormatAudit
