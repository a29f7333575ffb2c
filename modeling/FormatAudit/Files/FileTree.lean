import FormatAudit.Files.Path
import FormatAudit.SystemError
import FormatAudit.Text.Utf8

/-!
Trees of files, and following paths in them. A path can be followed anywhere, or inside a directory that
it must not leave: then a step above that directory and a link to an absolute path are refused. What the
system refuses is part of a tree: files that cannot be read, directories that cannot be searched or
listed, and nodes of which it cannot be told what they are.
-/

namespace FormatAudit

abbrev FileName := List UInt8

/-- What is refused at a directory: to go through it, and to list more than so many of its entries. -/
structure Refusals where
  search : Option SystemError := none
  listing : Option (Nat × SystemError) := none

inductive FileTree
  | file (content : Except SystemError (List UInt8))
  | directory (entries : List (FileName × FileTree)) (refusals : Refusals)
  | link (target : String)
  | unknown (cause : SystemError)

namespace FileTree

def entry? : List (FileName × FileTree) → FileName → Option FileTree
  | [], _ => none
  | (name, node) :: rest, sought => if name = sought then some node else entry? rest sought

def isFile : FileTree → Except SystemError Bool
  | file _ => .ok true
  | directory _ _ | link _ => .ok false
  | unknown cause => .error cause

def content : FileTree → Except SystemError String
  | file bytes => do (Text.ofUtf8 (← bytes)).mapError fun _ => .notText
  | directory _ _ => .error .isDirectory
  | link _ => .error .notFound
  | unknown cause => .error cause

/-- The entries in their order. A listing that breaks off has an error in place of the next one. -/
def listing : FileTree → List (Except SystemError (FileName × FileTree))
  | directory entries refusals =>
    match refusals.listing with
    | none => entries.map .ok
    | some (count, cause) => (entries.take count).map .ok ++ [.error cause]
  | unknown cause => [.error cause]
  | _ => [.error .notDirectory]

def steps (s : String) : List String :=
  let path := Path.ofText s
  let last := (Path.pieces s.toList).getLast?
  path.components ++ if last.any (!Path.isPlain ·) then ["."] else []

def maxLinks : Nat := 40

def maxNameLength : Nat := 255

def maxPathLength : Nat := 4095

/-- How far paths lead: anywhere from a root, or nowhere but below the directory that they start in. -/
inductive Reach
  | anywhere (root : FileTree)
  | inside

/-- Follows steps from the first of the open directories, each of which is inside the next. The root is
above itself. -/
def follow (reach : Reach) (links : Nat) (current : FileTree) (above : List FileTree) :
    List String → Except SystemError FileTree
  | [] => .ok current
  | step :: rest =>
    match current with
    | .directory entries refusals =>
      match refusals.search with
      | some cause => .error cause
      | none =>
        if step = "." then follow reach links current above rest
        else if step = ".." then
          match above, reach with
          | parent :: above, _ => follow reach links parent above rest
          | [], .anywhere _ => follow reach links current [] rest
          | [], .inside => .error .outside
        else if maxNameLength < step.utf8ByteSize then .error .nameTooLong
        else match entry? entries (Text.toUtf8 step) with
          | none => .error .notFound
          | some (.link target) =>
            match links with
            | 0 => .error .tooManyLinks
            | links + 1 =>
              if target = "" then .error .notFound
              else if (Path.ofText target).absolute then
                match reach with
                | .anywhere root => follow reach links root [] (steps target ++ rest)
                | .inside => .error .outside
              else follow reach links current above (steps target ++ rest)
          | some node => follow reach links node (current :: above) rest
    | .unknown cause => .error cause
    | _ => .error .notDirectory
termination_by steps => (links, steps.length)

def readInside (directory : FileTree) (s : String) : Except SystemError String :=
  if s = "" then .error .notFound
  else if s.contains '\x00' then .error .invalid
  else if maxPathLength < s.utf8ByteSize then .error .nameTooLong
  else if (Path.ofText s).absolute then .error .outside
  else do content (← follow .inside maxLinks directory [] (steps s))

end FileTree

end FormatAudit
