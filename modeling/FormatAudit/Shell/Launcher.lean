import FormatAudit.Process
import FormatAudit.Shell.Run

/-!
A launcher for a machine with a shell and some programs for texts. Any other name leads to nothing, or to
something that is not a program.
-/

namespace FormatAudit.Shell

def searchPath : String := "/usr/local/sbin:/usr/local/bin:/usr/sbin:/usr/bin:/sbin:/bin"

/-- The bytes that a pipe holds while nothing is read from it, and the units in which it is emptied. -/
def pipeCapacity : Nat := 65536

def pipePage : Nat := 4096

def accepts (size read : Nat) : Bool := size ≤ pipeCapacity + read / pipePage * pipePage

def maxDepth : Nat := 3000

def surroundings : List (String × String) := [("PATH", searchPath), ("HOME", "/root"), ("PWD", "/")]

def machine (name : String) (input : List Char) : Machine where
  world := ⟨[(0, input)], [(1, []), (2, [])], ⟨[]⟩, 4097, []⟩
  session :=
    { name := name, arguments := [], directory := "/"
      store := surroundings.map fun (name, value) => (name, ⟨some value, true, false⟩)
      functions := [], flags := [], traps := [], streams := [(0, .source 0), (1, .sink 1), (2, .sink 2)], status := 0
      line := 0, command := none, loops := 0, substitution := 0, hidden := [], processId := 4096, shellId := 4096
      jobs := [] }

def start (name path : String) (arguments : List String) (input : List UInt8) : Completion :=
  let go : Runner := Run.run maxDepth
  let body : Run Unit :=
    if Disk.fileName path ∈ ["sh", "dash"] then Run.startShell go arguments else go (.program name path arguments)
  let whole : Run Nat := Run.finished (Run.perform go false) body
  let (result, after) := whole (machine name (charsOf input))
  let status : ExitStatus := match result with
    | .ok status => some (status % 256)
    | .error _ => none
  let size := input.length
  ⟨status, bytesOf (after.world.sinkText 1), bytesOf (after.world.sinkText 2),
    if accepts size (size - (after.world.source 0).length) then .ok () else .error .brokenPipe⟩

def found (name : String) : Meaning :=
  let disk : Disk := ⟨[]⟩
  if '/' ∈ name.toList then
    match disk.entry? (Disk.absolute "/" name) with
    | some .program => .program name
    | some _ => .denied
    | none => .unknown
  else
    match (searchPath.splitOn ":").find? fun directory => disk.entry? (directory ++ "/" ++ name) = some .program with
    | some directory => .program (directory ++ "/" ++ name)
    | none => .unknown

def launcher : Launcher := fun invocation =>
  if (invocation.program :: invocation.arguments).any fun s => s.toList.contains '\x00' then
    .error (.other "nul byte found in provided data")
  else
    let name := inward invocation.program
    match found name with
    | .program path => .ok (start name path (invocation.arguments.map inward) invocation.input)
    | .denied => .error .denied
    | _ => .error .notFound

end FormatAudit.Shell
