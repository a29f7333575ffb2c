import FormatAudit.Shell.Builtin.Basic
import FormatAudit.Shell.Condition
import FormatAudit.Shell.Printf

/-!
Commands that read and write, and that ask what there is.
-/

namespace FormatAudit.Shell.Run

def echo (arguments : List String) : Run Unit := do
  let (ends, arguments) := match arguments with
    | "-n" :: rest => (false, rest)
    | arguments => (true, arguments)
  let rec joined : List String → List Char × Bool
    | [] => ([], false)
    | argument :: rest =>
      let (chars, ended) := unescaped argument.toList
      if ended then (chars, true)
      else if rest.isEmpty then (chars, false)
      else
        let (more, ended) := joined rest
        (chars ++ ' ' :: more, ended)
  let (chars, ended) := joined arguments
  putOut (String.ofList (if ends && !ended then chars ++ ['\n'] else chars))

def printf (arguments : List String) : Run Unit := do
  let (_, arguments) ← options "" "" arguments
  match arguments with
  | [] => fail "usage: printf format [arg ...]"
  | format :: arguments => do
    let printing := Printf.print format arguments
    for message in printing.messages.reverse do
      complain message
    match printing.fault with
    | some fault => do
      complain fault
      let _ ← put printing.chars.reverse
      setStatus 2
    | none => do
      putOut (String.ofList printing.chars.reverse)
      if !printing.messages.isEmpty then setStatus 1

def test (name : String) (arguments : List String) : Run Unit := do
  let words ← if name = "[" then
      if arguments.getLast? = some "]" then pure arguments.dropLast else fail "missing ]"
    else pure arguments
  let s ← session
  let disk := (← world).disk
  let around : Condition.Surroundings :=
    ⟨fun path => if path = "" then none else disk.entry? (Disk.absolute s.directory path)⟩
  match Condition.evaluate around words with
  | .ok value => setStatus (if value then 0 else 1)
  | .error fault => fail fault.message

abbrev Read := Char × Bool

/-- Reads a line: what is in it, what is left behind it, and whether it had an end. Unless lines are read
raw, a backslash makes the next character plain and joins lines. -/
def readLine (raw : Bool) : List Char → List Read × List Char × Bool
  | [] => ([], [], false)
  | c :: rest =>
    if c = '\n' then ([], rest, true)
    else if c = '\\' && !raw then
      match rest with
      | [] => ([], [], false)
      | d :: rest =>
        let (line, left, ended) := readLine raw rest
        (if d = '\n' then line else (d, true) :: line, left, ended)
    else
      let (line, left, ended) := readLine raw rest
      (if c = '\x00' then line else (c, false) :: line, left, ended)

def isSeparator (separators : List Char) (r : Read) : Bool := !r.2 && r.1 ∈ separators

def isBlankSeparator (separators : List Char) (r : Read) : Bool :=
  isSeparator separators r && (r.1 = ' ' || r.1 = '\t' || r.1 = '\n')

def behindSeparator (separators : List Char) (line : List Read) : List Read :=
  let blanks := List.dropWhile (isBlankSeparator separators)
  match blanks line with
  | r :: rest => if isSeparator separators r then blanks rest else r :: rest
  | [] => []

def shares (separators : List Char) : (count : Nat) → List Read → List (List Read)
  | 0, _ => []
  | 1, line =>
    let line := (line.reverse.dropWhile (isBlankSeparator separators)).reverse
    let first := line.takeWhile fun r => !isSeparator separators r
    [if (behindSeparator separators (line.drop first.length)).isEmpty then first else line]
  | count + 2, line =>
    let first := line.takeWhile fun r => !isSeparator separators r
    first :: shares separators (count + 1) (behindSeparator separators (line.drop first.length))

def read (arguments : List String) : Run Unit := do
  let (found, names) ← options "r" "p" arguments
  if names.isEmpty then fail "arg count"
  match names.find? fun name => !isName name.toList with
  | some name => fail s!"{name}: bad variable name"
  | none => do
    let (line, left, ended) := readLine (found.any (·.1 = 'r')) (← input)
    leave left
    let separators ← separators
    let values := shares separators names.length (line.dropWhile (isBlankSeparator separators))
    for (name, value) in names.zip values do
      setVariable name (String.ofList (value.map Prod.fst))
    setStatus (if ended then 0 else 1)

def changeDirectory (arguments : List String) : Run Unit := do
  let (_, rest) ← options "LP" "" arguments
  let s ← session
  let (target, tells) := match rest with
    | [] => ((s.value? "HOME").getD "", false)
    | "-" :: _ => ((s.value? "OLDPWD").getD "", true)
    | target :: _ => (target, false)
  let path := if target = "" then s.directory else Disk.absolute s.directory target
  if (← world).disk.isDirectory path then
    modifySession fun s => { s with directory := path }
    setVariable "OLDPWD" s.directory
    setVariable "PWD" path
    if tells then write 1 (path ++ "\n").toList
    setStatus 0
  else fail s!"can't cd to {target}"

def printDirectory (arguments : List String) : Run Unit := do
  let _ ← options "LP" "" arguments
  putOut ((← session).directory ++ "\n")

end FormatAudit.Shell.Run
