import FormatAudit.Shell.Builtin.Streams
import FormatAudit.Shell.Builtin.Variables
import FormatAudit.Shell.Task
import FormatAudit.Shell.Tool.Named

/-!
Running programs: the shell again, and those that only work on texts.
-/

namespace FormatAudit.Shell.Run

def visibleFiles : Run Files := do
  let directory := (← session).directory
  let disk := (← world).disk
  pure fun path =>
    match disk.entry? (Disk.absolute directory path) with
    | some .directory => .error "Is a directory"
    | some (.text content) => .ok content
    | some _ => .ok []
    | none => .error "No such file or directory"

def useTool (tool : Tool) (arguments : List String) : Run Unit := do
  let effect := tool (← visibleFiles) arguments (← input)
  leave effect.left
  setStatus effect.status
  for (stream, chars) in effect.written do
    write stream chars

/-- `echo` as a program of its own, which knows escapes only if it is asked to. -/
def echoProgram (arguments : List String) : Run Unit := do
  let isOption (s : String) : Bool :=
    match s.toList with
    | '-' :: c :: more => (c :: more).all (· ∈ ['n', 'e', 'E'])
    | _ => false
  let found := arguments.takeWhile isOption
  let letters := found.flatMap String.toList
  let text := String.intercalate " " (arguments.drop found.length)
  let (chars, ended) := if 'e' ∈ letters then unescaped text.toList else (text.toList, false)
  putOut (String.ofList (if 'n' ∈ letters || ended then chars else chars ++ ['\n']))

structure Start where
  commandWanted : Bool
  readsInput : Bool
  rest : List String

def startFlags (start : Start) : List String → Run Start
  | [] => pure start
  | argument :: rest => do
    match argument.toList with
    | ['-'] | ['-', '-'] => pure { start with rest := rest }
    | sign :: letters =>
      if sign ≠ '-' && sign ≠ '+' then pure { start with rest := argument :: rest }
      else do
        let mut start := start
        for letter in letters do
          if letter = 'c' then start := { start with commandWanted := true }
          else if letter = 's' then start := { start with readsInput := true }
          else if letter = 'l' || letter = 'o' then pure ()
          else if flagNames.any (·.2 = letter) then setFlag (sign = '-') letter
          else fail s!"Illegal option -{letter}"
        match if 'o' ∈ letters then rest else [] with
        | [] => startFlags start rest
        | name :: _ => do
          match flagNames.lookup name with
          | some flag => setFlag (sign = '-') flag
          | none => fail s!"Illegal option -o {name}"
          startFlags start (rest.drop 1)
    | [] => pure { start with rest := argument :: rest }
termination_by arguments => arguments.length
decreasing_by all_goals simp only [List.length_drop, List.length_cons]; omega

def newShell (name : String) (processId : Nat) (s : Session) : Session :=
  { s with
    name := name, arguments := [], store := s.store.filter fun v => v.2.exported, functions := [], flags := [],
    traps := inherited s.traps, line := 0, command := none, loops := 0, substitution := 0, hidden := [], status := 0,
    processId := processId, shellId := processId, jobs := [] }

def initialVariables : List (String × String) :=
  [("IFS", " \t\n"), ("PS4", "+ ")]

def startShell (go : Runner) (arguments : List String) : Run Unit := do
  for (name, value) in initialVariables do
    setVariable name value
  let start ← startFlags ⟨false, false, []⟩ arguments
  let called (rest : List String) : Run Unit :=
    match rest with
    | name :: arguments => modifySession fun s => { s with name := name, arguments := arguments }
    | [] => pure ()
  if start.commandWanted then
    match start.rest with
    | [] => fail "-c requires an argument"
    | source :: rest => do
      called rest
      perform go false source
  else if start.readsInput || start.rest.isEmpty then
    modifySession fun s => { s with arguments := start.rest }
    let text ← input
    leave []
    perform go false (String.ofList text)
  else
    let path := start.rest.headD ""
    match (← world).disk.entry? (Disk.absolute (← session).directory path) with
    | none => fail s!"cannot open {path}: No such file"
    | some (.text content) => do
      called start.rest
      perform go false (String.ofList content)
    | some _ => pure ()

def shell (go : Runner) (name : String) (arguments : List String) : Run Unit := do
  let number ← fresh
  elsewhere (perform go false) (newShell name number) (startShell go arguments)

def program (go : Runner) (called path : String) (arguments : List String) : Run Unit := do
  let name := Disk.fileName path
  match name with
  | "sh" | "dash" | "bash" => shell go called arguments
  | "true" => setStatus 0
  | "false" => setStatus 1
  | "echo" => echoProgram arguments
  | "pwd" => printDirectory []
  | "printf" => printf arguments
  | "test" | "[" => do
    match ← caught (test name arguments) with
    | .error .failed => setStatus 2
    | .error stop => throw stop
    | .ok () => pure ()
  | name => ((Tool.byName.lookup name).map fun tool => useTool tool arguments).getD (setStatus 0)

end FormatAudit.Shell.Run
