import FormatAudit.Shell.Builtin.Signals
import FormatAudit.Shell.Program

/-!
Simple commands: their words are expanded, their redirections made and their variables set, and then what
their first word stands for is run.
-/

namespace FormatAudit.Shell.Run

def named {α : Type} (name : String) (body : Run α) : Run α := do
  let before := (← session).command
  modifySession fun s => { s with command := some name }
  ensuring body (modifySession fun s => { s with command := before })

def contained (body : Run Unit) : Run Unit := do
  match ← caught body with
  | .error .failed => setStatus 2
  | .error stop => throw stop
  | .ok () => pure ()

/-- The levels that an argument of `break` or `continue` names, no more than there are. -/
def levels (arguments : List String) : Run Nat := do
  let n ← match arguments with
    | argument :: _ => count argument
    | [] => pure 1
  if n = 0 then fail ("Illegal number: " ++ arguments.headD "")
  pure (min n (← session).loops)

def givenStatus (arguments : List String) : Run Nat := do
  match arguments with
  | argument :: _ => count argument
  | [] => do pure (← session).status

def replaceShell (go : Runner) : List String → Run Unit
  | [] => setStatus 0
  | name :: arguments => do
    let meaning ← if '/' ∈ name.toList then programAt name else inPath name ""
    match meaning with
    | .program path => do
      modifySession fun s => { s with traps := inherited s.traps, command := none }
      go (.program name path arguments)
      throw (.exited (← session).status)
    | .denied => do
      complain s!"{name}: Permission denied"
      throw (.exited 126)
    | _ => do
      complain s!"{name}: not found"
      throw (.exited 127)

def special (go : Runner) (tested : Bool) (name : String) (arguments : List String) : Run Unit := do
  match name with
  | "break" => do
    let n ← levels arguments
    setStatus 0
    if n ≠ 0 then throw (.breaking n)
  | "continue" => do
    let n ← levels arguments
    setStatus 0
    if n ≠ 0 then throw (.continuing n)
  | "eval" => do
    let text := String.intercalate " " arguments
    if text.toList.all isSpace then setStatus 0 else perform go tested text
  | "exec" => do
    let (_, rest) ← options "" "a" arguments
    replaceShell go rest
  | "exit" => do
    let status ← givenStatus arguments
    setStatus (status % 256)
    throw (.exited (status % 256))
  | "return" => do throw (.returning (← givenStatus arguments))
  | "export" => declare (fun v => { v with exported := true }) arguments
  | "readonly" => declare (fun v => { v with fixed := true }) arguments
  | "local" => declareLocal arguments
  | "set" => setArguments arguments
  | "shift" => shift arguments
  | "trap" => trap arguments
  | "unset" => unset arguments
  | _ => setStatus 0

def command (run : Meaning → List String → Run Unit) (arguments : List String) : Run Unit := do
  let (found, rest) ← named "command" (options "pvV" "" arguments)
  match found.getLast?.map Prod.fst, rest with
  | some 'v', name :: _ => describe true [name]
  | some 'V', names => describe false names
  | _, [] => setStatus 0
  | _, name :: rest => do run (← meaning name false) (name :: rest)

def regular (go : Runner) (name : String) (arguments : List String) : Run Unit := do
  match name with
  | "[" | "test" => test name arguments
  | "cd" => changeDirectory arguments
  | "echo" => echo arguments
  | "false" => setStatus 1
  | "kill" => kill (perform go false) arguments
  | "printf" => printf arguments
  | "pwd" => printDirectory arguments
  | "read" => read arguments
  | "type" => describe false arguments
  | "wait" => wait arguments
  | _ => setStatus 0

def callFunction (go : Runner) (tested : Bool) (body : Script) (arguments : List String) : Run Unit := do
  let before ← session
  modifySession fun s => { s with arguments := arguments, loops := 0, hidden := [] :: s.hidden }
  let result ← caught (go (.script tested body))
  restoreVariables ((← session).hidden.headD [])
  modifySession fun s =>
    { s with arguments := before.arguments, loops := before.loops, hidden := before.hidden }
  match result with
  | .error (.returning status) => setStatus status
  | .error stop => throw stop
  | .ok () => pure ()

/-- Runs what a word stands for, with the word in front of its arguments. Only one that was not asked for by
way of another command ends the shell by its faults. -/
def start (go : Runner) (tested : Bool) : (fuel : Nat) → Meaning → List String → Run Unit
  | 0, _, _ | _, _, [] => pure ()
  | fuel + 1, meaning, name :: arguments =>
    match meaning with
    | .special => named name (special go tested name arguments)
    | .function body => callFunction go tested body arguments
    | .regular =>
      if name = "command" then
        contained (command (fun meaning words => contained (start go tested fuel meaning words)) arguments)
      else contained (named name (regular go name arguments))
    | .program path => go (.program name path arguments)
    | .denied => do
      complain s!"{name}: Permission denied"
      setStatus 126
    | .unknown => do
      complain (if name = "" then ": Permission denied" else s!"{name}: not found")
      setStatus 127

def showTrace (errors : Option Channel) (assignments : List (String × String)) (fields : List String) : Run Unit := do
  let s ← session
  if s.hasFlag 'x' && !(assignments.isEmpty && fields.isEmpty) then
    let line := String.intercalate " " (assignments.map (fun (name, value) => name ++ "=" ++ value) ++ fields)
    match errors with
    | some channel => modifyWorld (·.write channel (((s.value? "PS4").getD "") ++ line ++ "\n").toList)
    | none => pure ()

def assignAll (go : Runner) : List (String × Word) → Run (List (String × String))
  | [] => pure []
  | (name, word) :: rest => do
    let value ← value (substitute go) word
    setVariable name value
    pure ((name, value) :: (← assignAll go rest))

def withAssignments (go : Runner) (assignments : List (String × Word)) (body : List (String × String) → Run Unit) :
    Run Unit := do
  if assignments.isEmpty then body []
  else
    let before := (← session).store
    let names := assignments.map Prod.fst
    let whole : Run Unit := do
      let values ← assignAll go assignments
      for name in names do
        mark name fun v => { v with exported := true }
      body values
    ensuring whole (restoreVariables (names.map fun name => (name, before.get? name)))

def commandFields (go : Runner) (words : List Word) : Run (List String) := do
  match words with
  | [] => pure []
  | first :: rest =>
    let declares := (Word.plain? first).any fun chars => String.ofList chars ∈ ["export", "readonly", "local"]
    if declares then
      let head ← fields (substitute go) [first]
      let tail ← rest.mapM fun word =>
        match Word.assignment? word with
        | some (name, word) => do pure [name ++ "=" ++ (← value (substitute go) word)]
        | none => fields (substitute go) [word]
      pure (head ++ tail.flatten)
    else fields (substitute go) words

def simple (go : Runner) (tested : Bool) (line : Nat) (assignments : List (String × Word)) (words : List Word)
    (redirections : List Redirection) : Run Unit := do
  modifySession fun s => { s with line := line, substitution := 0 }
  let errors := (← session).stream 2
  let found ← commandFields go words
  let redirected : Run Bool := redirectAll (substitute go) redirections
  match found with
  | [] =>
    keepingStreams do
      if ← redirected then
        let values ← assignAll go assignments
        showTrace errors values []
        setStatus (← session).substitution
  | name :: _ =>
    let steps := found.length + 1
    if name ∈ specialNames then
      let body : Run Unit := do
        if !(← redirected) then throw .failed
        let values ← assignAll go assignments
        showTrace errors values found
        start go tested steps .special found
      if name = "exec" then body else keepingStreams body
    else
      keepingStreams do
        if ← redirected then
          withAssignments go assignments fun values => do
            showTrace errors values found
            start go tested steps (← meaning name true) found
  noteSignals (perform go false)
  checkStatus tested

end FormatAudit.Shell.Run
