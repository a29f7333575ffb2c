import FormatAudit.Shell.Command

/-!
Running scripts. How deep tasks can be nested is limited, and so is how often a loop goes round; a run that
comes to such a limit is given up.
-/

namespace FormatAudit.Shell.Run

def afterRound (result : Except Stop Unit) : Run Bool :=
  match result with
  | .ok () | .error (.continuing 1) => pure true
  | .error (.breaking 1) => pure false
  | .error (.breaking levels) => throw (.breaking (levels - 1))
  | .error (.continuing levels) => throw (.continuing (levels - 1))
  | .error stop => throw stop

/-- Runs a body for as long as its condition has the wanted outcome, in at most so many rounds. The
status is that of the last round. -/
def rounds (wanted : Bool) (condition body : Run Unit) : (limit status : Nat) → Run Unit
  | 0, _ => throw .givenUp
  | limit + 1, status => do
    let result ← caught condition
    match result with
    | .ok () =>
      if (← succeeded) = wanted then
        if ← afterRound (← caught body) then rounds wanted condition body limit (← session).status
      else setStatus status
    | result => if ← afterRound result then rounds wanted condition body limit status

def maxRounds : Nat := 10000000

def inLoop (body : Run Unit) : Run Unit := do
  let loops := (← session).loops
  modifySession fun s => { s with loops := loops + 1 }
  ensuring body (modifySession fun s => { s with loops := loops })

def forEach (name : String) (body : Run Unit) : List String → Run Unit
  | [] => pure ()
  | value :: rest => do
    setVariable name value
    if ← afterRound (← caught body) then forEach name body rest

def pipe (go : Runner) (tested : Bool) : List Script → Run Unit
  | [] => pure ()
  | [last] => aside go (go (.script tested last))
  | first :: rest => do
    let chars ← captured (perform go false) (go (.script tested first))
    let old := (← session).stream 0
    let source ← newSource chars
    modifySession (·.setStream 0 (some source))
    ensuring (pipe go tested rest) (modifySession (·.setStream 0 old))
    match source with
    | .source number => modifyWorld (·.dropSource number)
    | _ => pure ()

def background (go : Runner) (body : Run Unit) : Run Unit := do
  let before ← session
  let number := (← world).next
  modifySession (·.setStream 0 (some .nothing))
  aside go body
  let job : Job := ⟨number, (← session).status⟩
  modifySession fun _ => { before with status := 0, jobs := job :: before.jobs }

def armFor? (go : Runner) (subject : List Char) : List (List Word × Script) → Run (Option Script)
  | [] => pure none
  | (words, script) :: rest => do
    let patterns ← words.mapM (pattern (substitute go))
    if patterns.any (·.fits subject) then pure (some script) else armFor? go subject rest

def isEmpty : Script → Bool
  | .sequence [] => true
  | _ => false

def step (go : Runner) : Task → Run Unit
  | .program name path arguments => program go name path arguments
  | .script tested script => do
    let inner (part : Script) : Run Unit := if isEmpty part then setStatus 0 else go (.script tested part)
    match script with
    | .simple line assignments words redirections => simple go tested line assignments words redirections
    | .sequence parts =>
      for part in parts do
        go (.script tested part)
    | .background body => background go (go (.script tested body))
    | .both first second => do
      go (.script true first)
      if ← succeeded then go (.script tested second)
    | .either first second => do
      go (.script true first)
      if !(← succeeded) then go (.script tested second)
    | .negation body => do
      go (.script true body)
      setStatus (if ← succeeded then 1 else 0)
    | .pipe parts => do
      pipe go tested parts
      checkStatus tested
    | .subshell line body => do
      modifySession fun s => { s with line := line }
      aside go (go (.script tested body))
      checkStatus tested
    | .redirected line body redirections => do
      modifySession fun s => { s with line := line }
      keepingStreams do
        if ← redirectAll (substitute go) redirections then go (.script tested body)
    | .branch condition yes no => do
      go (.script true condition)
      if ← succeeded then inner yes else inner no
    | .loop wanted condition body =>
      inLoop (rounds wanted (go (.script true condition)) (go (.script tested body)) maxRounds 0)
    | .each line name words body => do
      modifySession fun s => { s with line := line }
      let values ← fields (substitute go) words
      if values.isEmpty then setStatus 0
      inLoop (forEach name (go (.script tested body)) values)
    | .choice line subject arms => do
      modifySession fun s => { s with line := line }
      let subject ← text (substitute go) subject
      match ← armFor? go subject.toList arms with
      | some body => inner body
      | none => setStatus 0
    | .define name body => do
      modifySession fun s => { s with functions := s.functions.insert name body, status := 0 }

def run : (depth : Nat) → Runner
  | 0, _ => throw .givenUp
  | depth + 1, task => step (run depth) task

end FormatAudit.Shell.Run
