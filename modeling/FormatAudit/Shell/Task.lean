import FormatAudit.Shell.Process
import FormatAudit.Shell.Token.Reading

/-!
What there is to run: scripts and programs. Whoever runs a part of one does it through a function that runs
tasks, which is handed down.
-/

namespace FormatAudit.Shell

/-- Something to run. The outcome of a script is tested when something depends on it, so that a failure
does not end the shell. A program has the name by which it was called and the path that it was found at. -/
inductive Task
  | script (tested : Bool) (script : Script)
  | program (name path : String) (arguments : List String)

abbrev Runner := Task → Run Unit

namespace Run

def commands (go : Runner) (tested : Bool) : (fuel : Nat) → List Lexeme → Run Unit
  | 0, _ => pure ()
  | fuel + 1, lexemes =>
    match lexemes with
    | [] | ⟨.textEnd, _⟩ :: _ => pure ()
    | lexemes =>
      match Script.Parser.line.run lexemes with
      | .error (fault, line) => do
        modifySession fun s => { s with line := line }
        fail fault.message
      | .ok (scripts, rest) => do
        for script in scripts do
          if !(← session).hasFlag 'n' then go (.script tested script)
        commands go tested fuel rest

def perform (go : Runner) (tested : Bool) (text : String) : Run Unit := do
  let lexemes := Lexeme.ofText text.toList
  commands go tested (lexemes.length + 1) lexemes

def aside (go : Runner) (body : Run Unit) : Run Unit := subshell (perform go false) body

def substitute (go : Runner) (script : Script) : Run (List Char) := do
  let before := (← session).status
  let chars ← captured (perform go false) (go (.script false script))
  let after := (← session).status
  modifySession fun s => { s with status := before, substitution := after }
  pure chars

def checkStatus (tested : Bool) : Run Unit := do
  let s ← session
  if s.status ≠ 0 && !tested && s.hasFlag 'e' then throw (.exited s.status)

end Run

end FormatAudit.Shell
