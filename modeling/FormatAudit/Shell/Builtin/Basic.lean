import FormatAudit.Shell.Process
import FormatAudit.Shell.Token.Basic

/-!
Commands of the shell itself: their names, their options, and what a name stands for.
-/

namespace FormatAudit.Shell

def specialNames : List String :=
  [":", "break", "continue", "eval", "exec", "exit", "export", "local", "readonly", "return", "set", "shift", "trap",
    "unset"]

def regularNames : List String :=
  ["[", "cd", "command", "echo", "false", "kill", "printf", "pwd", "read", "test", "true", "type", "wait"]

inductive Meaning
  | special
  | function (body : Script)
  | regular
  | program (path : String)
  | denied
  | unknown

namespace Run

def options (plain valued : String) : List String → Run (List (Char × String) × List String)
  | [] => pure ([], [])
  | argument :: rest =>
    match argument.toList with
    | ['-', '-'] => pure ([], rest)
    | '-' :: c :: more => do
      match ← cluster (c :: more) with
      | (found, none) => do
        let (others, rest) ← options plain valued rest
        pure (found ++ others, rest)
      | (found, some letter) =>
        match rest with
        | value :: rest => do
          let (others, rest) ← options plain valued rest
          pure (found ++ (letter, value) :: others, rest)
        | [] => fail s!"No arg for -{letter} option"
    | _ => pure ([], argument :: rest)
where
  cluster : List Char → Run (List (Char × String) × Option Char)
    | [] => pure ([], none)
    | c :: more =>
      if c ∈ plain.toList then do
        let (others, waiting) ← cluster more
        pure ((c, "") :: others, waiting)
      else if c ∈ valued.toList then
        pure (if more.isEmpty then ([], some c) else ([(c, String.ofList more)], none))
      else fail s!"Illegal option -{c}"

def count (argument : String) : Run Nat := do
  let s := argument.toList.dropWhile isSpace
  let s := if s.head? = some '+' then s.drop 1 else s
  let digits := s.takeWhile Char.isDigit
  match if (s.drop digits.length).all isSpace && !digits.isEmpty then Text.ofDigits 10 digits else none with
  | some n => if n < Nat.pow 2 31 then pure n else fail s!"Illegal number: {argument}"
  | none => fail s!"Illegal number: {argument}"

def putOut (text : String) : Run Unit := do
  if ← put text.toList then setStatus 0
  else do
    let name := (← session).command.getD ""
    complain s!"{name}: I/O error"
    setStatus 1

def programAt (path : String) : Run Meaning := do
  let directory := (← session).directory
  match (← world).disk.entry? (Disk.absolute directory path) with
  | some .program => pure (.program path)
  | some _ => pure .denied
  | none => pure .unknown

/-- The first program with a name in the directories of the search path, or of another one if there is none. -/
def inPath (name : String) (otherwise : String) : Run Meaning := do
  let s ← session
  let directories := ((s.value? "PATH").getD otherwise).splitOn ":"
  let disk := (← world).disk
  let path (directory : String) := if directory = "" then name else directory ++ "/" ++ name
  let isProgram (directory : String) : Bool := disk.entry? (Disk.absolute s.directory (path directory)) = some .program
  pure ((directories.find? isProgram).elim .unknown fun directory => .program (path directory))

def meaning (name : String) (functions : Bool) : Run Meaning := do
  if '/' ∈ name.toList then programAt name
  else if name ∈ specialNames then pure .special
  else
    let found := (← session).functions.get? name
    match if functions then found else none with
    | some body => pure (.function body)
    | none => if name ∈ regularNames then pure .regular else inPath name ""

def describe (brief : Bool) (names : List String) : Run Unit := do
  setStatus 0
  for name in names do
    if name ∈ keywords then say name brief "a shell keyword"
    else match ← meaning name true with
      | .special => say name brief "a special shell builtin"
      | .function _ => say name brief "a shell function"
      | .regular => say name brief "a shell builtin"
      | .program path => write 1 ((if brief then path else s!"{name} is {path}") ++ "\n").toList
      | _ => do
        if !brief then write 1 s!"{name}: not found\n".toList
        setStatus 127
where
  say (name : String) (brief : Bool) (kind : String) : Run Unit :=
    write 1 ((if brief then name else s!"{name} is {kind}") ++ "\n").toList

end Run

end FormatAudit.Shell
