import FormatAudit.Shell.Builtin.Basic

/-!
Commands about signals and processes in the background.
-/

namespace FormatAudit.Shell.Run

def trap (arguments : List String) : Run Unit := do
  let (_, arguments) ← options "" "" arguments
  match arguments with
  | [] => setStatus 0
  | first :: rest => do
    let isNumber := first ≠ "" && first.toList.all Char.isDigit
    let (action, names) := if isNumber || rest.isEmpty then ("-", first :: rest) else (first, rest)
    setStatus 0
    for name in names do
      match signal? name with
      | none => do
        write 2 s!"trap: {name}: bad trap\n".toList
        setStatus 1
        return
      | some number => do
        let name := signalName number
        modifySession fun s =>
          { s with traps := if action = "-" then s.traps.erase name else s.traps.insert name action }

def signalOf (arguments : List String) : Run (Nat × List String) := do
  let named (name : String) (rest : List String) : Run (Nat × List String) := do
    match signal? name with
    | some number => pure (number, rest)
    | none => fail s!"invalid signal number or name: {name}"
  match arguments with
  | "-s" :: name :: rest => named name rest
  | "--" :: rest => pure (15, rest)
  | first :: rest =>
    match first.toList with
    | '-' :: c :: more =>
      match signal? (String.ofList (c :: more)) with
      | some number => pure (number, rest)
      | none => fail s!"Illegal option -{c}"
    | _ => pure (15, first :: rest)
  | [] => pure (15, [])

def kill (perform : String → Run Unit) (arguments : List String) : Run Unit := do
  match arguments with
  | [] => fail "Usage: kill [-s sigspec | -signum | -sigspec] [pid | job]... or\nkill -l [exitstatus]"
  | arguments => do
    let (signal, targets) ← signalOf arguments
    setStatus 0
    for target in targets do
      let number ← match target.toList with
        | '%' :: _ => pure (((← session).jobs.head?.map Job.processId).getD 0)
        | _ => count target
      let s ← session
      if s.jobs.any (·.processId = number) then pure ()
      else if number = s.shellId || number = s.processId then
        if signal ≠ 0 then send perform number signal
      else
        complain "No such process\n"
        setStatus 1

def wait (arguments : List String) : Run Unit := do
  let jobs := (← session).jobs
  match arguments with
  | [] => modifySession fun s => { s with jobs := [], status := 0 }
  | arguments =>
    for argument in arguments do
      let number ← match argument.toList with
        | '%' :: _ => pure ((jobs.head?.map Job.processId).getD 0)
        | _ => count argument
      setStatus (((jobs.find? (·.processId = number)).map Job.status).getD 127)

end FormatAudit.Shell.Run
