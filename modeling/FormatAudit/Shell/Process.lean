import FormatAudit.Shell.Expansion

/-!
Processes: sessions of their own, the streams that lead to and from them, and signals between them.
-/

namespace FormatAudit.Shell

/-- The signals that scripts send, by their names, with what is said of a process that one of them ended. -/
def signals : List (Nat × String × String) :=
  [(1, "HUP", "Hangup"), (2, "INT", "Interrupt"), (3, "QUIT", "Quit"), (6, "ABRT", "Aborted"), (9, "KILL", "Killed"),
    (10, "USR1", "User defined signal 1"), (12, "USR2", "User defined signal 2"), (13, "PIPE", "Broken pipe"),
    (14, "ALRM", "Alarm clock"), (15, "TERM", "Terminated")]

/-- The number of a signal that is named or numbered; zero is the end of a script. -/
def signal? (name : String) : Option Nat :=
  if name.toUpper = "EXIT" then some 0
  else if name ≠ "" && name.toList.all Char.isDigit then (Text.ofDigits 10 name.toList).filter (· ≤ 64)
  else (signals.find? fun signal => signal.2.1 = name.toUpper).map Prod.fst

def signalName (number : Nat) : String :=
  if number = 0 then "EXIT" else (signals.lookup number).elim (toString number) Prod.fst

def harmless : List Nat := [0, 17, 18, 23, 28]

def signalStatus (number : Nat) : Nat := 128 + number

namespace Run

def ensuring {α : Type} (body : Run α) (tidy : Run Unit) : Run α := fun before =>
  let (result, after) := body before
  (result, (tidy after).2)

def caught {α : Type} (body : Run α) : Run (Except Stop α) := fun before =>
  let (result, after) := body before
  (.ok result, after)

/-- Does what the trap for a signal says; without one the process ends, unless the signal is harmless. -/
def signalled (perform : String → Run Unit) (signal : Nat) : Run Unit := do
  let s ← session
  match s.traps.get? (signalName signal) with
  | some "" => pure ()
  | some action => do
    perform action
    setStatus s.status
  | none => if signal ∈ harmless then pure () else throw (.killed signal)

def noteSignals (perform : String → Run Unit) : Run Unit := do
  let s ← session
  let (mine, others) := (← world).pending.partition (·.1 = s.processId)
  modifyWorld fun w => { w with pending := others }
  for (_, signal) in mine.reverse do
    signalled perform signal

def send (perform : String → Run Unit) (processId signal : Nat) : Run Unit := do
  if (← session).processId = processId then signalled perform signal
  else modifyWorld fun w => { w with pending := (processId, signal) :: w.pending }

def inherited (traps : Fields String) : Fields String := traps.filter fun trap => trap.2 = ""

def finished (perform : String → Run Unit) (body : Run Unit) : Run Nat := do
  let statusOf (result : Except Stop Unit) : Run Nat := do
    match result with
    | .error (.exited status) | .error (.returning status) => pure status
    | .error .failed => pure 2
    | .error (.killed signal) => throw (.killed signal)
    | .error .givenUp => throw .givenUp
    | _ => do pure (← session).status
  let status ← statusOf (← caught body)
  match (← session).traps.get? "EXIT" with
  | none | some "" => pure status
  | some action => do
    modifySession fun s => { s with traps := s.traps.erase "EXIT", status := status }
    match ← caught (perform action) with
    | .ok () => pure status
    | result => statusOf result

def reportSignal (signal : Nat) : Run Unit := do
  let description := (signals.lookup signal).elim "Unknown signal" Prod.snd
  if signal ≠ 2 && signal ≠ 13 then write 2 (description ++ "\n").toList

def elsewhere (perform : String → Run Unit) (change : Session → Session) (body : Run Unit) : Run Unit := do
  let before ← session
  modifySession change
  let result ← caught (finished perform body)
  modifySession fun _ => before
  match result with
  | .ok status => setStatus status
  | .error (.killed signal) => do
    reportSignal signal
    setStatus (signalStatus signal)
  | .error stop => throw stop
  noteSignals perform

def subshell (perform : String → Run Unit) (body : Run Unit) : Run Unit := do
  let number ← fresh
  elsewhere perform (fun s => { s with processId := number, traps := inherited s.traps, jobs := [] }) body

def captured (perform : String → Run Unit) (body : Run Unit) : Run (List Char) := do
  let number ← fresh
  modifyWorld (·.addSink number)
  let old := (← session).stream 1
  modifySession (·.setStream 1 (some (.sink number)))
  ensuring (subshell perform body) (modifySession (·.setStream 1 old))
  let chars := (← world).sinkText number
  modifyWorld (·.dropSink number)
  pure chars

def newSource (chars : List Char) : Run Channel := do
  let number ← fresh
  modifyWorld (·.setSource number chars)
  pure (.source number)

inductive RedirectionFault
  | noFile (path : String)
  | noDirectory (path : String)
  | isDirectory (path : String)
  | exists_ (path : String)
  | noDevice (path : String)
  | closed (stream : Nat)

def RedirectionFault.message : RedirectionFault → String
  | noFile path => s!"cannot open {path}: No such file"
  | noDirectory path => s!"cannot create {path}: Directory nonexistent"
  | isDirectory path => s!"cannot create {path}: Is a directory"
  | exists_ path => s!"cannot create {path}: File exists"
  | noDevice path => s!"cannot open {path}: No such device or address"
  | closed stream => s!"{stream}: Bad file descriptor"

def streamOfPath? (path : String) : Option Nat :=
  match path with
  | "/dev/stdin" => some 0
  | "/dev/stdout" => some 1
  | "/dev/stderr" => some 2
  | path =>
    if path.startsWith "/dev/fd/" then Text.ofDigits 10 (path.toList.drop 8)
    else if path.startsWith "/proc/self/fd/" then Text.ofDigits 10 (path.toList.drop 14)
    else none

def openForReading (path name : String) : Run (Except RedirectionFault Channel) := do
  match (← world).disk.entry? path with
  | some (.text content) => do pure (.ok (← newSource content))
  | some _ => pure (.ok .nothing)
  | none => pure (.error (.noFile name))

def openForWriting (path name : String) (empties keepsOld : Bool) : Run (Except RedirectionFault Channel) := do
  let disk := (← world).disk
  match disk.entry? path with
  | some .directory => pure (.error (.isDirectory name))
  | some .device => pure (.ok .nothing)
  | some (.text _) =>
    if keepsOld then pure (.error (.exists_ name))
    else do
      if empties then modifyWorld fun w => { w with disk := w.disk.put path (some (.text [])) }
      pure (.ok (.file path))
  | some .program => pure (.ok .nothing)
  | none =>
    if !disk.hasRoom path then pure (.error (.noDirectory name))
    else do
      modifyWorld fun w => { w with disk := w.disk.put path (some (.text [])) }
      pure (.ok (.file path))

def openTarget (access : Access) (name : String) : Run (Except RedirectionFault Channel) := do
  let s ← session
  let path := Disk.absolute s.directory name
  match streamOfPath? path with
  | some number =>
    match s.stream number with
    | some channel => pure (.ok channel)
    | none => pure (.error (if access = .read then .noFile name else .noDevice name))
  | none =>
    match access with
    | .read | .readWrite => openForReading path name
    | .append => openForWriting path name false false
    | _ => openForWriting path name true (access = .write && s.hasFlag 'C')

def redirect (stream : Nat) (access : Access) (target : String) : Run (Except RedirectionFault Unit) := do
  let lead (channel : Option Channel) : Run (Except RedirectionFault Unit) := do
    modifySession (·.setStream stream channel)
    pure (.ok ())
  match access with
  | .hereText => do lead (some (← newSource target.toList))
  | .copy =>
    if target = "-" then lead none
    else
      match target.toList with
      | [c] =>
        let number := c.toNat - '0'.toNat
        if !c.isDigit then fail ScriptFault.streamNumber.message
        else match (← session).stream number with
          | some channel => lead (some channel)
          | none => do
            modifySession (·.setStream stream none)
            pure (.error (.closed number))
      | _ => fail ScriptFault.streamNumber.message
  | access => do
    match ← openTarget access target with
    | .ok channel => lead (some channel)
    | .error fault => pure (.error fault)

def redirectAll (substitute : Script → Run (List Char)) : List Redirection → Run Bool
  | [] => pure true
  | .to stream access target :: rest => do
    match ← redirect stream access (← text substitute target) with
    | .ok () => redirectAll substitute rest
    | .error fault => do
      complain fault.message
      setStatus 2
      pure false

def keepingStreams {α : Type} (body : Run α) : Run α := do
  let streams := (← session).streams
  ensuring body (modifySession fun s => { s with streams := streams })

def put (chars : List Char) : Run Bool := do
  if chars.isEmpty then pure true
  else if ((← session).stream 1).isNone then pure false
  else do
    write 1 chars
    pure true

end Run

end FormatAudit.Shell
