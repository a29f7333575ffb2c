import FormatAudit.Shell.Disk
import FormatAudit.Shell.Script
import FormatAudit.Shell.Text

/-!
What scripts can see and change. A world of channels and files is common to all processes; a session is
what one of them has for itself. A run goes on with both, and it may stop before its script does. Processes
run one after the other, also those that would run side by side.
-/

namespace FormatAudit.Shell

structure Variable where
  value : Option String
  exported : Bool
  fixed : Bool
  deriving DecidableEq, Repr

inductive Channel
  | source (number : Nat)
  | sink (number : Nat)
  | file (path : String)
  | nothing
  deriving DecidableEq, Repr

/-- What is left in the sources, what was written to the sinks, the last of it first, and the files. -/
structure World where
  sources : List (Nat × List Char)
  sinks : List (Nat × List (List Char))
  disk : Disk
  next : Nat
  pending : List (Nat × Nat)

structure Job where
  processId : Nat
  status : Nat

structure Session where
  name : String
  arguments : List String
  directory : String
  store : Fields Variable
  functions : Fields Script
  flags : List Char
  traps : Fields String
  streams : List (Nat × Channel)
  status : Nat
  line : Nat
  command : Option String
  loops : Nat
  /-- The status of the last substitution in the command that is running. -/
  substitution : Nat
  /-- For each function that is running, the variables as they were before it made them its own. -/
  hidden : List (Fields (Option Variable))
  /-- The number of the process, and that of the one from which its shell started. -/
  processId : Nat
  shellId : Nat
  jobs : List Job

inductive Stop
  | exited (status : Nat)
  | failed
  | breaking (levels : Nat)
  | continuing (levels : Nat)
  | returning (status : Nat)
  | killed (signal : Nat)
  | givenUp
  deriving DecidableEq, Repr

structure Machine where
  world : World
  session : Session

abbrev Run := ExceptT Stop (StateM Machine)

namespace World

def source (w : World) (number : Nat) : List Char := (w.sources.lookup number).getD []

def setSource (w : World) (number : Nat) (rest : List Char) : World :=
  { w with sources := (number, rest) :: w.sources.filter (·.1 ≠ number) }

def dropSource (w : World) (number : Nat) : World := { w with sources := w.sources.filter (·.1 ≠ number) }

def addSink (w : World) (number : Nat) : World := { w with sinks := (number, []) :: w.sinks }

def dropSink (w : World) (number : Nat) : World := { w with sinks := w.sinks.filter (·.1 ≠ number) }

def sinkText (w : World) (number : Nat) : List Char := ((w.sinks.lookup number).getD []).reverse.flatten

def write (w : World) (channel : Channel) (chars : List Char) : World :=
  match channel with
  | .sink number =>
    { w with
      sinks := w.sinks.map fun (other, written) => (other, if other = number then chars :: written else written) }
  | .file path => { w with disk := w.disk.append path chars }
  | _ => w

end World

namespace Session

def stream (s : Session) (number : Nat) : Option Channel := s.streams.lookup number

def setStream (s : Session) (number : Nat) (channel : Option Channel) : Session :=
  let others := s.streams.filter (·.1 ≠ number)
  { s with streams := match channel with
    | some channel => (number, channel) :: others
    | none => others }

def value? (s : Session) (name : String) : Option String := (s.store.get? name).bind Variable.value

def hasFlag (s : Session) (flag : Char) : Bool := flag ∈ s.flags

end Session

namespace Run

def session : Run Session := do pure (← getThe Machine).session

def world : Run World := do pure (← getThe Machine).world

def modifySession (f : Session → Session) : Run Unit := modify fun m => { m with session := f m.session }

def modifyWorld (f : World → World) : Run Unit := modify fun m => { m with world := f m.world }

def setStatus (status : Nat) : Run Unit := modifySession fun s => { s with status := status }

def succeeded : Run Bool := do pure ((← session).status = 0)

def fresh : Run Nat := do
  let w ← world
  modifyWorld fun w => { w with next := w.next + 1 }
  pure w.next

def write (stream : Nat) (chars : List Char) : Run Unit := do
  match (← session).stream stream with
  | some channel => if chars.isEmpty then pure () else modifyWorld (·.write channel chars)
  | none => pure ()

def input : Run (List Char) := do
  match (← session).stream 0 with
  | some (.source number) => do pure ((← world).source number)
  | _ => pure []

def leave (rest : List Char) : Run Unit := do
  match (← session).stream 0 with
  | some (.source number) => modifyWorld (·.setSource number rest)
  | _ => pure ()

def heading : Run String := do
  let s ← session
  pure (s!"{s.name}: {s.line}: " ++ s.command.elim "" (· ++ ": "))

def complain (message : String) : Run Unit := do write 2 ((← heading) ++ message ++ "\n").toList

def fail {α : Type} (message : String) : Run α := do
  complain message
  setStatus 2
  throw .failed

def setVariable (name value : String) : Run Unit := do
  let old := (← session).store.get? name
  if old.any Variable.fixed then fail s!"{name}: is read only"
  let isExported := old.any Variable.exported || (← session).hasFlag 'a'
  modifySession fun s => { s with store := s.store.insert name ⟨some value, isExported, false⟩ }

end Run

end FormatAudit.Shell
