import FormatAudit.Shell.Disk
import FormatAudit.Shell.Text
import FormatAudit.Text.Digit

/-!
Programs for texts, as functions of the files that there are, of their arguments and of their input. Each
knows the options that its uses here need.
-/

namespace FormatAudit.Shell

/-- What a program did: its status, what it wrote to which stream, and the input that it left. -/
structure Effect where
  status : Nat
  written : List (Nat × List Char)
  left : List Char

abbrev Files := (path : String) → Except String (List Char)

abbrev Tool := Files → (arguments : List String) → (input : List Char) → Effect

namespace Effect

def printing (output left : List Char) : Effect := ⟨0, [(1, output)], left⟩

def complaining (status : Nat) (messages : List String) (left : List Char) : Effect :=
  ⟨status, messages.map fun message => (2, (message ++ "\n").toList), left⟩

end Effect

namespace Tool

def lines (s : List Char) : List (List Char) :=
  s.foldr (fun c found =>
    match found with
    | line :: more => if c = '\n' then [c] :: line :: more else (c :: line) :: more
    | [] => [[c]]) []

def withoutEnd (line : List Char) : List Char := if line.getLast? = some '\n' then line.dropLast else line

def bareLines (s : List Char) : List (List Char) := (lines s).map withoutEnd

def decimal? (s : List Char) : Option Nat := if s.isEmpty then none else Text.ofDigits 10 s

structure Reading where
  text : List Char
  messages : List String
  left : List Char

def readOperands (wording : (path reason : String) → String) (files : Files) (operands : List String)
    (input : List Char) : Reading :=
  (if operands.isEmpty then ["-"] else operands).foldl (fun reading path =>
    if path = "-" then { reading with text := reading.text ++ reading.left, left := [] }
    else match files path with
      | .ok content => { reading with text := reading.text ++ content }
      | .error reason => { reading with messages := reading.messages ++ [wording path reason] })
    ⟨[], [], input⟩

def filter (wording : (path reason : String) → String) (files : Files) (operands : List String) (input : List Char)
    (f : List Char → List Char) : Effect :=
  let reading := readOperands wording files operands input
  let complaint := Effect.complaining (if reading.messages.isEmpty then 0 else 1) reading.messages reading.left
  { complaint with written := complaint.written ++ [(1, f reading.text)] }

def named (tool : String) (path reason : String) : String := s!"{tool}: {path}: {reason}"

def opening (tool : String) (path reason : String) : String :=
  s!"{tool}: cannot open '" ++ path ++ s!"' for reading: {reason}"

def refusal (tool : String) (status : Nat) (message : String) (input : List Char) : Effect :=
  .complaining status [s!"{tool}: {message}", s!"Try '{tool} --help' for more information."] input

structure Options where
  letters : List (Char × String)
  operands : List String

namespace Options

def has (options : Options) (letter : Char) : Bool := options.letters.any (·.1 = letter)

def value? (options : Options) (letter : Char) : Option String := options.letters.reverse.lookup letter

/-- The letters of one argument. A value is the rest of the argument, or the argument behind it. -/
def ofCluster (plain valued : String) :
    List Char → List String → Except String (List (Char × String) × List String)
  | [], rest => .ok ([], rest)
  | letter :: more, rest =>
    if letter ∈ plain.toList then do
      let (letters, rest) ← ofCluster plain valued more rest
      pure ((letter, "") :: letters, rest)
    else if letter ∈ valued.toList then
      match more, rest with
      | [], [] => .error s!"option requires an argument -- '{letter}'"
      | [], value :: rest => .ok ([(letter, value)], rest)
      | more, rest => .ok ([(letter, String.ofList more)], rest)
    else .error s!"invalid option -- '{letter}'"

def read (plain valued : String) : (steps : Nat) → List String → Except String Options
  | 0, arguments => .ok ⟨[], arguments⟩
  | _ + 1, [] => .ok ⟨[], []⟩
  | steps + 1, argument :: rest =>
    match argument.toList with
    | ['-', '-'] => .ok ⟨[], rest⟩
    | '-' :: letter :: letters => do
      let (found, rest) ← ofCluster plain valued (letter :: letters) rest
      let more ← read plain valued steps rest
      pure { more with letters := found ++ more.letters }
    | _ => do
      let more ← read plain valued steps rest
      pure { more with operands := argument :: more.operands }

end Options

/-- Reads the options of a program, which refuses those that it does not know with a status. -/
def withOptions (tool : String) (status : Nat) (plain valued : String) (arguments : List String) (input : List Char)
    (body : Options → Effect) : Effect :=
  match Options.read plain valued arguments.length arguments with
  | .error message => refusal tool status message input
  | .ok options => body options

end Tool

end FormatAudit.Shell
