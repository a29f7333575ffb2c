import FormatAudit.Shell.Regex.Reading
import FormatAudit.Shell.Tool.Basic

/-!
Searching texts for the lines in which expressions are found.
-/

namespace FormatAudit.Shell.Tool

def wanted (options : Options) (patterns : List String) : Except Regex.Fault Regex := do
  let parsed ← patterns.mapM fun p =>
    if options.has 'F' then pure (.literal p.toList) else Regex.parse (options.has 'E') p.toList
  let either := match parsed with
    | [] => .nothing
    | first :: rest => rest.foldl Regex.either first
  pure (if options.has 'x' then .followed .start (.followed either .finish) else either)

def selected (options : Options) (e : Regex) (s : List Char) : List (List Char × Nat) :=
  ((bareLines s).zipIdx 1).filter fun (line, _) =>
    (e.find? ⟨line.toArray, options.has 'i'⟩ 0).isSome != options.has 'v'

def report (options : Options) (e : Regex) (found : List (List Char × Nat)) : List Char :=
  if options.has 'q' then []
  else if options.has 'c' then (toString found.length ++ "\n").toList
  else
    found.flatMap fun (line, number) =>
      let place := if options.has 'n' then (toString number ++ ":").toList else []
      let s : Subject := ⟨line.toArray, options.has 'i'⟩
      if options.has 'o' then
        ((e.finds s).filter fun f => f.first < f.last).flatMap fun f => place ++ s.slice f.first f.last ++ ['\n']
      else place ++ line ++ ['\n']

def grep (letters : String) : Tool := fun files arguments input =>
  withOptions "grep" 2 "EFGcinoqvx" "e" arguments input fun options =>
    let options := { options with letters := letters.toList.map (·, "") ++ options.letters }
    let written := options.letters.filterMap fun (letter, value) => if letter = 'e' then some value else none
    match written, options.operands with
    | [], [] => .complaining 2 ["Usage: grep [OPTION]... PATTERNS [FILE]..."] input
    | _, _ =>
      let patterns := if written.isEmpty then options.operands.take 1 else written
      let operands := if written.isEmpty then options.operands.drop 1 else options.operands
      match wanted options (patterns.flatMap (·.splitOn "\n")) with
      | .error fault => .complaining 2 [s!"grep: {fault.message}"] input
      | .ok e =>
        let reading := readOperands (named "grep") files operands input
        let found := selected options e reading.text
        let status := if !reading.messages.isEmpty then 2 else if found.isEmpty then 1 else 0
        let complaint := Effect.complaining status reading.messages reading.left
        { complaint with written := complaint.written ++ [(1, report options e found)] }

end FormatAudit.Shell.Tool
