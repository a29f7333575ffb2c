import FormatAudit.Shell.Regex.Reading
import FormatAudit.Shell.Tool.Basic

/-!
Editing texts by scripts: instructions that are carried out for each line, if the line is in their scope.
Messages say how many characters of the script had been read when something was found wrong.
-/

namespace FormatAudit.Shell.Edit

open Tool

structure Wanted where
  expression : Regex
  ignoresCase : Bool

inductive Address
  | line (number : Nat)
  | last
  | fits (wanted : Wanted)

/-- The lines that an instruction is for: all, those of an address, or those from one address to another. -/
structure Scope where
  first : Option Address
  last : Option Address
  negated : Bool

inductive ReplacementPart
  | char (c : Char)
  | group (number : Nat)

structure Substitution where
  wanted : Wanted
  replacement : List ReplacementPart
  occurrence : Nat
  everywhere : Bool
  prints : Bool

inductive Action
  | substitute (substitution : Substitution)
  | transliterate (pairs : List (Char × Char))
  | delete
  | print
  | quit (status : Nat)

structure Instruction where
  scope : Scope
  action : Action

structure Source where
  rest : List Char
  count : Nat

abbrev Parser := StateT Source (Except (Nat × String))

namespace Parser

def fail {α : Type} (message : String) : Parser α := do throw ((← get).count, message)

def peek : Parser (Option Char) := do pure (← get).rest.head?

def skip (count : Nat) : Parser Unit := modify fun s => ⟨s.rest.drop count, s.count + min count s.rest.length⟩

def takeWhile (holds : Char → Bool) : Parser (List Char) := do
  let found := (← get).rest.takeWhile holds
  skip found.length
  pure found

def skipBlanks : Parser Unit := do let _ ← takeWhile fun c => c = ' ' || c = '\t'

def number? : Parser (Option Nat) := do pure (decimal? (← takeWhile Char.isDigit))

/-- Characters up to a delimiter that is neither escaped nor in the brackets of a set, and the number of
characters that they take. Escapes stay as they are, but for those of the delimiter. -/
def delimited (delimiter : Char) (isExpression inSet : Bool) : List Char → Option (List Char × Nat)
  | [] => none
  | '\\' :: c :: rest => do
    let (chars, count) ← delimited delimiter isExpression inSet rest
    let kept := if c = 'n' && isExpression then ['\n'] else if c = delimiter then [c] else ['\\', c]
    pure (kept ++ chars, count + 2)
  | c :: rest =>
    if c = delimiter && !inSet then some ([], 1)
    else do
      let inSet := isExpression && if inSet then c ≠ ']' || rest.head? = some ']' else c = '['
      let (chars, count) ← delimited delimiter isExpression inSet rest
      pure (c :: chars, count + 1)

def upTo (delimiter : Char) (isExpression : Bool) (message : String) : Parser (List Char) := do
  match delimited delimiter isExpression false (← get).rest with
  | some (chars, count) => do
    skip count
    pure chars
  | none => do
    skip (← get).rest.length
    fail message

def expression (extended : Bool) (s : List Char) : Parser Regex := do
  if s.isEmpty then fail "no previous regular expression"
  match Regex.parse extended s with
  | .ok e => pure e
  | .error fault => fail fault.message

def address? (extended : Bool) : Parser (Option Address) := do
  match ← peek with
  | some '$' => do
    skip 1
    pure (some .last)
  | some '/' => do
    skip 1
    let chars ← upTo '/' true "unterminated address regex"
    let letters ← takeWhile (· = 'I')
    pure (some (.fits ⟨← expression extended chars, !letters.isEmpty⟩))
  | _ => do pure ((← number?).map .line)

def scope (extended : Bool) : Parser Scope := do
  let first ← address? extended
  skipBlanks
  let second ← if first.isSome && (← peek) = some ',' then do
      skip 1
      skipBlanks
      match ← address? extended with
      | some found => pure (some found)
      | none => do
        skip 1
        fail "unexpected `,'"
    else pure none
  skipBlanks
  let marks ← takeWhile (· = '!')
  skipBlanks
  pure ⟨first, second, !marks.isEmpty⟩

def replacementParts : List Char → List ReplacementPart
  | [] => []
  | '&' :: rest => .group 0 :: replacementParts rest
  | '\\' :: 'n' :: rest => .char '\n' :: replacementParts rest
  | '\\' :: 't' :: rest => .char '\t' :: replacementParts rest
  | '\\' :: c :: rest => (if c.isDigit then .group (c.toNat - '0'.toNat) else .char c) :: replacementParts rest
  | c :: rest => .char c :: replacementParts rest

def greatestGroup (parts : List ReplacementPart) : Nat :=
  (parts.map fun
    | .group n => n
    | .char _ => 0).foldl max 0

def flags (x : Substitution) : (fuel : Nat) → Parser Substitution
  | 0 => pure x
  | fuel + 1 => do
    match ← number? with
    | some 0 => fail "number option to `s' command may not be zero"
    | some n => flags { x with occurrence := n } fuel
    | none =>
      match ← peek with
      | some 'g' => do
        skip 1
        flags { x with everywhere := true } fuel
      | some 'p' => do
        skip 1
        flags { x with prints := true } fuel
      | some 'i' | some 'I' => do
        skip 1
        flags { x with wanted := { x.wanted with ignoresCase := true } } fuel
      | _ => pure x

def twoTexts (command : Char) : Parser (List Char × List Char) := do
  let message := s!"unterminated `{command}' command"
  match ← peek with
  | none => fail message
  | some delimiter => do
    skip 1
    let first ← upTo delimiter (command = 's') message
    pure (first, ← upTo delimiter false message)

def substitution (extended : Bool) : Parser Action := do
  let (pattern, replacement) ← twoTexts 's'
  let e ← expression extended pattern
  let parts := replacementParts replacement
  let greatest := greatestGroup parts
  if e.groupCount < greatest then fail s!"invalid reference \\{greatest} on `s' command's RHS"
  .substitute <$> flags ⟨⟨e, false⟩, parts, 1, false, false⟩ ((← get).rest.length + 1)

def transliteration : Parser Action := do
  let (first, second) ← twoTexts 'y'
  if first.length ≠ second.length then fail "strings for `y' command are different lengths"
  pure (.transliterate (first.zip second))

def action (extended : Bool) : Parser Action := do
  let c ← peek
  skip 1
  match c with
  | some 's' => substitution extended
  | some 'y' => transliteration
  | some 'd' => pure .delete
  | some 'p' => pure .print
  | some 'q' => do
    skipBlanks
    pure (.quit ((← number?).getD 0))
  | none | some '\n' | some ';' => fail "missing command"
  | some c => fail s!"unknown command: `{c}'"

def endOfCommand (command : Action) : Parser Unit := do
  skipBlanks
  match ← peek with
  | none | some '#' => pure ()
  | some '\n' | some ';' => skip 1
  | some _ => do
    skip 1
    fail (if command matches .substitute _ then "unknown option to `s'" else "extra characters after command")

def instructions (extended : Bool) : (fuel : Nat) → Parser (List Instruction)
  | 0 => pure []
  | fuel + 1 => do
    let _ ← takeWhile fun c => isSpace c || c = ';'
    match ← peek with
    | none => pure []
    | some '#' => do
      let _ ← takeWhile (· ≠ '\n')
      instructions extended fuel
    | some _ => do
      let scope ← scope extended
      let action ← action extended
      endOfCommand action
      pure (⟨scope, action⟩ :: (← instructions extended fuel))

end Parser

def parse (extended : Bool) (s : List Char) : Except (Nat × String) (List Instruction) :=
  (Parser.instructions extended (s.length + 1)).run' ⟨s, 0⟩

structure Place where
  line : List Char
  number : Nat
  isLast : Bool

def Place.fits (place : Place) : Address → Bool
  | .line number => place.number = number
  | .last => place.isLast
  | .fits wanted => (wanted.expression.find? ⟨place.line.toArray, wanted.ignoresCase⟩ 0).isSome

/-- The line is one that an instruction is for, and whether the range of its scope is open behind the line. A
range that would end before its first line has that line only. -/
def Place.isFor (place : Place) (scope : Scope) (isOpen : Bool) : Bool × Bool :=
  let (found, isOpen) := match scope.first, scope.last with
    | none, _ => (true, false)
    | some first, none => (place.fits first, false)
    | some first, some second =>
      let isOver := match second with
        | .line number => number ≤ place.number
        | address => isOpen && place.fits address
      if isOpen || place.fits first then (true, !isOver) else (false, false)
  (found != scope.negated, isOpen)

def replace (s : Subject) (found : Regex.Found) (parts : List ReplacementPart) : List Char :=
  parts.flatMap fun
    | .char c => [c]
    | .group 0 => s.slice found.first found.last
    | .group n => ((found.groups.lookup n).map fun (first, last) => s.slice first last).getD []

def replaceAll (s : Subject) (parts : List ReplacementPart) : (position : Nat) → List Regex.Found → List Char
  | position, [] => s.slice position s.size
  | position, found :: rest =>
    s.slice position found.first ++ replace s found parts ++ replaceAll s parts found.last rest

def Substitution.apply? (x : Substitution) (line : List Char) : Option (List Char) :=
  let s : Subject := ⟨line.toArray, x.wanted.ignoresCase⟩
  let finds := (x.wanted.expression.finds s).drop (x.occurrence - 1)
  if finds.isEmpty then none
  else some (replaceAll s x.replacement 0 (if x.everywhere then finds else finds.take 1))

/-- How the work on a line went: the line that is left, unless it was deleted, what was printed on the way,
whether each range is open, and the status if the edit is over. -/
structure Work where
  line : Option (List Char)
  printed : List (List Char)
  ranges : List Bool
  status : Option Nat

def work (place : Place) : List (Instruction × Bool) → Work
  | [] => ⟨some place.line, [], [], none⟩
  | (⟨scope, action⟩, isOpen) :: rest =>
    let (found, isOpen) := place.isFor scope isOpen
    let go (place : Place) (printed : List (List Char)) : Work :=
      let after := work place rest
      { after with printed := printed ++ after.printed, ranges := isOpen :: after.ranges }
    let stop (line : Option (List Char)) (status : Option Nat) : Work :=
      ⟨line, [], isOpen :: rest.map Prod.snd, status⟩
    if !found then go place []
    else match action with
      | .substitute x =>
        match x.apply? place.line with
        | some line => go { place with line := line } (if x.prints then [line] else [])
        | none => go place []
      | .transliterate pairs => go { place with line := place.line.map fun c => (pairs.lookup c).getD c } []
      | .delete => stop none none
      | .print => go place [place.line]
      | .quit status => stop (some place.line) (some status)

/-- Works on one line after the other: what is printed, and the status. What is printed for the last line ends
as the text does. -/
def run (script : List Instruction) (quiet ended : Bool) : (number : Nat) → (ranges : List Bool) →
    List (List Char) → List Char × Nat
  | _, _, [] => ([], 0)
  | number, ranges, line :: rest =>
    let done := work ⟨line, number, rest.isEmpty⟩ (script.zip ranges)
    let printed := done.printed ++ if quiet then [] else done.line.toList
    let text := if rest.isEmpty && !ended then List.intercalate ['\n'] printed else printed.flatMap (· ++ ['\n'])
    match done.status with
    | some status => (text, status)
    | none =>
      let (more, status) := run script quiet ended (number + 1) done.ranges rest
      (text ++ more, status)

def apply (script : List Instruction) (quiet : Bool) (s : List Char) : List Char × Nat :=
  run script quiet (s.getLast? = some '\n') 1 (script.map fun _ => false) (bareLines s)

end FormatAudit.Shell.Edit

namespace FormatAudit.Shell.Tool

def sed : Tool := fun files arguments input =>
  withOptions "sed" 1 "nErsu" "e" arguments input fun options =>
    let written := options.letters.filterMap fun (letter, value) => if letter = 'e' then some value else none
    let texts := if written.isEmpty then options.operands.take 1 else written
    let operands := if written.isEmpty then options.operands.drop 1 else options.operands
    if texts.isEmpty then
      .complaining 1 ["Usage: sed [OPTION]... \x7bscript-only-if-no-other-script\x7d [input-file]..."] input
    else
      match Edit.parse (options.has 'E' || options.has 'r') (String.intercalate "\n" texts).toList with
      | .error (count, message) => .complaining 1 [s!"sed: -e expression #1, char {count}: {message}"] input
      | .ok script =>
        let wording (path reason : String) : String := s!"sed: can't read {path}: {reason}"
        let reading := readOperands wording files operands input
        let (printed, status) := Edit.apply script (options.has 'n') reading.text
        let missing := if reading.messages.isEmpty then 0 else 2
        let complaint := Effect.complaining (if status = 0 then missing else status) reading.messages reading.left
        { complaint with written := complaint.written ++ [(1, printed)] }

end FormatAudit.Shell.Tool
