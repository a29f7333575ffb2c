import FormatAudit.Shell.Arithmetic
import FormatAudit.Shell.Disk

/-!
Conditions: tests of texts, numbers and files, joined by operators. What a word means depends on the number
of words and on those next to it, so that texts that look like operators can be tested.
-/

namespace FormatAudit.Shell.Condition

inductive Fault
  | illegalNumber (word : String)
  | unexpectedOperator (word : String)
  | missingOperand (word : String)
  | expectedClose
  deriving DecidableEq, Repr

def Fault.message : Fault → String
  | illegalNumber word => s!"Illegal number: {word}"
  | unexpectedOperator word => s!"{word}: unexpected operator"
  | missingOperand word => s!"{word}: argument expected"
  | expectedClose => "closing paren expected"

structure Surroundings where
  entry? : String → Option Entry

def unaryNames : List String :=
  ["-b", "-c", "-d", "-e", "-f", "-g", "-G", "-h", "-k", "-L", "-n", "-O", "-p", "-r", "-S", "-s", "-t", "-u",
    "-w", "-x", "-z"]

def binaryNames : List String :=
  ["=", "!=", "<", ">", "-eq", "-ne", "-ge", "-gt", "-le", "-lt", "-nt", "-ot", "-ef"]

def integer (word : String) : Except Fault Int :=
  let s := word.toList.dropWhile isSpace
  let (negative, digits) := match s with
    | '-' :: rest => (true, rest)
    | '+' :: rest => (false, rest)
    | s => (false, s)
  let number := digits.takeWhile Char.isDigit
  if number.isEmpty || !(digits.drop number.length).all isSpace then .error (.illegalNumber word)
  else
    let n : Int := (Text.ofDigits 10 number).getD 0
    let n := if negative then -n else n
    if clamp n = n then .ok n else .error (.illegalNumber word)

def unary (around : Surroundings) (name operand : String) : Bool :=
  match name with
  | "-n" => operand ≠ ""
  | "-z" => operand = ""
  | "-e" | "-r" | "-w" | "-O" | "-G" => (around.entry? operand).isSome
  | "-d" => around.entry? operand = some .directory
  | "-f" =>
    match around.entry? operand with
    | some (.text _) | some .program => true
    | _ => false
  | "-c" => around.entry? operand = some .device
  | "-s" =>
    match around.entry? operand with
    | some (.text content) => !content.isEmpty
    | some .directory | some .program => true
    | _ => false
  | "-x" => around.entry? operand = some .directory || around.entry? operand = some .program
  | _ => false

def binary (name left right : String) : Except Fault Bool :=
  let numbers (holds : Int → Int → Bool) : Except Fault Bool := do
    let a ← integer left
    let b ← integer right
    pure (holds a b)
  match name with
  | "=" => .ok (left = right)
  | "!=" => .ok (left ≠ right)
  | "<" => .ok (left < right)
  | ">" => .ok (right < left)
  | "-eq" => numbers (· = ·)
  | "-ne" => numbers (· ≠ ·)
  | "-ge" => numbers (· ≥ ·)
  | "-gt" => numbers (· > ·)
  | "-le" => numbers (· ≤ ·)
  | "-lt" => numbers (· < ·)
  | _ => .ok false

inductive Sign
  | nothing
  | operand
  | or
  | and
  | not
  | opening
  | closing
  | unary
  | binary
  deriving DecidableEq

def sign (words : Array String) (place : Nat) : Sign :=
  let isBinary (place : Nat) : Bool := words[place]?.any (· ∈ binaryNames)
  let isLast (place : Nat) : Bool := words.size ≤ place + 1
  match words[place]? with
  | none => .nothing
  | some word =>
    if word ∈ unaryNames then
      if isLast place || isBinary (place + 1) && !isLast (place + 1) then .operand else .unary
    else if word ∈ binaryNames then .binary
    else match word with
      | "-o" => .or
      | "-a" => .and
      | "!" => .not
      | "(" => if isLast place then .operand else .opening
      | ")" => .closing
      | _ => .operand

abbrev Parser := StateT Nat (Except Fault)

variable (around : Surroundings) (words : Array String)

def wordAt (place : Nat) : String := words[place]?.getD ""

mutual

def either (s : Sign) : (fuel : Nat) → Parser Bool
  | 0 => pure false
  | fuel + 1 => do
    let first ← both s fuel
    if sign words ((← get) + 1) = .or then
      modify (· + 2)
      let second ← either (sign words (← get)) fuel
      pure (first || second)
    else pure first

def both (s : Sign) : (fuel : Nat) → Parser Bool
  | 0 => pure false
  | fuel + 1 => do
    let first ← negation s fuel
    if sign words ((← get) + 1) = .and then
      modify (· + 2)
      let second ← both (sign words (← get)) fuel
      pure (first && second)
    else pure first

def negation (s : Sign) : (fuel : Nat) → Parser Bool
  | 0 => pure false
  | fuel + 1 => do
    if s = .not then
      let next := sign words ((← get) + 1)
      if next ≠ .nothing then modify (· + 1)
      pure (!(← negation next fuel))
    else primary s fuel

def primary (s : Sign) : (fuel : Nat) → Parser Bool
  | 0 => pure false
  | fuel + 1 => do
    let place ← get
    match s with
    | .nothing => pure false
    | .opening => do
      set (place + 1)
      let next := sign words (place + 1)
      if next = .closing then pure false
      else
        let value ← either next fuel
        modify (· + 1)
        if sign words (← get) = .closing then pure value else throw .expectedClose
    | .unary => do
      set (place + 1)
      match words[place + 1]? with
      | none => throw (.missingOperand (wordAt words place))
      | some operand => pure (unary around (wordAt words place) operand)
    | _ =>
      if sign words (place + 1) = .binary then do
        set (place + 2)
        match words[place + 2]? with
        | none => throw (.missingOperand (wordAt words (place + 1)))
        | some right => (binary (wordAt words (place + 1)) (wordAt words place) right : Except _ _)
      else pure (wordAt words place ≠ "")

end

/-- The outcome of words that are all of a condition, of which the first is an operand if it has to be. -/
def whole (isOperand : Bool) : Except Fault Bool := do
  let first := if isOperand then .operand else sign words 0
  let (value, place) ← (either around words first (8 * words.size + 8)).run 0
  if place + 1 < words.size then throw (.unexpectedOperator (wordAt words place)) else pure value

/-- The outcome of a condition. Few words are told apart by their number: in the middle of three an operator
makes operands of the others, and parentheses around one or two are only that. -/
def evaluate (around : Surroundings) : (words : List String) → Except Fault Bool
  | [] => .ok false
  | [first, second, third] =>
    if second ∈ binaryNames then whole around #[first, second, third] true
    else if first = "(" && third = ")" then whole around #[second] false
    else if first = "!" then (whole around #[second, third] false).map (!·)
    else whole around #[first, second, third] false
  | [first, second, third, fourth] =>
    if first = "(" && fourth = ")" then whole around #[second, third] false
    else if first = "!" then (evaluate around [second, third, fourth]).map (!·)
    else whole around #[first, second, third, fourth] false
  | words => whole around words.toArray false

end FormatAudit.Shell.Condition
