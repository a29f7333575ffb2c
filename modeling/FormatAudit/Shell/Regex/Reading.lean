import FormatAudit.Shell.Regex
import FormatAudit.Text.Digit

/-!
Reading regular expressions. In the basic notation a backslash makes operators of parentheses, braces and
some other characters; in the extended one it takes that meaning from them.
-/

namespace FormatAudit.Shell.Regex

inductive Fault
  | openBracket
  | openGroup
  | strayClose
  | badInterval
  | trailingBackslash
  | badReference
  | badRange
  | badClass
  | nothingToRepeat
  deriving DecidableEq, Repr

def Fault.message : Fault → String
  | openBracket => "Unmatched [, [^, [:, [., or [="
  | openGroup => "Unmatched ( or \\("
  | strayClose => "Unmatched ) or \\)"
  | badInterval => "Invalid content of \\\x7b\\\x7d"
  | trailingBackslash => "Trailing backslash"
  | badReference => "Invalid back reference"
  | badRange => "Invalid range end"
  | badClass => "Invalid character class name"
  | nothingToRepeat => "Invalid preceding regular expression"

/-- What is left of an expression, and the number of the groups that were opened in it. -/
structure Source where
  rest : List Char
  groups : Nat

abbrev Parser := StateT Source (Except Fault)

namespace Parser

inductive Sign
  | plain (c : Char)
  | any
  | bracket
  | opening
  | close
  | bar
  | star
  | plus
  | optional
  | interval
  | caret
  | dollar
  | ranges (negated : Bool) (ranges : List CharRange)
  deriving DecidableEq

def operators : List (Char × Sign) :=
  [('(', .opening), (')', .close), ('|', .bar), ('+', .plus), ('?', .optional), ('\x7b', .interval)]

def commonOperators : List (Char × Sign) :=
  [('.', .any), ('[', .bracket), ('*', .star), ('^', .caret), ('$', .dollar)]

def wordRanges : List CharRange := [.named "alnum", .between '_' '_']

def escaped : List (Char × Sign) :=
  [('w', .ranges false wordRanges), ('W', .ranges true wordRanges), ('s', .ranges false [.named "space"]),
    ('S', .ranges true [.named "space"])]

def sign? (extended : Bool) : List Char → Except Fault (Option (Sign × Nat))
  | [] => .ok none
  | ['\\'] => .error .trailingBackslash
  | '\\' :: c :: _ =>
    if '1' ≤ c && c ≤ '9' then .error .badReference
    else .ok (some (((if extended then escaped else operators ++ escaped).lookup c).getD (.plain c), 2))
  | c :: _ =>
    let known := if extended then operators ++ commonOperators else commonOperators
    .ok (some ((known.lookup c).getD (.plain c), 1))

def peek (extended : Bool) : Parser (Option (Sign × Nat)) := do
  match sign? extended (← get).rest with
  | .ok found => pure found
  | .error fault => throw fault

def advance (count : Nat) : Parser Unit := modify fun s => { s with rest := s.rest.drop count }

def classNames : List String :=
  ["alpha", "digit", "alnum", "upper", "lower", "space", "blank", "punct", "print", "graph", "cntrl", "xdigit"]

/-- The ranges of a set up to the bracket that closes it, and what is left behind it. -/
def ranges (first : Bool) : (fuel : Nat) → List Char → Except Fault (List CharRange × List Char)
  | 0, _ | _, [] => .error .openBracket
  | fuel + 1, c :: rest =>
    let join (range : CharRange) (rest : List Char) : Except Fault (List CharRange × List Char) := do
      let (more, rest) ← ranges false fuel rest
      pure (range :: more, rest)
    if c = ']' && !first then .ok ([], rest)
    else match if c = '[' then CharRange.className? rest else none with
      | some (name, rest) => if name ∈ classNames then join (.named name) rest else .error .badClass
      | none =>
        match rest with
        | '-' :: d :: after =>
          if d = ']' then join (.between c c) rest
          else if d < c then .error .badRange
          else join (.between c d) after
        | rest => join (.between c c) rest

def bracket : Parser Regex := do
  let s ← get
  let (negated, text) := match s.rest with
    | '^' :: rest => (true, rest)
    | rest => (false, rest)
  match ranges true (text.length + 1) text with
  | .error fault => throw fault
  | .ok (found, rest) =>
    modify fun s => { s with rest := rest }
    pure (.set negated found)

def interval (extended : Bool) : Parser (Nat × Option Nat) := do
  let s := (← get).rest
  let number (s : List Char) := (Text.ofDigits 10 s).getD 0
  let low := s.takeWhile Char.isDigit
  let (most, after) := match s.drop low.length with
    | ',' :: rest =>
      let high := rest.takeWhile Char.isDigit
      (if high.isEmpty then none else some (number high), rest.drop high.length)
    | rest => (some (number low), rest)
  let close := if extended then ['\x7d'] else ['\\', '\x7d']
  if !close.isPrefixOf after || most.any (· < number low) then throw .badInterval
  advance (s.length - after.length + close.length)
  pure (number low, most)

def repetitions (extended : Bool) (body : Regex) : (fuel : Nat) → Parser Regex
  | 0 => pure body
  | fuel + 1 => do
    let again (least : Nat) (most : Option Nat) (count : Nat) : Parser Regex := do
      advance count
      repetitions extended (.times least most body) fuel
    match ← peek extended with
    | some (.star, count) => again 0 none count
    | some (.plus, count) => again 1 none count
    | some (.optional, count) => again 0 (some 1) count
    | some (.interval, count) => do
      advance count
      let (least, most) ← interval extended
      again least most 0
    | _ => pure body

/-- A dollar sign of the basic notation asks for the end only where an expression ends. -/
def endsExpression (extended : Bool) (rest : List Char) : Bool :=
  extended || rest.isEmpty || ['\\', ')'].isPrefixOf rest || ['\\', '|'].isPrefixOf rest

mutual

def alternatives (extended : Bool) (depth : Nat) : (fuel : Nat) → Parser Regex
  | 0 => pure .nothing
  | fuel + 1 => do
    let first ← row extended depth true .nothing fuel
    match ← peek extended with
    | some (.bar, count) => do
      advance count
      pure (.either first (← alternatives extended depth fuel))
    | _ => pure first

def row (extended : Bool) (depth : Nat) (fresh : Bool) (before : Regex) : (fuel : Nat) → Parser Regex
  | 0 => pure before
  | fuel + 1 => do
    let joined (next : Regex) : Regex := if before = .nothing then next else .followed before next
    match ← peek extended with
    | none | some (.bar, _) => pure before
    | some (.close, _) => if 0 < depth then pure before else throw .strayClose
    | some (sign, count) => do
      advance count
      if sign = .caret && (extended || fresh) then row extended depth true (joined .start) fuel
      else
        let element ← element extended depth sign fuel
        row extended depth false (joined (← repetitions extended element fuel)) fuel

def element (extended : Bool) (depth : Nat) (sign : Sign) : (fuel : Nat) → Parser Regex
  | 0 => pure .nothing
  | fuel + 1 => do
    match sign with
    | .plain c => pure (.char c)
    | .any => pure .any
    | .bracket => bracket
    | .opening => do
      let number := (← get).groups + 1
      modify fun s => { s with groups := number }
      let body ← alternatives extended (depth + 1) fuel
      match ← peek extended with
      | some (.close, count) => do
        advance count
        pure (.group number body)
      | _ => throw .openGroup
    | .ranges negated ranges => pure (.set negated ranges)
    | .dollar => do pure (if endsExpression extended (← get).rest then .finish else .char '$')
    | .star => pure (.char '*')
    | .caret => pure (.char '^')
    | _ => throw .nothingToRepeat

end

end Parser

def parse (extended : Bool) (s : List Char) : Except Fault Regex :=
  (Parser.alternatives extended 0 (4 * s.length + 8)).run' ⟨s, 0⟩

def literal (s : List Char) : Regex := s.foldr (fun c rest => .followed (.char c) rest) .nothing

end FormatAudit.Shell.Regex
