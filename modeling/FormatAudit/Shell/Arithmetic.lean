import FormatAudit.Shell.Text
import FormatAudit.Text.Digit

/-!
Sums: whole numbers of 64 bits with the operators of C, variables, and assignments to them.
-/

namespace FormatAudit.Shell

inductive Operator
  | mul | div | rem | add | sub | shiftLeft | shiftRight | less | lessOrEqual | greater | greaterOrEqual
  | equal | notEqual | bitAnd | bitXor | bitOr
  deriving DecidableEq, Repr

inductive Arithmetic
  | number (value : Int)
  | parameter (name : String)
  | negate (body : Arithmetic)
  | complement (body : Arithmetic)
  | not (body : Arithmetic)
  | binary (operator : Operator) (left right : Arithmetic)
  | both (left right : Arithmetic)
  | either (left right : Arithmetic)
  | condition (test yes no : Arithmetic)
  | assign (name : String) (operator : Option Operator) (value : Arithmetic)
  deriving Repr

inductive ArithmeticFault
  | expectedPrimary
  | expectedEnd
  | expectedParenthesis
  | expectedColon
  | divisionByZero
  | notNumber (value : String)
  | readOnly (name : String)
  deriving DecidableEq, Repr

namespace Operator

def rank : Operator → Nat
  | mul | div | rem => 0
  | add | sub => 1
  | shiftLeft | shiftRight => 2
  | less | lessOrEqual | greater | greaterOrEqual => 3
  | equal | notEqual => 4
  | bitAnd => 5
  | bitXor => 6
  | bitOr => 7

def maxRank : Nat := 7

def signs : List (String × Operator) :=
  [("<<", shiftLeft), (">>", shiftRight), ("<=", lessOrEqual), (">=", greaterOrEqual), ("==", equal), ("!=", notEqual),
    ("*", mul), ("/", div), ("%", rem), ("+", add), ("-", sub), ("<", less), (">", greater), ("&", bitAnd),
    ("^", bitXor), ("|", bitOr)]

def wrap (n : Int) : Int := Int.bmod n (Nat.pow 2 64)

def ofBool (b : Bool) : Int := if b then 1 else 0

def onWords (f : Nat → Nat → Nat) (a b : Int) : Int := wrap (f (a % Nat.pow 2 64).toNat (b % Nat.pow 2 64).toNat)

def apply (a b : Int) : Operator → Except ArithmeticFault Int
  | mul => .ok (wrap (a * b))
  | div => if b = 0 then .error .divisionByZero else .ok (wrap (a.tdiv b))
  | rem => if b = 0 then .error .divisionByZero else .ok (wrap (a.tmod b))
  | add => .ok (wrap (a + b))
  | sub => .ok (wrap (a - b))
  | shiftLeft => .ok (wrap (a * Nat.pow 2 (b % 64).toNat))
  | shiftRight => .ok (a.fdiv (Nat.pow 2 (b % 64).toNat))
  | less => .ok (ofBool (a < b))
  | lessOrEqual => .ok (ofBool (a ≤ b))
  | greater => .ok (ofBool (b < a))
  | greaterOrEqual => .ok (ofBool (b ≤ a))
  | equal => .ok (ofBool (a = b))
  | notEqual => .ok (ofBool (a ≠ b))
  | bitAnd => .ok (onWords Nat.land a b)
  | bitXor => .ok (onWords Nat.xor a b)
  | bitOr => .ok (onWords Nat.lor a b)

end Operator

def clamp (n : Int) : Int := max (-(Nat.pow 2 63)) (min (Nat.pow 2 63 - 1) n)

/-- The digits of a number at the start of a text with their base, which the text names as C does. -/
def numeral (s : List Char) : Nat × Nat × List Char :=
  let take (base : Nat) (s rest : List Char) :=
    let digits := s.takeWhile fun c => (Text.digit base c).isSome
    (base, (Text.ofDigits base digits).getD 0, if digits.isEmpty then rest else s.drop digits.length)
  match s with
  | '0' :: 'x' :: rest | '0' :: 'X' :: rest => take 16 rest (s.drop 1)
  | '0' :: rest => take 8 ('0' :: rest) rest
  | s => take 10 s s

def integer? (s : List Char) : Option Int :=
  let s := s.dropWhile isSpace
  let (negative, digits) := match s with
    | '-' :: rest => (true, rest)
    | '+' :: rest => (false, rest)
    | s => (false, s)
  let (_, n, rest) := numeral digits
  if s.isEmpty then some 0
  else if rest.length < digits.length ∧ rest.all isSpace then some (clamp (if negative then -n else n))
  else none

namespace Arithmetic

abbrev Parser := StateT (List Char) (Except ArithmeticFault)

def skipSpace : Parser Unit := modify (·.dropWhile isSpace)

def sign (text : String) (unlessBefore : List Char) : Parser Bool := do
  skipSpace
  let s ← get
  let rest := s.drop text.length
  if text.toList.isPrefixOf s && !rest.head?.any (· ∈ unlessBefore) then
    set rest
    pure true
  else pure false

def word : List Char → List Char := List.takeWhile fun c => c.isAlphanum || c = '_'

/-- The operator of an assignment at the start of a text, and the number of characters that it takes. -/
def assignment? (s : List Char) : Option (Option Operator × Nat) :=
  match s with
  | '=' :: rest => if rest.head? = some '=' then none else some (none, 1)
  | s => do
    let (text, operator) ← Operator.signs.find? fun named => named.1.toList.isPrefixOf s
    if operator.rank = 3 ∨ operator.rank = 4 then none
    else if (s.drop text.length).head? = some '=' then some (some operator, text.length + 1) else none

/-- The operator at the start of a text that is not part of an assignment or of another sign. -/
def operator? (s : List Char) : Option (Operator × Nat) := do
  if ['&', '&'].isPrefixOf s ∨ ['|', '|'].isPrefixOf s ∨ (assignment? s).isSome then none
  let (text, operator) ← Operator.signs.find? fun named => named.1.toList.isPrefixOf s
  pure (operator, text.length)

mutual

def readAll : (fuel : Nat) → Parser Arithmetic
  | 0 => throw .expectedPrimary
  | fuel + 1 => do
    skipSpace
    let s ← get
    let name := word s
    let after := (s.drop name.length).dropWhile isSpace
    match if name.head?.any (!·.isDigit) then assignment? after else none with
    | some (operator, count) => do
      set (after.drop count)
      pure (.assign (String.ofList name) operator (← readAll fuel))
    | none => readCondition fuel

def readCondition : (fuel : Nat) → Parser Arithmetic
  | 0 => throw .expectedPrimary
  | fuel + 1 => do
    let test ← readEither fuel
    if ← sign "?" [] then
      let yes ← readAll fuel
      if ← sign ":" [] then pure (.condition test yes (← readCondition fuel)) else throw .expectedColon
    else pure test

def readEither : (fuel : Nat) → Parser Arithmetic
  | 0 => throw .expectedPrimary
  | fuel + 1 => do
    let left ← readBoth fuel
    if ← sign "||" [] then pure (.either left (← readEither fuel)) else pure left

def readBoth : (fuel : Nat) → Parser Arithmetic
  | 0 => throw .expectedPrimary
  | fuel + 1 => do
    let left ← readBinary Operator.maxRank fuel
    if ← sign "&&" [] then pure (.both left (← readBoth fuel)) else pure left

def readBinary (rank : Nat) : (fuel : Nat) → Parser Arithmetic
  | 0 => throw .expectedPrimary
  | fuel + 1 => do readOperators rank (← readPrimary fuel) fuel

def readOperators (rank : Nat) (left : Arithmetic) : (fuel : Nat) → Parser Arithmetic
  | 0 => throw .expectedPrimary
  | fuel + 1 => do
    skipSpace
    match operator? (← get) with
    | none => pure left
    | some (operator, count) =>
      if rank < operator.rank then pure left
      else
        modify (·.drop count)
        let operand ← readPrimary fuel
        let right ← if operator.rank = 0 then pure operand else readOperators (operator.rank - 1) operand fuel
        readOperators rank (.binary operator left right) fuel

def readPrimary : (fuel : Nat) → Parser Arithmetic
  | 0 => throw .expectedPrimary
  | fuel + 1 => do
    skipSpace
    let s ← get
    match s with
    | '(' :: rest => do
      set rest
      let body ← readAll fuel
      if ← sign ")" [] then pure body else throw .expectedParenthesis
    | '-' :: rest => do
      set rest
      pure (.negate (← readPrimary fuel))
    | '+' :: rest => do
      set rest
      readPrimary fuel
    | '~' :: rest => do
      set rest
      pure (.complement (← readPrimary fuel))
    | '!' :: rest => do
      set rest
      pure (.not (← readPrimary fuel))
    | c :: _ =>
      if c.isDigit then do
        let (_, n, rest) := numeral s
        set rest
        pure (.number (clamp n))
      else if (word s).isEmpty then throw .expectedPrimary
      else do
        set (s.drop (word s).length)
        pure (.parameter (String.ofList (word s)))
    | [] => throw .expectedPrimary

end

def parse (s : List Char) : Except ArithmeticFault Arithmetic := do
  let (sum, rest) ← (readAll (8 * s.length + 16)).run s
  if rest.all isSpace then pure sum else throw .expectedEnd

end Arithmetic

end FormatAudit.Shell
