import FormatAudit.Number.Binary64
import FormatAudit.Text.Digit

/-!
YAML scalars and what their texts stand for. Only a scalar without quotes can stand for anything but
its text: for a null, a truth value, a whole number, or a double-format number. Numbers that are not
finite have no value of their own and become one of three texts.
-/

namespace FormatAudit.Yaml

/-- A scalar, and whether it is written without quotes or anything else that makes it a mere text. -/
structure Scalar where
  text : String
  plain : Bool
  deriving DecidableEq, Repr

inductive Value
  | null
  | boolean (value : Bool)
  | integer (value : Int)
  | float (value : Binary64)
  | text (value : String)
  deriving DecidableEq, Repr

namespace Scalar

def absent : Scalar := ⟨"~", true⟩

def lower (s : String) : String := s.map Char.toLower

def isNull (s : Scalar) : Bool := s.plain && (s.text = "" || s.text = "~" || lower s.text = "null")

def boolean? (s : String) : Option Bool :=
  if lower s ∈ ["true", "yes", "y", "on"] then some true
  else if lower s ∈ ["false", "no", "n", "off"] then some false
  else none

def signed : List Char → Bool × List Char
  | '-' :: rest => (true, rest)
  | '+' :: rest => (false, rest)
  | s => (false, s)

def radix : List Char → Nat × List Char
  | '0' :: 'x' :: rest | '0' :: 'X' :: rest => (16, rest)
  | '0' :: 'o' :: rest | '0' :: 'O' :: rest => (8, rest)
  | '0' :: 'b' :: rest | '0' :: 'B' :: rest => (2, rest)
  | s => (10, s)

def grouped (base : Nat) (s : List Char) : Option Nat :=
  match s.filter (· ≠ '_') with
  | [] => none
  | digits => Text.ofDigits base digits

/-- A whole number of 64 bits: one with a minus fits a signed word, any other an unsigned one. -/
def integer? (s : List Char) : Option Int := do
  let (negative, s) := signed s
  let (base, digits) := radix s
  let n ← grouped base digits
  if negative then if n ≤ Nat.pow 2 63 then some (-n) else none
  else if n < Nat.pow 2 64 then some n else none

def exponent? : List Char → Option Int
  | [] => some 0
  | c :: rest => do
    let (negative, digits) := signed rest
    if (c = 'e' ∨ c = 'E') ∧ digits ≠ [] then
      let n ← Text.ofDigits 10 digits
      some (if negative then -n else n)
    else none

def decimal? (s : List Char) : Option (Nat × Int) := do
  let whole := s.takeWhile Char.isDigit
  let rest := s.dropWhile Char.isDigit
  let (fraction, rest) := match rest with
    | '.' :: rest => (rest.takeWhile Char.isDigit, rest.dropWhile Char.isDigit)
    | rest => ([], rest)
  if whole = [] ∧ fraction = [] then none
  let n ← Text.ofDigits 10 (whole ++ fraction)
  let e ← exponent? rest
  some (n, e - fraction.length)

def infinite (negative : Bool) : Value := .text (if negative then "-.inf" else ".inf")

def float? (s : List Char) : Option Value :=
  let (negative, magnitude) := signed s
  let word := lower (String.ofList magnitude)
  if word ∈ [".inf", "inf", "infinity"] then some (infinite negative)
  else if word ∈ [".nan", "nan"] then some (.text ".nan")
  else (decimal? magnitude).map fun (digits, e) =>
    let x := Binary64.ofDecimal negative digits e
    if x.isFinite then .float x else infinite negative

def value (s : Scalar) : Value :=
  if !s.plain then .text s.text
  else if s.isNull then .null
  else if let some b := boolean? s.text then .boolean b
  else if let some n := integer? s.text.toList then .integer n
  else (float? s.text.toList).getD (.text s.text)

def text? (s : Scalar) : Option String := if s.isNull then none else some s.text

end Scalar

end FormatAudit.Yaml
