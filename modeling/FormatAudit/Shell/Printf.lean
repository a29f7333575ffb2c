import FormatAudit.Shell.Arithmetic
import FormatAudit.Shell.Escape

/-!
Printing by a format: its conversions take the arguments in turn, and it starts over as long as
arguments are left.
-/

namespace FormatAudit.Shell.Printf

inductive Size
  | given (n : Nat)
  | argument
  deriving DecidableEq, Repr

structure Conversion where
  flags : List Char
  width : Size
  precision : Option Size
  letter : Char
  source : List Char
  deriving DecidableEq, Repr

inductive Part
  | char (c : Char)
  | conversion (conversion : Conversion)
  | unfinished
  deriving DecidableEq, Repr

def number (s : List Char) : Nat := (Text.ofDigits 10 s).getD 0

def size (s : List Char) : Size × List Char :=
  match s with
  | '*' :: rest => (.argument, rest)
  | s => (.given (number (s.takeWhile Char.isDigit)), s.dropWhile Char.isDigit)

def conversion? (s : List Char) : Option (Conversion × Nat) :=
  let flags := s.takeWhile (· ∈ ['-', '0', '+', ' ', '#'])
  let (width, rest) := size (s.drop flags.length)
  let (precision, rest) := match rest with
    | '.' :: rest =>
      let (n, rest) := size rest
      (some n, rest)
    | rest => (none, rest)
  match rest with
  | [] => none
  | letter :: rest =>
    let count := s.length - rest.length
    some (⟨flags, width, precision, letter, '%' :: s.take count⟩, count)

def parts (hasEscapes : Bool) (s : List Char) : List Part :=
  match s with
  | [] => []
  | '%' :: '%' :: rest => .char '%' :: parts hasEscapes rest
  | '%' :: rest =>
    match conversion? rest with
    | some (conversion, count) => .conversion conversion :: parts hasEscapes (rest.drop count)
    | none => [.unfinished]
  | c :: rest =>
    if hasEscapes && c = '\\' then
      let (c, count) := formatEscape rest
      .char c :: parts hasEscapes (rest.drop count)
    else .char c :: parts hasEscapes rest
termination_by s.length
decreasing_by all_goals simp; try omega

/-- What printing came to: the characters, the arguments left, the messages about arguments, and whether
printing was ended, by an escape or by a fault of the format. -/
structure Printing where
  chars : List Char
  arguments : List String
  taken : Nat
  messages : List String
  ended : Bool
  fault : Option String

namespace Printing

def start (arguments : List String) : Printing := ⟨[], arguments, 0, [], false, none⟩

def put (p : Printing) (chars : List Char) : Printing := { p with chars := chars.reverse ++ p.chars }

def complain (p : Printing) (message : String) : Printing := { p with messages := message :: p.messages }

def take? (p : Printing) : Option String × Printing :=
  match p.arguments with
  | [] => (none, p)
  | argument :: rest => (some argument, { p with arguments := rest, taken := p.taken + 1 })

def check (p : Printing) (argument : String) (found rest : List Char) (inRange : Bool) : Printing :=
  let fault := if found.isEmpty then ": expected numeric value" else ": not completely converted"
  if !rest.isEmpty then p.complain (argument ++ fault)
  else if inRange then p else p.complain (argument ++ ": Numerical result out of range")

/-- The whole number of an argument: the code of a character behind a quote, or a numeral. -/
def integer (signed : Bool) (p : Printing) : Int × Printing :=
  match p.take? with
  | (none, p) => (0, p)
  | (some argument, p) =>
    match argument.toList with
    | '\'' :: rest | '"' :: rest => ((rest.headD '\x00').toNat, p)
    | s =>
      let text := s.dropWhile isSpace
      let (negative, digits) := match text with
        | '-' :: rest => (true, rest)
        | '+' :: rest => (false, rest)
        | text => (false, text)
      let (_, n, rest) := numeral digits
      let isNumber := rest.length < digits.length
      let value : Int := if negative then -n else n
      let (low, high) : Int × Int :=
        if signed then (-(Nat.pow 2 63), Nat.pow 2 63 - 1) else (-(Nat.pow 2 64 - 1), Nat.pow 2 64 - 1)
      let p := p.check argument (if isNumber then s else []) (if isNumber then rest else s)
        (low ≤ value && value ≤ high)
      if !isNumber then (0, p)
      else if signed then (max low (min high value), p)
      else (if low ≤ value && value ≤ high then value % Nat.pow 2 64 else Nat.pow 2 64 - 1, p)

end Printing

def padded (left : Bool) (width : Nat) (chars : List Char) : List Char :=
  let missing := width - chars.length
  if left then chars ++ List.replicate missing ' ' else List.replicate missing ' ' ++ chars

/-- A sign and digits filled up to a width, with zeros between them if they are asked for. -/
def paddedNumber (c : Conversion) (left : Bool) (width : Nat) (zeros : Bool) (sign digits : List Char) : List Char :=
  if zeros && !left && '0' ∈ c.flags then sign ++ List.replicate (width - sign.length - digits.length) '0' ++ digits
  else padded left width (sign ++ digits)

def signOf (c : Conversion) (negative : Bool) : List Char :=
  if negative then ['-'] else if '+' ∈ c.flags then ['+'] else if ' ' ∈ c.flags then [' '] else []

def wholeNumber (c : Conversion) (left : Bool) (width : Nat) (precision : Option Nat) (n : Int) : List Char :=
  let isSigned := c.letter = 'd' || c.letter = 'i'
  let base := match c.letter with
    | 'o' => 8
    | 'x' | 'X' => 16
    | _ => 10
  let digits := if n = 0 && precision = some 0 then [] else Nat.toDigits base n.natAbs
  let digits := if c.letter = 'X' then digits.map Char.toUpper else digits
  let digits := List.replicate (precision.getD 1 - digits.length) '0' ++ digits
  let marked := '#' ∈ c.flags && n ≠ 0
  let digits := if marked && c.letter = 'o' && digits.head? ≠ some '0' then '0' :: digits else digits
  let sign := if isSigned then signOf c (n < 0)
    else if marked && (c.letter = 'x' || c.letter = 'X') then ['0', c.letter] else []
  paddedNumber c left width precision.isNone sign digits

def sizeOf (p : Printing) : Size → Int × Printing
  | .given n => (n, p)
  | .argument => p.integer true

def convert (p : Printing) (c : Conversion) : Printing :=
  let (width, p) := sizeOf p c.width
  let (precision, p) := match c.precision with
    | none => (none, p)
    | some size =>
      let (n, p) := sizeOf p size
      (if n < 0 then none else some n.toNat, p)
  let left := '-' ∈ c.flags || width < 0
  let width := width.natAbs
  let cut (chars : List Char) := match precision with
    | some n => chars.take n
    | none => chars
  if c.letter = 's' then
    let (argument, p) := p.take?
    p.put (padded left width (cut (argument.getD "").toList))
  else if c.letter = 'b' then
    let (argument, p) := p.take?
    let (chars, ended) := unescaped (argument.getD "").toList
    { p.put (padded left width (cut chars)) with ended := ended }
  else if c.letter = 'c' then
    let (argument, p) := p.take?
    p.put (padded left width [(argument.getD "").toList.headD '\x00'])
  else if c.letter ∈ ['d', 'i'] then
    let (n, p) := p.integer true
    p.put (wholeNumber c left width precision n)
  else if c.letter ∈ ['o', 'u', 'x', 'X'] then
    let (n, p) := p.integer false
    p.put (wholeNumber c left width precision n)
  else { p with ended := true, fault := some (String.ofList c.source ++ ": invalid directive") }

def once (parts : List Part) (p : Printing) : Printing :=
  parts.foldl (fun p part =>
    if p.ended then p
    else match part with
      | .char c => p.put [c]
      | .conversion c => convert p c
      | .unfinished => { p with ended := true, fault := some "missing format character" }) p

def rounds (parts : List Part) : (limit : Nat) → Printing → Printing
  | 0, p => p
  | limit + 1, p =>
    let after := once parts p
    if !after.ended && !after.arguments.isEmpty && p.taken < after.taken then rounds parts limit after else after

def print (format : String) (arguments : List String) : Printing :=
  rounds (parts true format.toList) (arguments.length + 1) (.start arguments)

end FormatAudit.Shell.Printf
