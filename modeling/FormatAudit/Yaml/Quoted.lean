import FormatAudit.Text.Digit
import FormatAudit.Yaml.Position

/-!
Scalars in quotes. White space with line ends is folded in both kinds. Between single quotes, two of
them stand for one; between double quotes, a backslash starts an escape, and one at the end of a line
joins it to the next.
-/

namespace FormatAudit.Yaml.Quoted

inductive Quote
  | single
  | double
  deriving DecidableEq, Repr

def Quote.char : Quote → Char
  | single => '\''
  | double => '"'

def escapeLetter : Char → Option Char
  | '0' => some '\x00'
  | 'a' => some '\x07'
  | 'b' => some '\x08'
  | 't' => some '\t'
  | '\t' => some '\t'
  | 'n' => some '\n'
  | 'v' => some '\x0b'
  | 'f' => some '\x0c'
  | 'r' => some '\r'
  | 'e' => some '\x1b'
  | ' ' => some ' '
  | '"' => some '"'
  | '/' => some '/'
  | '\\' => some '\\'
  | 'N' => some '\u0085'
  | '_' => some '\u00a0'
  | 'L' => some '\u2028'
  | 'P' => some '\u2029'
  | _ => none

def digitCount? : Char → Option Nat
  | 'x' => some 2
  | 'u' => some 4
  | 'U' => some 8
  | _ => none

def escape? : List Char → Option (Char × Nat)
  | [] => none
  | letter :: rest =>
    match digitCount? letter with
    | none => (escapeLetter letter).map (·, 1)
    | some count => do
      let digits := rest.take count
      let n ← Text.ofDigits 16 digits
      if digits.length = count ∧ n.isValidChar then some (Char.ofNat n, count + 1) else none

/-- The scalar may go on after white space, with the text at the position. Outside flow collections a
new line has to be indented more than the block, unless it starts with the closing quote. -/
def resumes (quote : Quote) (inFlow : Bool) (block : Int) (gap : Gap) (s : List Char) (p : Position) : Bool :=
  !p.isMarker s &&
    (inFlow || gap.escaped || gap.breaks = 0 || s.head? = some quote.char || block < p.column)

def readFrom (quote : Quote) (inFlow : Bool) (block : Int) (s : List Char) (p : Position) (text : List Char)
    (gap : Gap) :
    Option (List Char × Place) :=
  match s with
  | [] => none
  | c :: rest =>
    if c = '\n' then readFrom quote inFlow block rest (p.next c) text gap.addBreak
    else if isBlank c then
      if gap.breaks = 0 && !gap.escaped then readFrom quote inFlow block rest (p.next c) text (gap.addBlank c)
      else if c = '\t' && p.column < block then none
      else readFrom quote inFlow block rest (p.next c) text gap
    else if !gap.isNone && !resumes quote inFlow block gap (c :: rest) p then none
    else
      let text := gap.folded.reverse ++ text
      if quote = .single && c = '\'' && rest.head? = some '\'' then
        readFrom quote inFlow block (rest.drop 1) (p.past ['\'', '\'']) ('\'' :: text) .none
      else if c = quote.char then some (text.reverse, ⟨rest, p.next c⟩)
      else if quote = .double && c = '\\' then
        if rest.head? = some '\n' then
          readFrom quote inFlow block (rest.drop 1) (p.past ['\\', '\n']) text .afterEscape
        else match escape? rest with
          | none => none
          | some (escaped, count) =>
            readFrom quote inFlow block (rest.drop count) (p.past (c :: rest.take count)) (escaped :: text) .none
      else readFrom quote inFlow block rest (p.next c) (c :: text) .none
termination_by s.length
decreasing_by all_goals simp only [List.length_cons, List.length_drop]; omega

def mayFollow (inFlow : Bool) (opening closing : Position) (rest : List Char) : Bool :=
  match rest with
  | [] => true
  | c :: _ => c = '\n' || c = ':' && (inFlow || opening.line = closing.line) || inFlow && c ∈ [',', ']', '\x7d']

def read (quote : Quote) (inFlow : Bool) (block : Int) (p : Place) : Option (String × Place) := do
  let (chars, closing) ← readFrom quote inFlow block (p.rest.drop 1) (p.position.next quote.char) [] .none
  let next ← closing.skipLine
  if mayFollow inFlow p.position next.position next.rest then some (String.ofList chars, next) else none

end FormatAudit.Yaml.Quoted
