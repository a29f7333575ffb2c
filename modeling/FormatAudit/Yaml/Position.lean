/-!
Positions in a YAML text, the classes of its characters, and the white space between its tokens.
-/

namespace FormatAudit.Yaml

structure Position where
  line : Nat
  column : Nat
  index : Nat
  fresh : Bool
  deriving DecidableEq, Repr

structure Place where
  rest : List Char
  position : Position
  deriving Repr

def isBlank (c : Char) : Bool := c = ' ' || c = '\t'

def isWhite (c : Char) : Bool := isBlank c || c = '\n'

def isFlowMark (c : Char) : Bool := c ∈ [',', '[', ']', '\x7b', '\x7d']

def endsWord (s : List Char) : Bool := s.head?.all isWhite

def endsLine (s : List Char) : Bool := s.head?.all (· = '\n')

def isRestBlank (s : List Char) : Bool :=
  match s.dropWhile isBlank with
  | [] => true
  | c :: _ => c = '\n' || c = '#' && s.head?.any isBlank

def joinLineEnds : List Char → List Char
  | '\r' :: '\n' :: rest => '\n' :: joinLineEnds rest
  | c :: rest => (if c = '\r' then '\n' else c) :: joinLineEnds rest
  | [] => []

namespace Position

def start : Position := ⟨0, 0, 0, true⟩

def next (p : Position) (c : Char) : Position :=
  if c = '\n' then ⟨p.line + 1, 0, p.index + 1, true⟩
  else ⟨p.line, p.column + 1, p.index + 1, p.fresh && isBlank c⟩

def past (p : Position) (chars : List Char) : Position := chars.foldl next p

def isMarker (p : Position) (rest : List Char) : Bool :=
  p.column = 0 &&
    match rest with
    | '-' :: '-' :: '-' :: rest => endsWord rest
    | '.' :: '.' :: '.' :: rest => endsWord rest
    | _ => false

end Position

namespace Place

/-- The start of a text. Line ends are of one kind, a mark of the byte order in front does not count, and
the text ends where a zero character stands. -/
def start (s : String) : Place :=
  let chars := match s.toList with
    | '\uFEFF' :: rest => rest
    | chars => chars
  ⟨joinLineEnds (chars.takeWhile (· ≠ '\x00')), .start⟩

def past (p : Place) (chars : List Char) : Place := ⟨p.rest.drop chars.length, p.position.past chars⟩

def skipWhile (p : Place) (holds : Char → Bool) : Place := p.past (p.rest.takeWhile holds)

def skipLine (p : Place) : Option Place :=
  let q := p.skipWhile isBlank
  match q.rest with
  | '#' :: _ => if p.rest.head?.any isBlank then some (q.skipWhile (· ≠ '\n')) else none
  | _ => some q

/-- Skips white space and comments, where blanks at the start of a line that holds more than a comment
have to be spaces up to the column `least`. -/
def skipFrom (least : Int) : List Char → Position → (inComment : Bool) → Option Place
  | [], p, _ => some ⟨[], p⟩
  | c :: rest, p, inComment =>
    if c = '\n' then skipFrom least rest (p.next c) false
    else if inComment || c = '#' then skipFrom least rest (p.next c) true
    else if c = '\t' && p.fresh && p.column < least && !isRestBlank (c :: rest) then none
    else if isBlank c then skipFrom least rest (p.next c) false
    else some ⟨c :: rest, p⟩

def skip (least : Int) (p : Place) : Option Place := skipFrom least p.rest p.position false

end Place

/-- White space inside a scalar: the blanks before the first line end, with the last of them first, and
the number of line ends. In front of it, a line end may have been taken back by an escape. -/
structure Gap where
  blanks : List Char
  breaks : Nat
  escaped : Bool
  deriving DecidableEq, Repr

namespace Gap

def none : Gap := ⟨[], 0, false⟩

def afterEscape : Gap := ⟨[], 0, true⟩

def isNone (gap : Gap) : Bool := gap.blanks.isEmpty && gap.breaks = 0 && !gap.escaped

def addBreak (gap : Gap) : Gap := { gap with breaks := gap.breaks + 1 }

def addBlank (gap : Gap) (c : Char) : Gap := { gap with blanks := c :: gap.blanks }

def folded (gap : Gap) : List Char :=
  if gap.escaped then List.replicate gap.breaks '\n'
  else match gap.breaks with
    | 0 => gap.blanks.reverse
    | 1 => [' ']
    | breaks + 1 => List.replicate breaks '\n'

end Gap

end FormatAudit.Yaml
