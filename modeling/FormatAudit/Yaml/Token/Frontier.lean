import FormatAudit.Yaml.Token.Basic
import FormatAudit.Yaml.Position

/-!
How far the tokens of a text have been read. A key needs no mark of its own, so whether a token starts one
is seen only at the colon behind it; until then the tokens from there on wait, because the mark of the key
goes in front of them. Indentations form a stack with the innermost first.
-/

namespace FormatAudit.Yaml

/-- A place where a key without a mark may have started. It is `required` where a block mapping can go on
with nothing but a key. -/
structure KeyStart where
  position : Position
  number : Nat
  required : Bool
  deriving Repr

structure Indent where
  column : Int
  isBlock : Bool
  deriving Repr

/-- A flow collection that is open: what it stands in the place of, and whether the pair that is its last
item so far has no braces of its own. -/
structure Bracket where
  isSequence : Bool
  outerKey : Option KeyStart
  inPair : Bool
  deriving Repr

structure Frontier where
  place : Place
  waiting : Array Token
  released : Nat
  keyStart : Option KeyStart
  keyAllowed : Bool
  indents : List Indent
  brackets : List Bracket
  braceSeen : Bool
  closeColonAt : Nat
  ended : Bool
  deriving Repr

namespace Frontier

def start (s : String) : Frontier := ⟨.start s, #[], 0, none, true, [], [], false, 0, false⟩

def maxKeyLength : Nat := 1024

def maxBrackets : Nat := 255

variable (f : Frontier)

def position : Position := f.place.position

def inFlow : Bool := !f.brackets.isEmpty

def indent : Int := (f.indents.head?.map Indent.column).getD (-1)

def inBlock : Bool := f.indents.head?.any Indent.isBlock

def push (token : Token) : Frontier := { f with waiting := f.waiting.push token }

def insert (number : Nat) (token : Token) : Frontier :=
  { f with waiting := f.waiting.insertIdxIfInBounds (number - f.released) token }

def allowKey (allowed : Bool) : Frontier := { f with keyAllowed := allowed }

def setPlace (place : Place) : Frontier := { f with place }

def past (chars : List Char) : Frontier := f.setPlace (f.place.past chars)

def movedTo (place : Place) : Frontier :=
  { f with
    place
    keyAllowed := f.keyAllowed || !f.inFlow && f.position.line < place.position.line }

def skip : Option Frontier := (f.place.skip f.indent).map f.movedTo

def skipLine : Option Frontier := f.place.skipLine.map f.setPlace

def markKey : Frontier :=
  if f.keyAllowed then
    let required := !f.inFlow && f.inBlock && f.indent = f.position.column
    { f with keyStart := some ⟨f.position, f.released + f.waiting.size, required⟩ }
  else f

def dropKey : Option Frontier :=
  if f.keyStart.any KeyStart.required then none else some { f with keyStart := none }

def dropStaleKey : Option Frontier :=
  match f.keyStart with
  | some key =>
    if !f.inFlow && (key.position.line < f.position.line || key.position.index + maxKeyLength < f.position.index) then
      f.dropKey
    else some f
  | none => some f

def closeBlocks (column : Int) : Frontier :=
  if f.inFlow then f
  else
    let closed := f.indents.takeWhile (column < ·.column)
    let ends := (closed.filter Indent.isBlock).map fun _ => Token.blockEnd
    { f with indents := f.indents.drop closed.length, waiting := f.waiting ++ ends }

def dropMargin : Frontier :=
  { f with indents := match f.indents with
    | ⟨_, false⟩ :: rest => rest
    | indents => indents }

def addMargin : Frontier :=
  if !f.inFlow && f.inBlock then { f with indents := ⟨f.indent + 1, false⟩ :: f.indents } else f

/-- Starts a block in the column if none has started there yet, in front of the waiting token of the number,
or of the one that comes next. -/
def openBlock (column : Nat) (number : Option Nat) (token : Token) : Frontier :=
  if f.inFlow then f
  else
    let f := if f.indent ≤ column then f.dropMargin else f
    if f.indent < column then
      let f := { f with indents := ⟨column, true⟩ :: f.indents }
      match number with
      | some number => f.insert number token
      | none => f.push token
    else f

def closePair : Frontier :=
  match f.brackets with
  | ⟨isSequence, outerKey, true⟩ :: rest =>
    { f with brackets := ⟨isSequence, outerKey, false⟩ :: rest, braceSeen := false }.push .flowMappingEnd
  | _ => f

def release : List Token × Frontier :=
  let starts := (f.keyStart :: f.brackets.map Bracket.outerKey).filterMap (Option.map KeyStart.number)
  let count := starts.foldl min (f.released + f.waiting.size) - f.released
  ((f.waiting.extract 0 count).toList,
    { f with waiting := f.waiting.extract count f.waiting.size, released := f.released + count })

end Frontier

end FormatAudit.Yaml
