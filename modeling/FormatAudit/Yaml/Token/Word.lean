import FormatAudit.Text.Digit
import FormatAudit.Yaml.Position
import FormatAudit.Yaml.Token.Basic

/-!
Tokens that are words after a mark: names of anchors, tags, and directives.
-/

namespace FormatAudit.Yaml.Word

def isNameChar (c : Char) : Bool := !isWhite c && !isFlowMark c && c ≠ '\uFEFF'

def readName (p : Place) : Option (String × Place) :=
  let p := p.past (p.rest.take 1)
  let name := p.rest.takeWhile isNameChar
  if name.isEmpty then none else some (String.ofList name, p.past name)

def isLetter (c : Char) : Bool := c.isAlphanum || c = '_' || c = '-'

def isAddressChar (c : Char) : Bool :=
  isLetter c || c ∈ ['#', ';', '/', '?', ':', '@', '&', '=', '+', '$', ',', '.', '!', '~', '*', '\'', '(',
    ')', '[', ']', '%']

def isTagChar (c : Char) : Bool := isAddressChar c && !isFlowMark c && c ≠ '!'

def isEscaped : List Char → Bool
  | [] => true
  | '%' :: a :: b :: rest => (Text.hexDigit a).isSome && (Text.hexDigit b).isSome && isEscaped rest
  | c :: rest => c ≠ '%' && isEscaped rest

def readAddress (holds : Char → Bool) (p : Place) : Option (List Char × Place) :=
  let address := p.rest.takeWhile holds
  if isEscaped address then some (address, p.past address) else none

def readHandle (p : Place) : List Char × Place :=
  let q := p.past (p.rest.take 1)
  let letters := q.rest.takeWhile isLetter
  let q := q.past letters
  match q.rest with
  | '!' :: _ => ('!' :: letters ++ ['!'], q.past ['!'])
  | _ => ('!' :: letters, q)

def readWholeTag (p : Place) : Option (Token × Place) := do
  let (address, q) ← readAddress isAddressChar (p.past (p.rest.take 2))
  if q.rest.head? = some '>' then some (.tag "" (String.ofList address), q.past ['>']) else none

def readShortTag (p : Place) : Option (Token × Place) := do
  let (handle, q) := readHandle p
  let (rest, q) ← readAddress isTagChar q
  if 2 ≤ handle.length ∧ handle.getLast? = some '!' then
    if rest.isEmpty then none else some (.tag (String.ofList handle) (String.ofList rest), q)
  else
    let suffix := handle.drop 1 ++ rest
    if suffix.isEmpty then some (.tag "" "!", q) else some (.tag "!" (String.ofList suffix), q)

/-- The tag at a place. White space follows a tag, or a mark of the flow collection that it stands in. -/
def readTag (inFlow : Bool) (p : Place) : Option (Token × Place) := do
  let (token, q) ← match p.rest with
    | _ :: '<' :: _ => readWholeTag p
    | _ => readShortTag p
  if endsWord q.rest || inFlow && q.rest.head?.any isFlowMark then some (token, q) else none

def readVersionNumber (p : Place) : Option Place :=
  let digits := p.rest.takeWhile Char.isDigit
  if digits.isEmpty ∨ 9 < digits.length then none else some (p.past digits)

def readVersion (p : Place) : Option (Token × Place) := do
  let q ← readVersionNumber (p.skipWhile isBlank)
  if q.rest.head? = some '.' then some (.version, ← readVersionNumber (q.past ['.'])) else none

def readTagPrefix (p : Place) : Option (Token × Place) := do
  let p := p.skipWhile isBlank
  if p.rest.head? ≠ some '!' then none
  let (handle, q) := readHandle p
  if 1 < handle.length ∧ handle.getLast? ≠ some '!' then none
  let q := q.skipWhile isBlank
  let start := q.rest.takeWhile (· = '!')
  let (address, next) ← readAddress isAddressChar q
  if address.isEmpty ∨ start.isEmpty ∧ !address.head?.any isTagChar then none
  if endsWord next.rest then some (.tagPrefix (String.ofList handle) (String.ofList address), next) else none

/-- The directive on the line of a place. One of an unknown name stands for nothing. -/
def readDirective (p : Place) : Option (Token × Place) := do
  let p := p.past (p.rest.take 1)
  let name := p.rest.takeWhile isLetter
  let q := p.past name
  if name.isEmpty || !endsWord q.rest then none
  let (token, q) ← match String.ofList name with
    | "YAML" => readVersion q
    | "TAG" => readTagPrefix q
    | _ => some (.tagPrefix "" "", q.skipWhile (· ≠ '\n'))
  let q ← q.skipLine
  match q.rest with
  | [] => some (token, q)
  | c :: _ => if c = '\n' then some (token, q.past ['\n']) else none

end FormatAudit.Yaml.Word
