import FormatAudit.Yaml.BlockText
import FormatAudit.Yaml.Plain
import FormatAudit.Yaml.Quoted
import FormatAudit.Yaml.Token.Frontier
import FormatAudit.Yaml.Token.Word

/-!
The tokens of a text, in order, up to the first place where it does not go on with one.
-/

namespace FormatAudit.Yaml

namespace Frontier

variable (f : Frontier)

def readEnd : Option Frontier := do
  if f.inFlow then none
  let f ← f.dropKey
  let f := f.closeBlocks (-1)
  some { (f.push .textEnd).allowKey false with ended := true }

/-- Reads a mark that starts a document or ends one, the latter with the rest of its line. -/
def readMarker (token : Token) : Option Frontier := do
  if f.inFlow then none
  let f ← (f.closeBlocks (-1)).dropKey
  let f := ((f.allowKey false).past (f.place.rest.take 3)).push token
  if token = .documentEnd then
    let f ← f.skipLine
    if endsLine f.place.rest then some f else none
  else some f

def readDirective : Option Frontier := do
  let f ← (f.closeBlocks (-1)).dropKey
  let (token, place) ← Word.readDirective f.place
  some (((f.allowKey false).setPlace place).push token)

def readOpening (isSequence : Bool) : Option Frontier := do
  let f := f.markKey.addMargin
  if maxBrackets ≤ f.brackets.length then none
  let f := { f with
    brackets := ⟨isSequence, f.keyStart, false⟩ :: f.brackets
    keyStart := none
    keyAllowed := true
    braceSeen := f.braceSeen || !isSequence }
  let f ← (f.past (f.place.rest.take 1)).skipLine
  some (f.push (if isSequence then .flowSequence else .flowMapping))

def readClosing (isSequence : Bool) : Option Frontier := do
  let f ← f.dropKey
  let f := if isSequence then f.closePair else f
  match f.brackets with
  | [] => none
  | bracket :: brackets =>
    let f := { f with brackets, keyStart := bracket.outerKey, keyAllowed := false }
    let f ← (f.past (f.place.rest.take 1)).skipLine
    let f := if f.inFlow then { f with closeColonAt := f.position.index } else f
    some (f.push (if isSequence then .flowSequenceEnd else .flowMappingEnd))

def readComma : Option Frontier := do
  let f ← f.dropKey
  let f ← ((f.allowKey true).closePair.past [',']).skipLine
  some (f.push .comma)

def tabsBeforeDash (s : List Char) : Bool :=
  '\t' ∈ s.takeWhile isBlank &&
    match s.dropWhile isBlank with
    | '-' :: rest => endsWord rest
    | _ => false

def readDash : Option Frontier := do
  if f.inFlow || !f.keyAllowed then none
  let f := (f.openBlock f.position.column none .blockSequence).past ['-']
  if tabsBeforeDash f.place.rest then none
  let f ← f.skipLine
  let f := if f.place.rest.head?.any fun c => c = '\n' || isFlowMark c then f.addMargin else f
  let f ← f.dropKey
  some ((f.allowKey true).push .dash)

def readKeyMark : Option Frontier := do
  if !f.inFlow && !f.keyAllowed then none
  let f := f.openBlock f.position.column none .blockMapping
  let f := { f with braceSeen := f.braceSeen || f.inFlow }
  let f ← f.dropKey
  let f := (f.allowKey !f.inFlow).past ['?']
  if f.place.rest.head?.all (· = '\t') then none
  let f ← afterSpaces f
  some (f.push .key)
where
  afterSpaces (f : Frontier) : Option Frontier :=
    let next := spacesFrom f.place.rest f.place.position false
    if next.rest.head? = some '\t' then none else some (f.movedTo next)
  spacesFrom : List Char → Position → (inComment : Bool) → Place
    | [], p, _ => ⟨[], p⟩
    | c :: rest, p, inComment =>
      if c = '\n' then spacesFrom rest (p.next c) false
      else if inComment || c = '#' then spacesFrom rest (p.next c) true
      else if c = ' ' then spacesFrom rest (p.next c) false
      else ⟨c :: rest, p⟩

/-- Tabs are all that stands between a colon and a word or a dash behind it, which no value may do. -/
def tabsBeforeWord (s : List Char) : Bool :=
  s.head? = some '\t' && ' ' ∉ s.takeWhile isBlank && (s.dropWhile isBlank).head?.any Word.isLetter

def startsPair : Bool := f.brackets.any Bracket.isSequence && !f.braceSeen

def openPair : Frontier :=
  { f with brackets := match f.brackets with
    | bracket :: rest => { bracket with inPair := true } :: rest
    | [] => [] }

def readColonOf (key : KeyStart) (pair : Bool) (colon : Position) : Option Frontier := do
  let f := f.insert key.number .key
  if pair && key.position.line < colon.line then none
  let f := if pair then f.insert key.number .flowMapping else f
  let f := (f.openBlock key.position.column (some key.number) .blockMapping).addMargin
  some ({ f with keyStart := none, keyAllowed := false }.push .colon)

def readLoneColon (pair : Bool) (colon : Position) : Option Frontier := do
  let f := if pair then f.push .flowMapping else f
  if !f.inFlow && !f.keyAllowed then none
  let f := (f.openBlock colon.column none .blockMapping).addMargin
  some ((f.allowKey !f.inFlow).push .colon)

def readColon : Option Frontier := do
  let colon := f.position
  let pair := f.startsPair
  let f := (if pair then f.openPair else f).past [':']
  if tabsBeforeWord f.place.rest then none
  let f ← if f.place.rest.head? = some '\t' then f.skipLine else some f
  match f.keyStart with
  | some key => f.readColonOf key pair colon
  | none => f.readLoneColon pair colon

def readCloseColon : Option Frontier :=
  if f.position.index ≠ f.closeColonAt && (f.place.rest.drop 1).head?.any (· ∈ ['[', '\x7b']) then none
  else f.readColon

def readName (token : String → Token) : Option Frontier := do
  let (name, place) ← Word.readName f.place
  some (((f.markKey.allowKey false).setPlace place).push (token name))

def readTag : Option Frontier := do
  let (token, place) ← Word.readTag f.inFlow f.place
  some (((f.markKey.allowKey false).setPlace place).push token)

def readBlockText (folded : Bool) : Option Frontier := do
  let f := (f.markKey.allowKey true).dropMargin
  let (text, place) ← BlockText.read folded f.indent f.place
  some ((f.setPlace place).push (.scalar ⟨text, false⟩))

def readQuoted (quote : Quoted.Quote) : Option Frontier := do
  let (text, place) ← Quoted.read quote f.inFlow f.indent f.place
  let f ← ((f.markKey.allowKey false).setPlace place).skip
  some ({ f with closeColonAt := f.position.index }.push (.scalar ⟨text, false⟩))

def readPlain : Option Frontier := do
  let f := (f.markKey.allowKey false).dropMargin
  let (text, place) ← Plain.read f.inFlow f.indent f.place
  some (((f.allowKey place.position.fresh).setPlace place).push (.scalar ⟨text, true⟩))

def readFrom (c : Char) (rest : List Char) : Option Frontier :=
  match c with
  | '[' => f.readOpening true
  | '\x7b' => f.readOpening false
  | ']' => f.readClosing true
  | '\x7d' => f.readClosing false
  | ',' => f.readComma
  | '*' => f.readName .alias
  | '&' => f.readName .anchor
  | '!' => f.readTag
  | '\'' => f.readQuoted .single
  | '"' => f.readQuoted .double
  | '%' | '@' | '\x60' => none
  | c =>
    if c = '-' && endsWord rest then f.readDash
    else if c = '?' && endsWord rest then f.readKeyMark
    else if c = ':' && endsWord rest then f.readColon
    else if c = ':' && f.inFlow && (rest.head?.any isFlowMark || f.position.index = f.closeColonAt)
      then f.readCloseColon
    else if c = '|' && !f.inFlow then f.readBlockText false
    else if c = '>' && !f.inFlow then f.readBlockText true
    else f.readPlain

def read : Option Frontier := do
  let f ← f.skip
  let f ← f.dropStaleKey
  let f := f.closeBlocks f.position.column
  match f.place.rest with
  | [] => f.readEnd
  | c :: rest =>
    if f.position.column = 0 && c = '%' then f.readDirective
    else if f.position.isMarker (c :: rest) then f.readMarker (if c = '-' then .documentStart else .documentEnd)
    else if f.position.column < f.indent && !(f.inFlow && c ∈ [']', '\x7d', ',']) then none
    else f.readFrom c rest

def tokens (f : Frontier) : Nat → List Token
  | 0 => []
  | fuel + 1 =>
    match f.read.bind dropStaleKey with
    | none => []
    | some f =>
      let (released, f) := f.release
      if f.ended then released else released ++ f.tokens fuel

end Frontier

/-- The tokens of a text. Where it does not go on with one, those that wait are lost. Each of them takes a
character at least, but for the end of the text. -/
def Token.ofText (s : String) : List Token := (Frontier.start s).tokens (s.length + 1)

end FormatAudit.Yaml
