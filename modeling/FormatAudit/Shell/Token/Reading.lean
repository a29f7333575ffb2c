import FormatAudit.Shell.Script.Reading

/-!
Reading tokens from a text. Scripts inside words are read along with the words, up to the parenthesis that
no command in them accounts for. Texts that redirections name are taken from the lines behind theirs.
-/

namespace FormatAudit.Shell

structure Source where
  rest : List Char
  line : Nat

abbrev Scanner := StateT Source (Except (ScriptFault × Nat))

inductive Context
  | bare
  | quoted
  | bareBrace
  | quotedBrace (inner : Bool)
  | sum (depth : Nat)
  | hereText
  deriving DecidableEq

/-- What may account for a closing parenthesis inside a substitution: an opening one, or the patterns of
a choice. -/
inductive Frame
  | parenthesis
  | arms (inPattern : Bool)

def Context.quotes : Context → Bool
  | bare | bareBrace => false
  | _ => true

def endsWord (c : Char) : Bool := c ∈ [' ', '\t', '\n', ';', '&', '|', '(', ')', '<', '>']

def isSpecial (c : Char) : Bool := c.isDigit || c ∈ ['!', '#', '$', '*', '-', '?', '@']

def consText (chars : List Char) (quoted : Bool) : Word → Word
  | .text more q :: rest =>
    if q = quoted then .text (chars ++ more) q :: rest else .text chars quoted :: .text more q :: rest
  | rest => .text chars quoted :: rest

namespace Scanner

def fail {α : Type} (fault : ScriptFault) : Scanner α := do throw (fault, (← get).line)

def take (count : Nat) : Scanner (List Char) := do
  let s ← get
  let chars := s.rest.take count
  set ({ rest := s.rest.drop count, line := s.line + chars.count '\n' } : Source)
  pure chars

def taken (c : Char) : Scanner Bool := do
  if (← get).rest.head? = some c then
    let _ ← take 1
    pure true
  else pure false

def takeWhile (holds : Char → Bool) : Scanner (List Char) := do take ((← get).rest.takeWhile holds).length

/-- The characters at the start of a text up to a backquote that no backslash stands in front of, and the
number of characters that they take. -/
def backquoted (quoted : Bool) : List Char → Option (List Char × Nat)
  | [] => none
  | '\x60' :: _ => some ([], 1)
  | '\\' :: c :: rest => do
    let (chars, count) ← backquoted quoted rest
    let kept := if c = '\n' then [] else if c ∈ ['\\', '\x60', '$'] || quoted && c = '"' then [c] else ['\\', c]
    pure (kept ++ chars, count + 2)
  | c :: rest => do
    let (chars, count) ← backquoted quoted rest
    pure (c :: chars, count + 1)

def escaped (context : Context) (c : Char) : List Char :=
  if c = '\n' then []
  else if !context.quotes || c ∈ ['\\', '\x60', '$'] || c = '"' && context ≠ .hereText then [c]
  else if c = '\x7d' && context matches .quotedBrace _ then [c]
  else ['\\', c]

def change? (emptyToo : Bool) : Char → Option Change
  | '-' => some (.instead emptyToo)
  | '+' => some (.alternative emptyToo)
  | '?' => some (.refuse emptyToo)
  | '=' => some (.assign emptyToo)
  | _ => none

def change : Scanner Change := do
  match (← get).rest with
  | '\x7d' :: _ => do
    let _ ← take 1
    pure .keep
  | ':' :: c :: _ =>
    match change? true c with
    | some change => do
      let _ ← take 2
      pure change
    | none => pure .malformed
  | '#' :: '#' :: _ => do
    let _ ← take 2
    pure (.trim true true)
  | '#' :: _ => do
    let _ ← take 1
    pure (.trim true false)
  | '%' :: '%' :: _ => do
    let _ ← take 2
    pure (.trim false true)
  | '%' :: _ => do
    let _ ← take 1
    pure (.trim false false)
  | c :: _ =>
    match change? false c with
    | some change => do
      let _ ← take 1
      pure change
    | none => pure .malformed
  | [] => pure .malformed

def bracedName : Scanner (Option String) := do
  match (← get).rest with
  | c :: _ =>
    if isNameStart c then do pure (some (String.ofList (← takeWhile isNameChar)))
    else if c.isDigit then do pure (some (String.ofList (← takeWhile Char.isDigit)))
    else if isSpecial c then do pure (some (String.ofList (← take 1)))
    else pure none
  | [] => pure none

def asksLength : List Char → Bool
  | '#' :: c :: rest => isNameChar c || isSpecial c && rest.head? = some '\x7d'
  | _ => false

def braced : Scanner (String × Change) := do
  if asksLength (← get).rest then
    let _ ← take 1
    let name ← bracedName
    if ← taken '\x7d' then pure (name.getD "", .length) else pure (name.getD "", .malformed)
  else
    match ← bracedName with
    | some name => do pure (name, ← change)
    | none => pure ("", .malformed)

def marks : List String := [";;", "&&", "||", ";", "&", "|", "(", ")", "\n"]

def redirections : List (String × Access) :=
  [(">>", .append), (">&", .copy), ("<&", .copy), (">|", .overwrite), ("<>", .readWrite), (">", .write), ("<", .read)]

def startOf? {α : Type} (names : List α) (text : α → String) (s : List Char) : Option α :=
  names.find? fun name => (text name).toList.isPrefixOf s

def ownStream (mark : String) : Nat := if mark.startsWith "<" then 0 else 1

def redirection? (s : List Char) : Option (Token × Nat) :=
  let digits := (s.take 1).takeWhile Char.isDigit
  let stream (mark : String) := (digits.head?.map fun c => c.toNat - '0'.toNat).getD (ownStream mark)
  match s.drop digits.length with
  | '<' :: '<' :: '-' :: _ => some (.here (stream "<<") true, digits.length + 3)
  | '<' :: '<' :: _ => some (.here (stream "<<") false, digits.length + 2)
  | rest =>
    (startOf? redirections Prod.fst rest).map fun (mark, access) =>
      (.redirection (stream mark) access, digits.length + mark.length)

/-- The frames after a token, given the tokens before it with the last one first; there are none after the
parenthesis that closes the substitution. -/
def follow (frames : List Frame) (before : List Lexeme) (token : Token) : Option (List Frame) :=
  let words := (before.filter fun lexeme => !(lexeme.token matches .mark "\n")).map fun lexeme => lexeme.token.keyword?
  match token, frames with
  | .mark "(", .arms true :: _ => some frames
  | .mark "(", _ => some (.parenthesis :: frames)
  | .mark ")", .arms true :: rest => some (.arms false :: rest)
  | .mark ")", .parenthesis :: rest => some rest
  | .mark ")", _ => none
  | .mark ";;", .arms false :: rest => some (.arms true :: rest)
  | token, frames =>
    match token.keyword?, frames with
    | some "esac", .arms _ :: rest => some rest
    | some "in", frames => some (if words[1]? = some (some "case") then .arms true :: frames else frames)
    | _, frames => some frames

def hereLines (delimiter : List Char) (indented : Bool) (s : List Char) : List Char × List Char :=
  match s with
  | [] => ([], [])
  | c :: rest =>
    let s := if indented then (c :: rest).dropWhile (· = '\t') else c :: rest
    let line := s.takeWhile (· ≠ '\n')
    match after : (c :: rest).dropWhile (· ≠ '\n') with
    | [] => if line = delimiter then ([], []) else (line, [])
    | _ :: left =>
      if line = delimiter then ([], left)
      else
        have : left.length < (c :: rest).length := by
          have := (List.dropWhile_sublist (fun c : Char => decide (c ≠ '\n')) (l := c :: rest)).length_le
          rw [after, List.length_cons] at this
          omega
        let (more, left) := hereLines delimiter indented left
        (line ++ '\n' :: more, left)
termination_by s.length
decreasing_by exact this

mutual

def pieces (context : Context) : (fuel : Nat) → Scanner Word
  | 0 => fail .openQuotation
  | fuel + 1 => do
    match (← get).rest with
    | [] =>
      match context with
      | .bare | .hereText => pure []
      | .quoted => fail .openQuotation
      | .bareBrace | .quotedBrace _ => fail .openBrace
      | .sum _ => fail .openSum
    | c :: rest =>
      if context = .bare && endsWord c then pure []
      else
        let _ ← take 1
        if c = '"' && context ≠ .hereText then
          match context with
          | .bare | .bareBrace => do
            let inner ← pieces .quoted fuel
            pure (consText [] true inner ++ (← pieces context fuel))
          | .quoted => pure []
          | .quotedBrace inner => pieces (.quotedBrace (!inner)) fuel
          | context => pieces context fuel
        else if c = '\'' && !context.quotes then
          let chars ← takeWhile (· ≠ '\'')
          if ← taken '\'' then do pure (consText chars true (← pieces context fuel)) else fail .openQuotation
        else if c = '\\' then
          match rest with
          | [] => pure [.text ['\\'] true]
          | d :: _ => do
            let _ ← take 1
            let more ← pieces context fuel
            pure (if d = '\n' then more else consText (escaped context d) true more)
        else if c = '$' then
          match ← expansion context fuel with
          | some piece => do pure (piece :: (← pieces context fuel))
          | none => do pure (consText ['$'] context.quotes (← pieces context fuel))
        else if c = '\x60' then
          match backquoted context.quotes rest with
          | none => fail .openBackquote
          | some (chars, count) => do
            let line := (← get).line
            let _ ← take count
            let (lexemes, _, _) := lexemes fuel false [] false [] ⟨chars, line⟩
            let body ← (Script.Parser.whole.run' lexemes : Except _ _)
            pure (.output body context.quotes :: (← pieces context fuel))
        else
          match context, c with
          | .bareBrace, '\x7d' | .quotedBrace false, '\x7d' => pure []
          | .sum depth, '(' => do pure (consText ['('] true (← pieces (.sum (depth + 1)) fuel))
          | .sum 0, ')' => do
            if ← taken ')' then pure [] else pure (consText [')'] true (← pieces (.sum 0) fuel))
          | .sum (depth + 1), ')' => do pure (consText [')'] true (← pieces (.sum depth) fuel))
          | context, c => do pure (consText [c] context.quotes (← pieces context fuel))

def expansion (context : Context) : (fuel : Nat) → Scanner (Option Piece)
  | 0 => pure none
  | fuel + 1 => do
    match (← get).rest with
    | '(' :: '(' :: _ => do
      let _ ← take 2
      pure (some (.number (← pieces (.sum 0) fuel) context.quotes))
    | '(' :: _ => do
      let _ ← take 1
      let (lexemes, source, closed) := lexemes fuel true [] false [] (← get)
      let body ← (Script.Parser.whole.run' lexemes : Except _ _)
      set source
      if closed then pure (some (.output body context.quotes)) else fail (.unexpected "end of file" (some "\")\""))
    | '\x7b' :: _ => do
      let _ ← take 1
      let (name, change) ← braced
      if change = .keep then pure (some (.parameter name .keep [] context.quotes))
      else if change = .length then pure (some (.parameter name .length [] context.quotes))
      else
        let isBare := !context.quotes || change matches .trim _ _
        let operand ← pieces (if isBare then .bareBrace else .quotedBrace false) fuel
        pure (some (.parameter name change operand context.quotes))
    | c :: _ =>
      let plain (name : List Char) : Piece := .parameter (String.ofList name) .keep [] context.quotes
      if isNameStart c then do pure (some (plain (← takeWhile isNameChar)))
      else if isSpecial c then do pure (some (plain (← take 1)))
      else pure none
    | [] => pure none

def token : (fuel : Nat) → Scanner Token
  | 0 => pure .textEnd
  | fuel + 1 => do
    match (← get).rest with
    | [] => pure .textEnd
    | '\\' :: '\n' :: _ => do
      let _ ← take 2
      token fuel
    | '#' :: _ => do
      let _ ← takeWhile (· ≠ '\n')
      token fuel
    | c :: rest =>
      if c = ' ' || c = '\t' then
        let _ ← take 1
        token fuel
      else match redirection? (c :: rest) with
        | some (token, count) => do
          let _ ← take count
          pure token
        | none =>
          match startOf? marks id (c :: rest) with
          | some name => do
            let _ ← take name.length
            pure (.mark name)
          | none => do pure (.word (← pieces .bare fuel))

def hereTexts : (fuel : Nat) → List Lexeme → Scanner (List Lexeme)
  | 0, lexemes => pure lexemes
  | _ + 1, [] => pure []
  | fuel + 1, ⟨.here stream indented, line⟩ :: ⟨.word delimiter, last⟩ :: rest => do
    let s ← get
    let (chars, left) := hereLines delimiter.literal indented s.rest
    set ({ rest := left, line := s.line + (s.rest.take (s.rest.length - left.length)).count '\n' } : Source)
    let body ← if Word.isQuoted delimiter then pure [.text chars true]
      else ((pieces .hereText fuel).run' ⟨chars, s.line⟩ : Except _ _)
    pure (⟨.redirection stream .hereText, line⟩ :: ⟨.word body, last⟩ :: (← hereTexts fuel rest))
  | fuel + 1, lexeme :: rest => do pure (lexeme :: (← hereTexts fuel rest))

/-- Reads tokens up to the end of the text, or to the parenthesis that closes a substitution. `before` holds
those that have been read, with the last one first, and `waiting` says that texts of redirections among them are
still to come. -/
def lexemes : (fuel : Nat) → (inside : Bool) → List Frame → (waiting : Bool) →
    (before : List Lexeme) → Source →
    List Lexeme × Source × Bool
  | 0, _, _, _, before, source => (before.reverse, source, false)
  | fuel + 1, inside, frames, waiting, before, source =>
    match (token fuel).run source with
    | .error (fault, line) => ((⟨.fault fault, line⟩ :: before).reverse, source, true)
    | .ok (token, after) =>
      let lexeme : Lexeme := ⟨token, after.line⟩
      let isLineEnd := token matches .mark "\n"
      let isEnd := token matches .textEnd
      let resolved : Except (ScriptFault × Nat) (List Lexeme × Source) :=
        if waiting && (isLineEnd || isEnd) then do
          let (lexemes, after) ← (hereTexts fuel before.reverse).run after
          pure (lexemes.reverse, after)
        else pure (before, after)
      match resolved with
      | .error (fault, line) => ((⟨.fault fault, line⟩ :: before).reverse, after, true)
      | .ok (before, after) =>
        if isEnd then ((lexeme :: before).reverse, after, !inside)
        else match if inside then follow frames before token else some frames with
          | none => ((⟨.textEnd, after.line⟩ :: before).reverse, after, true)
          | some frames =>
            let isHere := token matches .here _ _
            lexemes fuel inside frames (isHere || waiting && !isLineEnd) (lexeme :: before) after

end

end Scanner

def Lexeme.ofText (s : List Char) : List Lexeme :=
  (Scanner.lexemes (4 * s.length + 8) false [] false [] ⟨s, 1⟩).1

end FormatAudit.Shell
