import FormatAudit.Shell.Token.Basic

/-!
Reading commands from tokens. Whether a word is a keyword depends on where it stands, so every look at a
token says whether keywords count there. Every step takes a token or goes one level down in the grammar,
which bounds the nesting by the number of tokens.
-/

namespace FormatAudit.Shell.Script

/-- Reads from tokens, of which the last is never taken; a fault has a line. -/
abbrev Parser := StateT (List Lexeme) (Except (ScriptFault × Nat))

namespace Parser

def peek : Parser Lexeme := do
  match (← get).head? with
  | some ⟨.fault fault, line⟩ => throw (fault, line)
  | some lexeme => pure lexeme
  | none => pure ⟨.textEnd, 1⟩

def advance : Parser Unit := modify (·.drop 1)

def next : Parser Lexeme := do
  let lexeme ← peek
  advance
  pure lexeme

def refuse {α : Type} (keywordsCount : Bool) (wanted : Option String) : Parser α := do
  let lexeme ← peek
  throw (.unexpected (lexeme.token.name keywordsCount) wanted, lexeme.line)

def sign? (keywordsCount : Bool) : Parser (Option String) := do
  pure ((← peek).token.sign? keywordsCount)

def expect (keywordsCount : Bool) (name : String) : Parser Unit := do
  if (← sign? keywordsCount) = some name then advance else refuse keywordsCount (some (Token.quotedName name))

def skipLines : Parser Unit := modify (·.dropWhile fun lexeme => lexeme.token matches .mark "\n")

def word (wanted : Option String) : Parser Word := do
  match (← peek).token with
  | .word word => do
    advance
    pure word
  | _ => refuse false wanted

def redirection? : Parser (Option Redirection) := do
  match (← peek).token with
  | .redirection stream access => do
    advance
    pure (some (.to stream access (← word none)))
  | .here stream _ => do
    advance
    pure (some (.to stream .hereText (← word none)))
  | _ => pure none

def redirections : (fuel : Nat) → Parser (List Redirection)
  | 0 => pure []
  | fuel + 1 => do
    match ← redirection? with
    | some first => do pure (first :: (← redirections fuel))
    | none => pure []

structure Parts where
  assignments : List (String × Word)
  words : List Word
  redirections : List Redirection

def Parts.addWord (parts : Parts) (word : Word) : Parts :=
  match if parts.words.isEmpty then word.assignment? else none with
  | some assignment => { parts with assignments := parts.assignments ++ [assignment] }
  | none => { parts with words := parts.words ++ [word] }

/-- Reads the parts of a simple command; what looks like an assignment is one only in front. -/
def parts (soFar : Parts) : (fuel : Nat) → Parser Parts
  | 0 => pure soFar
  | fuel + 1 => do
    match (← peek).token with
    | .word word => do
      advance
      parts (soFar.addWord word) fuel
    | _ =>
      match ← redirection? with
      | some found => parts { soFar with redirections := soFar.redirections ++ [found] } fuel
      | none => pure soFar

def specialNames : List String :=
  [".", ":", "break", "continue", "eval", "exec", "exit", "export", "readonly", "return", "set", "shift", "times",
    "trap", "unset"]

/-- The words up to the end of the line or a semicolon, which is taken too. -/
def wordsOfLine : (fuel : Nat) → Parser (List Word)
  | 0 => refuse false none
  | fuel + 1 => do
    match (← peek).token with
    | .word word => do
      advance
      pure (word :: (← wordsOfLine fuel))
    | .mark "\n" | .mark ";" => do
      advance
      pure []
    | _ => refuse false none

def loopWords (fuel : Nat) : Parser (List Word) := do
  skipLines
  if (← sign? true) = some "in" then
    advance
    wordsOfLine fuel
  else
    if (← sign? true) = some ";" then advance
    pure [[.parameter "@" .keep [] true]]

def pattern : Parser Word := do
  match (← next).token with
  | .word word => pure word
  | _ => pure []

def patterns : (fuel : Nat) → Parser (List Word)
  | 0 => refuse false none
  | fuel + 1 => do
    let first ← pattern
    if (← sign? false) = some "|" then
      advance
      pure (first :: (← patterns fuel))
    else
      expect false ")"
      pure [first]

def chain (element : Parser Script) (first : Script) : (fuel : Nat) → Parser Script
  | 0 => pure first
  | fuel + 1 => do
    match ← sign? false with
    | some "&&" => do
      advance
      skipLines
      chain element (.both first (← element)) fuel
    | some "||" => do
      advance
      skipLines
      chain element (.either first (← element)) fuel
    | _ => pure first

def piped (element : Parser Script) : (fuel : Nat) → Parser (List Script)
  | 0 => pure []
  | fuel + 1 => do
    if (← sign? false) = some "|" then
      advance
      skipLines
      pure ((← element) :: (← piped element fuel))
    else pure []

def pipeline (command : Parser Script) (fuel : Nat) : Parser Script := do
  let negated := (← sign? true) = some "!"
  if negated then advance
  let first ← command
  let more ← piped command fuel
  let body := if more.isEmpty then first else .pipe (first :: more)
  pure (if negated then .negation body else body)

/-- Reads commands up to what closes them. Inside other commands, line ends only separate, and there has
to be a command unless the list may be empty; outside, a line end closes the list. -/
def list (element : Parser Script) (inside mayEnd : Bool) : (fuel : Nat) → Parser (List Script)
  | 0 => refuse true none
  | fuel + 1 => do
    if inside then skipLines
    let lexeme ← peek
    if lexeme.token matches .mark "\n" then
      advance
      pure []
    else if lexeme.token matches .textEnd then pure []
    else if inside && mayEnd && lexeme.token.closes then pure []
    else
      let command ← element
      match ← sign? false with
      | some "&" => do
        advance
        pure (.background command :: (← list element inside true fuel))
      | some ";" => do
        advance
        pure (command :: (← list element inside true fuel))
      | some "\n" => do pure (command :: (← list element inside true fuel))
      | _ =>
        if !inside && !((← peek).token matches .textEnd) then refuse false none
        pure [command]

def joined : List Script → Script
  | [script] => script
  | parts => .sequence parts

def arms (body : Parser Script) : (fuel : Nat) → Parser (List (List Word × Script))
  | 0 => refuse true none
  | fuel + 1 => do
    skipLines
    if (← sign? true) = some "esac" then
      advance
      pure []
    else
      if (← sign? true) = some "(" then advance
      let words ← patterns fuel
      let script ← body
      skipLines
      if (← sign? true) = some "esac" then
        advance
        pure [(words, script)]
      else
        expect true ";;"
        pure ((words, script) :: (← arms body fuel))

/-- Reads the rest of a branch, from after the keyword in front of its condition. -/
def branch (body : Parser Script) : (fuel : Nat) → Parser Script
  | 0 => refuse true none
  | fuel + 1 => do
    let condition ← body
    expect true "then"
    let yes ← body
    match ← sign? true with
    | some "elif" => do
      advance
      pure (.branch condition yes (← branch body fuel))
    | some "else" => do
      advance
      let no ← body
      expect true "fi"
      pure (.branch condition yes no)
    | _ => do
      expect true "fi"
      pure (.branch condition yes (.sequence []))

def loopBody (body : Parser Script) : Parser Script := do
  expect true "do"
  let script ← body
  expect true "done"
  pure script

def each (body : Parser Script) (fuel : Nat) : Parser Script := do
  let lexeme ← peek
  let name := match lexeme.token with
    | .word word => (word.plain?.filter isName).map String.ofList
    | _ => none
  match name with
  | none => throw (.loopVariable, lexeme.line)
  | some name => do
    advance
    let words ← loopWords fuel
    skipLines
    pure (.each lexeme.line name words (← loopBody body))

def choice (body : Parser Script) (line fuel : Nat) : Parser Script := do
  let subject ← word (some "word")
  skipLines
  expect true "in"
  pure (.choice line subject (← arms body fuel))

def function (command : Parser Script) (word : Word) : Parser Script := do
  expect false ")"
  match word.plain?.filter fun name => isName name && String.ofList name ∉ specialNames with
  | some name => do
    skipLines
    pure (.define (String.ofList name) (← command))
  | none => throw (.functionName, (← peek).line)

def simpleCommand (command : Parser Script) (fuel : Nat) : Parser Script := do
  let line := (← peek).line
  let found ← parts ⟨[], [], []⟩ fuel
  let isCall := (← sign? false) = some "("
  match found with
  | ⟨[], [word], []⟩ =>
    if isCall then
      advance
      function command word
    else pure (.simple line [] [word] [])
  | found => pure (.simple line found.assignments found.words found.redirections)

def withRedirections (line fuel : Nat) (body : Script) : Parser Script := do
  let found ← redirections fuel
  pure (if found.isEmpty then body else .redirected line body found)

def command : (fuel : Nat) → Parser Script
  | 0 => refuse true none
  | fuel + 1 => do
    let andOr : Parser Script := do chain (pipeline (command fuel) fuel) (← pipeline (command fuel) fuel) fuel
    let body : Parser Script := joined <$> list andOr true false fuel
    let line := (← peek).line
    match ← sign? true with
    | some "if" => do
      advance
      withRedirections line fuel (← branch body fuel)
    | some "while" => do
      advance
      let condition ← body
      withRedirections line fuel (.loop true condition (← loopBody body))
    | some "until" => do
      advance
      let condition ← body
      withRedirections line fuel (.loop false condition (← loopBody body))
    | some "for" => do
      advance
      withRedirections line fuel (← each body fuel)
    | some "case" => do
      advance
      withRedirections line fuel (← choice (joined <$> list andOr true true fuel) line fuel)
    | some "(" => do
      advance
      let script ← body
      expect true ")"
      withRedirections line fuel (.subshell line script)
    | some "\x7b" => do
      advance
      let script ← body
      expect true "\x7d"
      withRedirections line fuel script
    | some _ => refuse true none
    | none =>
      if (← peek).token matches .textEnd then refuse true none else simpleCommand (command fuel) fuel

def andOr (fuel : Nat) : Parser Script := do
  chain (pipeline (command fuel) fuel) (← pipeline (command fuel) fuel) fuel

def bound (lexemes : List Lexeme) : Nat := lexemes.length + 1

def line : Parser (List Script) := do
  let fuel := bound (← get)
  list (andOr fuel) false false fuel

def whole : Parser Script := do
  let fuel := bound (← get)
  let parts ← list (andOr fuel) true true fuel
  if (← peek).token matches .textEnd then pure (joined parts) else refuse true (some (Token.quotedName ")"))

end Parser

end FormatAudit.Shell.Script
