/-!
Scripts: the words that they are written in, and the commands that they are made of. Words hold scripts
in turn, whose output takes their place.
-/

namespace FormatAudit.Shell

/-- What becomes of the value of a parameter. Where it matters whether there is one, an empty value can
count as none. -/
inductive Change
  | keep
  | length
  | instead (emptyToo : Bool)
  | assign (emptyToo : Bool)
  | refuse (emptyToo : Bool)
  | alternative (emptyToo : Bool)
  | trim (atStart longest : Bool)
  | malformed
  deriving DecidableEq, Repr

inductive Access
  | read
  | write
  | overwrite
  | append
  | readWrite
  | copy
  | hereText
  deriving DecidableEq, Repr

mutual

/-- A part of a word: characters, the value of a parameter, what a script puts out, or a number. What is
quoted is neither split nor taken as a pattern. -/
inductive Piece
  | text (chars : List Char) (quoted : Bool)
  | parameter (name : String) (change : Change) (operand : List Piece) (quoted : Bool)
  | output (body : Script) (quoted : Bool)
  | number (expression : List Piece) (quoted : Bool)

inductive Redirection
  | to (stream : Nat) (access : Access) (target : List Piece)

inductive Script
  | simple (line : Nat) (assignments : List (String × List Piece)) (words : List (List Piece))
    (redirections : List Redirection)
  | sequence (parts : List Script)
  | background (body : Script)
  | both (first second : Script)
  | either (first second : Script)
  | negation (body : Script)
  | pipe (parts : List Script)
  | subshell (line : Nat) (body : Script)
  | redirected (line : Nat) (body : Script) (redirections : List Redirection)
  | branch (condition yes no : Script)
  | loop (wanted : Bool) (condition body : Script)
  | each (line : Nat) (name : String) (words : List (List Piece)) (body : Script)
  | choice (line : Nat) (subject : List Piece) (arms : List (List (List Piece) × Script))
  | define (name : String) (body : Script)

end

abbrev Word := List Piece

instance : Inhabited Script := ⟨.sequence []⟩

def isNameStart (c : Char) : Bool := c.isAlpha || c = '_'

def isNameChar (c : Char) : Bool := c.isAlphanum || c = '_'

def isName (s : List Char) : Bool := s.head?.any isNameStart && s.all isNameChar

namespace Word

def plain? : Word → Option (List Char)
  | [] => some []
  | [.text chars false] => some chars
  | _ => none

def assignment? : Word → Option (String × Word)
  | .text chars false :: rest =>
    let name := chars.takeWhile isNameChar
    match chars.drop name.length with
    | '=' :: value =>
      if isName name then some (String.ofList name, if value.isEmpty then rest else .text value false :: rest) else none
    | _ => none
  | _ => none

def literal (word : Word) : List Char :=
  word.flatMap fun
    | .text chars _ => chars
    | .parameter name _ _ _ => '$' :: name.toList
    | _ => []

def isQuoted (word : Word) : Bool :=
  word.any fun
    | .text _ quoted => quoted
    | _ => false

end Word

inductive ScriptFault
  | unexpected (found : String) (wanted : Option String)
  | openQuotation
  | openBrace
  | openBackquote
  | openSum
  | functionName
  | loopVariable
  | streamNumber
  deriving DecidableEq, Repr

namespace ScriptFault

def message : ScriptFault → String
  | unexpected found none => s!"Syntax error: {found} unexpected"
  | unexpected found (some wanted) => s!"Syntax error: {found} unexpected (expecting {wanted})"
  | openQuotation => "Syntax error: Unterminated quoted string"
  | openBrace => "Syntax error: Missing '\x7d'"
  | openBackquote => "Syntax error: EOF in backquote substitution"
  | openSum => "Syntax error: Missing '))'"
  | functionName => "Syntax error: Bad function name"
  | loopVariable => "Syntax error: Bad for loop variable"
  | streamNumber => "Syntax error: Bad fd number"

end ScriptFault

end FormatAudit.Shell
