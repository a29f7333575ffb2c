import FormatAudit.Shell.Script

/-!
Tokens of shell scripts: words, redirections and the marks that join commands.
-/

namespace FormatAudit.Shell

/-- A token. The last one of a text is its end, or says why the text does not go on with a token. -/
inductive Token
  | word (word : Word)
  | redirection (stream : Nat) (access : Access)
  | here (stream : Nat) (indented : Bool)
  | mark (name : String)
  | textEnd
  | fault (fault : ScriptFault)

structure Lexeme where
  token : Token
  line : Nat

def keywords : List String :=
  ["!", "case", "do", "done", "elif", "else", "esac", "fi", "for", "if", "in", "then", "until", "while", "\x7b", "\x7d"]

namespace Token

def keyword? : Token → Option String
  | .word pieces => (pieces.plain?.map String.ofList).filter (· ∈ keywords)
  | _ => none

def sign? (keywordsCount : Bool) (token : Token) : Option String :=
  match token with
  | .mark name => some name
  | token => if keywordsCount then token.keyword? else none

def quotedName (name : String) : String := "\"" ++ name ++ "\""

def name (keywordsCount : Bool) (token : Token) : String :=
  match token with
  | .mark "\n" => "newline"
  | .textEnd | .fault _ => "end of file"
  | .redirection _ _ | .here _ _ => "redirection"
  | token => (token.sign? keywordsCount).elim "word" quotedName

def closes (token : Token) : Bool :=
  match token with
  | .textEnd => true
  | token => (token.sign? true).any (· ∈ [")", ";;", "do", "done", "elif", "else", "esac", "fi", "then", "\x7d"])

end Token

end FormatAudit.Shell
