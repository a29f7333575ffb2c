import FormatAudit.Yaml.Grammar
import FormatAudit.Yaml.Token.Reading

/-!
YAML texts as documents. A text holds a document when there is more in it than white space and
comments, even if that is only the mark that starts a document with nothing written in it.
-/

namespace FormatAudit.Yaml

structure Document where
  root : Option Yaml
  alone : Bool
  deriving Repr

namespace Document

def skipEnds (tokens : List Token) : List Token := tokens.dropWhile (· = .documentEnd)

def tagPrefixes (directives : List Token) : TagPrefixes :=
  directives.reverse.filterMap fun
    | .tagPrefix handle value => some (handle, value)
    | _ => none

def afterStart (tokens : List Token) : Option (TagPrefixes × List Token) :=
  let directives := tokens.takeWhile fun token => token.startsDocument && token ≠ .documentStart
  match tokens.drop directives.length with
  | .documentStart :: rest =>
    if directives.count .version ≤ 1 then some (tagPrefixes directives, rest) else none
  | _ => none

/-- Nothing but marks that end documents comes after a document. What stands there without a mark in front
of it does not count. -/
def isLast : List Token → Bool
  | .documentEnd :: rest =>
    match skipEnds rest with
    | [] | .textEnd :: _ => true
    | token :: rest => token.startsDocument && (afterStart (token :: rest)).isNone
  | .documentStart :: _ | [] => false
  | token :: _ => !token.startsDocument

def ofTokens (prefixes : TagPrefixes) (tokens : List Token) : Document :=
  let reading := readOptional prefixes .document tokens
  ⟨some (reading.node.resolve .start).1, reading.rest.all (isLast ·.1)⟩

end Document

def read (s : String) : Document :=
  match Document.skipEnds (Token.ofText s) with
  | [] => ⟨some .broken, true⟩
  | .textEnd :: _ => ⟨none, true⟩
  | token :: rest =>
    if token.startsDocument then
      match Document.afterStart (token :: rest) with
      | some (prefixes, rest) => .ofTokens prefixes rest
      | none => ⟨some .broken, true⟩
    else .ofTokens [] (token :: rest)

end FormatAudit.Yaml
