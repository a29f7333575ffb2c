import FormatAudit.Yaml.Scalar

/-!
Tokens of YAML texts. Collections that get their shape from indentation have tokens of their own for
their start and their end.
-/

namespace FormatAudit.Yaml

inductive Token
  | version
  | tagPrefix (handle value : String)
  | documentStart
  | documentEnd
  | textEnd
  | blockSequence
  | blockMapping
  | blockEnd
  | flowSequence
  | flowSequenceEnd
  | flowMapping
  | flowMappingEnd
  | dash
  | comma
  | key
  | colon
  | alias (name : String)
  | anchor (name : String)
  | tag (handle suffix : String)
  | scalar (value : Scalar)
  deriving DecidableEq, Repr

namespace Token

def startsDocument : Token → Bool
  | version | tagPrefix _ _ | documentStart => true
  | _ => false

/-- No more than the token is needed to see that a document has no content. -/
def endsDocument : Token → Bool
  | documentEnd | textEnd => true
  | token => token.startsDocument

end Token

end FormatAudit.Yaml
