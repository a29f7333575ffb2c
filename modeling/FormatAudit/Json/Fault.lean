/-!
The ways in which a text stops being JSON. A value that a reader only steps over is read less
closely, so some faults have a second wording for that case.
-/

namespace FormatAudit.Json

/-- Where a text stops being JSON, or a token of it has no value. -/
inductive Fault
  | valueMissing
  | valueUnknown
  | wordUnfinished
  | wordMisspelt
  | numberUnfinished
  | numberMalformed
  | numberTooLarge
  | stringUnfinished
  | escapeUnknown
  | escapeNotHex
  | surrogateAlone
  | surrogateUnpaired
  | controlCharacter
  | listUnfinished
  | listUnseparated
  | listEndsInComma
  | objectUnfinished
  | objectUnfinishedAfterComma
  | objectUnseparated
  | objectEndsInComma
  | keyNotString
  | colonMissing
  deriving DecidableEq, Repr

namespace Fault

def message : Fault → String
  | valueMissing | wordUnfinished | numberUnfinished | objectUnfinishedAfterComma => "EOF while parsing a value"
  | valueUnknown => "expected value"
  | wordMisspelt => "expected ident"
  | numberMalformed => "invalid number"
  | numberTooLarge => "number out of range"
  | stringUnfinished => "EOF while parsing a string"
  | escapeUnknown | escapeNotHex => "invalid escape"
  | surrogateAlone => "lone leading surrogate in hex escape"
  | surrogateUnpaired => "unexpected end of hex escape"
  | controlCharacter => "control character (\\u0000-\\u001F) found while parsing a string"
  | listUnfinished => "EOF while parsing a list"
  | listUnseparated => "expected `,` or `]`"
  | listEndsInComma | objectEndsInComma => "trailing comma"
  | objectUnfinished => "EOF while parsing an object"
  | objectUnseparated => "expected `,` or `\x7d`"
  | keyNotString => "key must be a string"
  | colonMissing => "expected `:`"

def messageWhenSkipped : Fault → String
  | numberUnfinished => "invalid number"
  | listEndsInComma => "expected value"
  | objectEndsInComma => "key must be a string"
  | objectUnfinishedAfterComma => "EOF while parsing an object"
  | fault => fault.message

end Fault

end FormatAudit.Json
