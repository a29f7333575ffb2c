/-!
Names of the parsers that a formatter can be told to use.
-/

namespace FormatAudit

namespace ParserName

def isNameChar (c : Char) : Bool := c.isAlphanum || c = '-' || c = '_' || c = '.'

def isValid (name : String) : Bool := name ≠ "" && name.toList.all isNameChar

end ParserName

/-- A parser name: not empty, and of ASCII letters, digits, hyphens, underscores and dots. -/
structure ParserName where
  text : String
  valid : ParserName.isValid text = true
  deriving DecidableEq, Repr

inductive NameFault
  | empty
  | character
  deriving DecidableEq, Repr

structure NameError where
  name : String
  fault : NameFault
  deriving DecidableEq, Repr

def NameFault.message : NameFault → String
  | empty => "parser names must be non-empty"
  | character => "only ASCII letters, digits, '-', '_' and '.' are allowed"

def NameError.message (e : NameError) : String := s!"invalid parser name '{e.name}': {e.fault.message}"

namespace ParserName

def ofText (name : String) : Except NameError ParserName :=
  if valid : isValid name = true then .ok ⟨name, valid⟩
  else .error ⟨name, if name = "" then .empty else .character⟩

end ParserName

end FormatAudit
