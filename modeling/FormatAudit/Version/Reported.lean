import FormatAudit.Text.Blank
import FormatAudit.Version.Basic

/-!
Versions as interpreters report them: between blanks, and with a pre-release that may follow the
numbers without its hyphen.
-/

namespace FormatAudit.Version

def isCoreChar (c : Char) : Bool := c.isDigit || c = '.'

/-- The reported text in the form of a version, its missing hyphen put in. -/
def hyphenated (s : List Char) : List Char :=
  match s.dropWhile isCoreChar with
  | [] => s
  | c :: rest =>
    if c = '-' ∨ c = '+' then s else s.takeWhile isCoreChar ++ '-' :: c :: rest

def ofReport? (raw : String) : Option Version :=
  (parseChars (hyphenated (Text.trimChars raw.toList))).toOption

end FormatAudit.Version
