import FormatAudit.Text.Utf8

/-!
Texts inside the shell. A shell knows bytes and no characters, so a text is a row of bytes here, each
held as the character of its number.
-/

namespace FormatAudit.Shell

def charsOf (bytes : List UInt8) : List Char := bytes.map fun b => Char.ofNat b.toNat

def bytesOf (chars : List Char) : List UInt8 := chars.map fun c => UInt8.ofNat c.toNat

def inward (s : String) : String := String.ofList (charsOf (Text.toUtf8 s))

def isSpace (c : Char) : Bool := c = ' ' || '\t' ≤ c && c ≤ '\r'

end FormatAudit.Shell
