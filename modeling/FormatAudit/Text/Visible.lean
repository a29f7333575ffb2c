/-!
Text made visible on one line: a tab becomes four spaces, and a control character its symbol. Characters
that would change the direction of the text are replaced, and those that join others are dropped.
-/

namespace FormatAudit.Text

/-- The characters that open or close a run of text with a direction of its own. -/
def isDirection (c : Char) : Bool :=
  '\u202a' ≤ c && c ≤ '\u202e' || '\u2066' ≤ c && c ≤ '\u2069'

def visible (c : Char) : List Char :=
  if c = '\t' then [' ', ' ', ' ', ' ']
  else if c < ' ' then [Char.ofNat (0x2400 + c.toNat)]
  else if c = '\x7f' then ['\u2421']
  else if c = '\u200d' then []
  else if isDirection c then ['\ufffd']
  else [c]

def visibleLine (s : String) : String := String.ofList ((s.toList.takeWhile (· ≠ '\n')).flatMap visible)

end FormatAudit.Text
