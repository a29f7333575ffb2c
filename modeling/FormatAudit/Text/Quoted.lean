import FormatAudit.Text.Invisible

/-!
Texts between quotes. The quote, the backslash and what shows nothing of its own are written as
escapes, so a quoted text is one line and every character of it can be seen.
-/

namespace FormatAudit.Text

def hexDigits (n : Nat) : List Char := Nat.toDigits 16 n

def escapeChar (quote c : Char) : List Char :=
  if c = '\n' then ['\\', 'n']
  else if c = '\r' then ['\\', 'r']
  else if c = '\t' then ['\\', 't']
  else if c = '\\' then ['\\', '\\']
  else if c.toNat = 0 then ['\\', '0']
  else if c = quote then ['\\', c]
  else if isInvisible c then '\\' :: 'u' :: '\x7b' :: hexDigits c.toNat ++ ['\x7d']
  else [c]

def quoteChars (quote : Char) (s : List Char) : List Char :=
  quote :: s.flatMap (escapeChar quote) ++ [quote]

def quoted (s : String) : String := String.ofList (quoteChars '"' s.toList)

def quotedChar (c : Char) : String := String.ofList (quoteChars '\'' [c])

example : quoted "a\"b\\\t'" = "\"a\\\"b\\\\\\t'\"" := by decide +kernel
example : quotedChar '\'' = "'\\''" := by decide +kernel

end FormatAudit.Text
