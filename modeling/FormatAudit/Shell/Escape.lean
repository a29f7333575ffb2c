import FormatAudit.Text.Digit

/-!
Backslash escapes in the texts that shells print: letters for control characters, and octal digits for
bytes. One of the letters ends the printing.
-/

namespace FormatAudit.Shell

def escapeLetter : Char → Option Char
  | 'a' => some '\x07'
  | 'b' => some '\x08'
  | 't' => some '\t'
  | 'n' => some '\n'
  | 'v' => some '\x0b'
  | 'f' => some '\x0c'
  | 'e' => some '\x1b'
  | 'r' => some '\r'
  | '\\' => some '\\'
  | _ => none

def octal (s : List Char) : Char × Nat :=
  let digits := (s.take 3).takeWhile fun c => (Text.digit 8 c).isSome
  (Char.ofNat ((Text.ofDigits 8 digits).getD 0 % 256), digits.length)

/-- What a backslash in a format stands for, and the number of characters after it that belong to it.
Without a meaning of its own it stands for itself. -/
def formatEscape : List Char → Char × Nat
  | [] => ('\\', 0)
  | c :: rest =>
    match escapeLetter c with
    | some letter => (letter, 1)
    | none => if (Text.digit 8 c).isSome then octal (c :: rest) else ('\\', 0)

def argumentEscape : List Char → Char × Nat
  | '0' :: rest =>
    let (c, count) := octal rest
    (c, count + 1)
  | s => formatEscape s

def unescaped (s : List Char) : List Char × Bool :=
  match s with
  | [] => ([], false)
  | '\\' :: 'c' :: _ => ([], true)
  | '\\' :: rest =>
    let (c, count) := argumentEscape rest
    let (more, ended) := unescaped (rest.drop count)
    (c :: more, ended)
  | c :: rest =>
    let (more, ended) := unescaped rest
    (c :: more, ended)
termination_by s.length
decreasing_by all_goals simp; try omega

end FormatAudit.Shell
