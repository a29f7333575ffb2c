import FormatAudit.Shell.Text

/-!
Patterns of shells: characters, any one of a set, any one at all, and any number of any. What is quoted
stands for itself.
-/

namespace FormatAudit.Shell

inductive CharRange
  | between (low high : Char)
  | named (name : String)
  deriving DecidableEq, Repr

inductive PatternPart
  | char (c : Char)
  | one
  | many
  | set (negated : Bool) (ranges : List CharRange)
  deriving DecidableEq, Repr

abbrev Pattern := List PatternPart

namespace CharRange

def isNamed (name : String) (c : Char) : Bool :=
  match name with
  | "alpha" => c.isAlpha
  | "digit" => c.isDigit
  | "alnum" => c.isAlphanum
  | "upper" => c.isUpper
  | "lower" => c.isLower
  | "space" => isSpace c
  | "blank" => c = ' ' || c = '\t'
  | "punct" => '!' ≤ c && c ≤ '~' && !c.isAlphanum
  | "print" => ' ' ≤ c && c ≤ '~'
  | "graph" => '!' ≤ c && c ≤ '~'
  | "cntrl" => c < ' ' || c = '\x7f'
  | "xdigit" => c.isDigit || 'a' ≤ c && c ≤ 'f' || 'A' ≤ c && c ≤ 'F'
  | _ => false

def contains (c : Char) : CharRange → Bool
  | between low high => low ≤ c && c ≤ high
  | named name => isNamed name c

/-- The name of a class at the start of a text, behind an opening bracket, and what is left behind it. -/
def className? : List Char → Option (String × List Char)
  | ':' :: rest =>
    let name := rest.takeWhile (· ≠ ':')
    match rest.drop name.length with
    | ':' :: ']' :: rest => some (String.ofList name, rest)
    | _ => none
  | _ => none

end CharRange

namespace Pattern

abbrev Mark := Char × Bool

def range (c : Char) (quoted : Bool) (rest : List Mark) : CharRange × Nat :=
  match if c = '[' && !quoted then CharRange.className? (rest.map Prod.fst) else none with
  | some (name, left) => (.named name, rest.length - left.length + 1)
  | none =>
    match rest with
    | ('-', false) :: (high, highQuoted) :: _ =>
      if high = ']' && !highQuoted then (.between c c, 1) else (.between c high, 3)
    | _ => (.between c c, 1)

/-- The ranges of a set up to the bracket that closes it, and what is left behind it. A closing bracket
that comes first belongs to the set. -/
def ranges? (first : Bool) (s : List Mark) : Option (List CharRange × List Mark) :=
  match s with
  | [] => none
  | (c, quoted) :: rest =>
    if c = ']' && !quoted && !first then some ([], rest)
    else do
      let (found, count) := range c quoted rest
      let (more, after) ← ranges? false (rest.drop (count - 1))
      pure (found :: more, after)
termination_by s.length
decreasing_by simp only [List.length_drop, List.length_cons]; omega

def set? (s : List Mark) : Option (PatternPart × Nat) :=
  let negated := s.head? = some ('!', false)
  (ranges? true (if negated then s.drop 1 else s)).map fun (ranges, rest) =>
    (.set negated ranges, s.length - rest.length)

def ofMarks (s : List Mark) : Pattern :=
  match s with
  | [] => []
  | (c, true) :: rest => .char c :: ofMarks rest
  | ('*', false) :: rest => .many :: ofMarks rest
  | ('?', false) :: rest => .one :: ofMarks rest
  | ('\\', false) :: (c, _) :: rest => .char c :: ofMarks rest
  | ('[', false) :: rest =>
    match set? rest with
    | some (part, count) => part :: ofMarks (rest.drop count)
    | none => .char '[' :: ofMarks rest
  | (c, false) :: rest => .char c :: ofMarks rest
termination_by s.length
decreasing_by all_goals simp only [List.length_drop, List.length_cons]; omega

def fits : Pattern → List Char → Bool
  | [], s => s.isEmpty
  | .char c :: rest, d :: s => c = d && fits rest s
  | .one :: rest, _ :: s => fits rest s
  | .set negated ranges :: rest, d :: s => (ranges.any (·.contains d)) != negated && fits rest s
  | .many :: rest, d :: s => fits rest (d :: s) || fits (.many :: rest) s
  | .many :: rest, [] => fits rest []
  | _, [] => false
termination_by parts s => parts.length + s.length

def trimStart (p : Pattern) (longest : Bool) (s : List Char) : List Char :=
  let counts := (List.range (s.length + 1)).filter fun n => fits p (s.take n)
  match if longest then counts.getLast? else counts.head? with
  | some n => s.drop n
  | none => s

def trimEnd (p : Pattern) (longest : Bool) (s : List Char) : List Char :=
  let counts := (List.range (s.length + 1)).filter fun n => fits p (s.drop n)
  match if longest then counts.head? else counts.getLast? with
  | some n => s.take n
  | none => s

end Pattern

end FormatAudit.Shell
