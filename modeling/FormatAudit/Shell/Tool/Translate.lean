import FormatAudit.Shell.Escape
import FormatAudit.Shell.Tool.Basic

/-!
Replacing, deleting and squeezing characters by sets of them.
-/

namespace FormatAudit.Shell.Tool

namespace CharSet

def between (low high : Nat) : List Char := (List.range (high + 1 - low)).map fun n => Char.ofNat (low + n)

def classes : List (String × List Char) :=
  [("upper", between 65 90), ("lower", between 97 122), ("digit", between 48 57),
    ("alpha", between 65 90 ++ between 97 122), ("alnum", between 48 57 ++ between 65 90 ++ between 97 122),
    ("space", between 9 13 ++ [' ']), ("blank", ['\t', ' ']), ("cntrl", between 0 31 ++ ['\x7f']),
    ("punct", between 33 47 ++ between 58 64 ++ between 91 96 ++ between 123 126), ("print", between 32 126),
    ("graph", between 33 126), ("xdigit", between 48 57 ++ between 65 70 ++ between 97 102)]

def element : List Char → Char × Nat
  | '\\' :: c :: rest =>
    match formatEscape (c :: rest) with
    | (_, 0) => (c, 2)
    | (c, count) => (c, count + 1)
  | c :: _ => (c, 1)
  | [] => (' ', 0)

def className? : List Char → Option (List Char)
  | '[' :: ':' :: rest =>
    let name := rest.takeWhile (· ≠ ':')
    if [':', ']'].isPrefixOf (rest.drop name.length) then some name else none
  | _ => none

def read : (steps : Nat) → List Char → Except String (List Char)
  | 0, _ | _, [] => .ok []
  | steps + 1, s =>
    match className? s with
    | some name =>
      match classes.lookup (String.ofList name) with
      | some chars => do pure (chars ++ (← read steps (s.drop (name.length + 4))))
      | none => .error ("invalid character class '" ++ String.ofList name ++ "'")
    | none =>
      let (low, count) := element s
      match s.drop count with
      | '-' :: d :: more =>
        let (high, highCount) := element (d :: more)
        if high < low then
          .error ("range-endpoints of '" ++ String.ofList (s.take (count + 1 + highCount)) ++
            "' are in reverse collating sequence order")
        else do pure (between low.toNat high.toNat ++ (← read steps ((d :: more).drop highCount)))
      | rest => do pure (low :: (← read steps rest))

/-- The character that takes the place of another: the one at the same place of the second set, or the
last one. What a set names later counts. -/
def replacement (first second : List Char) (c : Char) : Char :=
  let filled := second ++ List.replicate (first.length - second.length) (second.getLast?.getD c)
  ((first.zip filled).reverse.lookup c).getD c

def squeeze (chars : List Char) : List Char → List Char
  | a :: b :: rest =>
    if a = b && chars.contains a then squeeze chars (b :: rest) else a :: squeeze chars (b :: rest)
  | s => s

def tabled (f : Char → Char) (s : List Char) : List Char :=
  let table := ((List.range 256).map fun n => f (Char.ofNat n)).toArray
  s.map fun c => table[c.toNat]?.getD c

end CharSet

def translation (options : Options) (first second input : List Char) : List Char :=
  let first := if options.has 'c' || options.has 'C' then (CharSet.between 0 255).filter (· ∉ first) else first
  let left :=
    if options.has 'd' then input.filter fun c => !first.contains c
    else if second.isEmpty then input
    else CharSet.tabled (CharSet.replacement first second) input
  if options.has 's' then CharSet.squeeze (if second.isEmpty then first else second) left else left

def tr : Tool := fun _ arguments input =>
  withOptions "tr" 1 "cCds" "" arguments input fun options =>
    let most := if options.has 'd' && !options.has 's' then 1 else 2
    let least := if options.has 'd' == options.has 's' then 2 else 1
    match options.operands with
    | [] => refusal "tr" 1 "missing operand" input
    | first :: rest =>
      if rest.length + 1 < least then refusal "tr" 1 ("missing operand after '" ++ first ++ "'") input
      else if most < rest.length + 1 then
        refusal "tr" 1 ("extra operand '" ++ (rest.drop (most - 1)).headD "" ++ "'") input
      else
        let read (s : String) := CharSet.read s.length s.toList
        match read first, read (rest.headD "") with
        | .error message, _ | _, .error message => .complaining 1 [s!"tr: {message}"] input
        | .ok first, .ok second => .printing (translation options first second input) []

end FormatAudit.Shell.Tool
