import FormatAudit.Text.Digit
import FormatAudit.Yaml.Position

/-!
Scalars that are blocks of indented lines, each line kept as it is or the lines folded. Their header
says how the line end after the last line and the empty lines behind it are treated, and it can give
the indentation, which otherwise is that of the first line that is not empty.
-/

namespace FormatAudit.Yaml.BlockText

inductive Ending
  | strip
  | clip
  | keep
  deriving DecidableEq, Repr

structure Header where
  ending : Ending
  indentation : Option Nat
  deriving DecidableEq, Repr

def ending? : Char → Option Ending
  | '-' => some .strip
  | '+' => some .keep
  | _ => none

def indentation? (c : Char) : Option Nat := (Text.digit 10 c).filter (· ≠ 0)

def header? (s : List Char) : Option Header :=
  let (header, rest) : Header × List Char :=
    match s with
    | c :: d :: rest =>
      match ending? c, indentation? c, ending? d, indentation? d with
      | some ending, _, _, some n => (⟨ending, some n⟩, rest)
      | _, some n, some ending, _ => (⟨ending, some n⟩, rest)
      | some ending, _, _, _ => (⟨ending, none⟩, d :: rest)
      | _, some n, _, _ => (⟨.clip, some n⟩, d :: rest)
      | _, _, _, _ => (⟨.clip, none⟩, s)
    | [c] =>
      match ending? c, indentation? c with
      | some ending, _ => (⟨ending, none⟩, [])
      | _, some n => (⟨.clip, some n⟩, [])
      | _, _ => (⟨.clip, none⟩, s)
    | [] => (⟨.clip, none⟩, [])
  if isRestBlank rest then some header else none

def leadingSpaces (s : List Char) : Nat := (s.takeWhile (· = ' ')).length

/-- The greatest number of spaces before the first character that is not white, on its line or on an
empty one before it. -/
def deepest : List Char → (column most : Nat) → Nat
  | ' ' :: rest, column, most => deepest rest (column + 1) (max most (column + 1))
  | '\n' :: rest, _, most => deepest rest 0 most
  | _, _, most => most

structure Line where
  emptyBefore : Nat
  text : List Char

/-- The lines of a block: what they hold, the number of empty lines behind them, whether the last of
them has a line end, and the place after them, which is a line's start or the end of the text. -/
structure Lines where
  lines : List Line
  emptyAfter : Nat
  ended : Bool
  next : Place

def Lines.cons (line : Line) (ls : Lines) : Lines := { ls with lines := line :: ls.lines }

def readLines (indentation : Nat) (s : List Char) (p : Position) (empty : Nat) (ended : Bool) : Lines :=
  let spaces := s.take (min (leadingSpaces s) indentation)
  match start : s.drop (min (leadingSpaces s) indentation) with
  | [] => ⟨[], empty, ended, ⟨[], p.past spaces⟩⟩
  | '\n' :: rest =>
    have : rest.length < s.length := by
      have := congrArg List.length start
      simp only [List.length_drop, List.length_cons] at this
      omega
    readLines indentation rest ((p.past spaces).next '\n') (empty + 1) ended
  | c :: tail =>
    if spaces.length < indentation ∨ p.isMarker s then ⟨[], empty, ended, ⟨s, p⟩⟩
    else
      let text := (c :: tail).takeWhile (· ≠ '\n')
      match after : (c :: tail).dropWhile (· ≠ '\n') with
      | [] => ⟨[⟨empty, text⟩], 0, false, ⟨[], p.past (spaces ++ text)⟩⟩
      | _ :: rest =>
        have : rest.length < s.length := by
          have dropped := (List.dropWhile_sublist (fun c : Char => decide (c ≠ '\n')) (l := c :: tail)).length_le
          rw [after, ← start] at dropped
          simp only [List.length_drop, List.length_cons] at dropped
          omega
        (readLines indentation rest ((p.past (spaces ++ text)).next '\n') 0 true).cons ⟨empty, text⟩
termination_by s.length

def breaks (n : Nat) : List Char := List.replicate n '\n'

def between (folded : Bool) (before : List Char) (line : Line) : List Char :=
  if folded && !before.head?.any isBlank && !line.text.head?.any isBlank then
    if line.emptyBefore = 0 then [' '] else breaks line.emptyBefore
  else breaks (line.emptyBefore + 1)

def join (folded : Bool) (before : List Char) : List Line → List Char
  | [] => []
  | line :: rest => between folded before line ++ line.text ++ join folded line.text rest

def body (folded : Bool) : List Line → List Char
  | [] => []
  | first :: rest => breaks first.emptyBefore ++ first.text ++ join folded first.text rest

def tail (ending : Ending) (indentation : Nat) (ls : Lines) : List Char :=
  let last := ls.next
  let cut := last.rest.isEmpty && max indentation 1 ≤ last.position.column
  match ending with
  | .strip => []
  | .clip => breaks (ls.ended.toNat + cut.toNat)
  | .keep => breaks (ls.ended.toNat + cut.toNat + ls.emptyAfter)

def bodiless (ending : Ending) (empty : Nat) : List Char :=
  match ending with
  | .strip => []
  | .clip => breaks 1
  | .keep => breaks (max empty 1)

def readBody (folded : Bool) (header : Header) (block : Int) (p : Place) : Option (List Char × Place) :=
  let indentation := match header.indentation with
    | some n => n + block.toNat
    | none => max (deepest p.rest 0 0) (block + 1).toNat
  let ls := readLines indentation p.rest p.position 0 false
  let left := ls.next.rest
  let misplaced := ls.lines.isEmpty && !left.isEmpty && block < leadingSpaces left && leadingSpaces left < indentation
  if p.rest.head? = some '\t' || misplaced then none
  else if ls.lines.isEmpty && left.isEmpty then some (bodiless header.ending ls.emptyAfter, ls.next)
  else some (body folded ls.lines ++ tail header.ending indentation ls, ls.next)

def read (folded : Bool) (block : Int) (p : Place) : Option (String × Place) := do
  let p := p.past (p.rest.take 1)
  let header ← header? (p.rest.takeWhile (· ≠ '\n'))
  let q := p.skipWhile (· ≠ '\n')
  if q.rest.isEmpty then some ("", q)
  else
    let (chars, next) ← readBody folded header block (q.past ['\n'])
    some (String.ofList chars, next)

end FormatAudit.Yaml.BlockText
