/-!
Paths as texts. Slashes stand between components; several slashes count as one, and a component that
is a single dot counts only at the start of a relative path.
-/

namespace FormatAudit

structure Path where
  absolute : Bool
  components : List String
  deriving DecidableEq, Repr

namespace Path

def pieces : List Char → List (List Char)
  | [] => [[]]
  | c :: rest =>
    if c = '/' then [] :: pieces rest
    else match pieces rest with
      | piece :: more => (c :: piece) :: more
      | [] => [[c]]

def isPlain (piece : List Char) : Bool := piece ≠ [] && piece ≠ ['.']

def ofText (s : String) : Path :=
  let absolute := s.toList.head? == some '/'
  let all := pieces s.toList
  let dot := if !absolute && all.head? == some ['.'] then ["."] else []
  ⟨absolute, dot ++ (all.filter isPlain).map String.ofList⟩

def length (path : Path) : Nat :=
  (path.components.map fun name => name.utf8ByteSize + 1).foldr (· + ·) 0 - (if path.absolute then 0 else 1)

/-- The name of what a path leads to, unless it is the root or is named by dots. -/
def fileName? (s : String) : Option String :=
  match (ofText s).components.getLast? with
  | none => none
  | some name => if name = "." ∨ name = ".." then none else some name

def fileName (s : String) : String := (fileName? s).getD s

def parent (s : String) : Path :=
  let path := ofText s
  ⟨path.absolute && path.components ≠ [], path.components.dropLast⟩

def extension? (name : String) : Option String :=
  let reversed := name.toList.reverse
  match reversed.dropWhile (· ≠ '.') with
  | [] | [_] => none
  | _ => if name = ".." then none else some (String.ofList (reversed.takeWhile (· ≠ '.')).reverse)

def join (base name : String) : String :=
  if name.toList.head? = some '/' then name
  else if base = "" ∨ base.toList.getLast? = some '/' then base ++ name
  else base ++ "/" ++ name

end Path

end FormatAudit
