/-!
Line ends.
-/

namespace FormatAudit.Text

def joinLineEnds : List Char → List Char
  | '\r' :: '\n' :: rest => '\n' :: joinLineEnds rest
  | c :: rest => c :: joinLineEnds rest
  | [] => []

def normalizeLineEndings (s : String) : String := String.ofList (joinLineEnds s.toList)

def splitLines : List Char → List (List Char)
  | [] => [[]]
  | c :: rest =>
    if c = '\n' then [] :: splitLines rest
    else match splitLines rest with
      | line :: more => (c :: line) :: more
      | [] => [[c]]

theorem joinLineEnds_cons {c : Char} {rest : List Char} (plain : ¬(c = '\r' ∧ rest.head? = some '\n')) :
    joinLineEnds (c :: rest) = c :: joinLineEnds rest := by
  cases rest with
  | nil => simp [joinLineEnds]
  | cons d tail =>
    rw [joinLineEnds]
    rintro rest' rfl same
    simp_all

end FormatAudit.Text
