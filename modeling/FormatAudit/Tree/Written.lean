import FormatAudit.Tree.Basic
import FormatAudit.Number.Shortest
import FormatAudit.Text.Quoted

/-!
The text of a tree in a report of two trees that differ: every value under the name of its shape.
-/

namespace FormatAudit.Tree

/-- A float keeps its point, and has an exponent from 10 ^ 16 up and below 10 ^ -4. -/
def floatLayout : DecimalLayout := ⟨fun place => -4 < place && place ≤ 16, true, .bare⟩

def written : Tree → String
  | .null => "Null"
  | .boolean value => s!"Bool({value})"
  | .integer value => s!"Integer({value})"
  | .float value => s!"Float({floatLayout.render value})"
  | .text value => s!"String({Text.quoted value})"
  | .sequence items => "Sequence([" ++ String.intercalate ", " (writtenItems items) ++ "])"
  | .mapping fields => "Mapping(\x7b" ++ String.intercalate ", " (writtenFields fields) ++ "\x7d)"
where
  writtenItems : List Tree → List String
    | [] => []
    | item :: rest => item.written :: writtenItems rest
  writtenFields : List (String × Tree) → List String
    | [] => []
    | (name, value) :: rest => s!"{Text.quoted name}: {value.written}" :: writtenFields rest

end FormatAudit.Tree
