import FormatAudit.Tree.Basic
import FormatAudit.Number.Shortest

/-!
Values of formatter options. They have the shapes of trees without the null, and a text that goes on
the formatter's command line.
-/

namespace FormatAudit

inductive Setting
  | boolean (value : Bool)
  | integer (value : Int)
  | float (value : Binary64)
  | text (value : String)
  | sequence (items : List Setting)
  | mapping (fields : List (String × Setting))
  deriving Repr

namespace Setting

/-- A float is written out in full and has a point only if it is not whole. -/
def floatLayout : DecimalLayout := ⟨fun _ => true, false, .bare⟩

def render : Setting → String
  | .boolean value => toString value
  | .integer value => toString value
  | .float value => floatLayout.render value
  | .text value => value
  | .sequence items => String.intercalate "," (renderItems items)
  | .mapping fields => String.intercalate "," (renderFields fields)
where
  renderItems : List Setting → List String
    | [] => []
    | item :: rest => item.render :: renderItems rest
  renderFields : List (String × Setting) → List String
    | [] => []
    | (name, value) :: rest => s!"{name}={value.render}" :: renderFields rest

def toTree : Setting → Tree
  | .boolean value => .boolean value
  | .integer value => .integer value
  | .float value => .float value
  | .text value => .text value
  | .sequence items => .sequence (itemTrees items)
  | .mapping fields => .mapping (fieldTrees fields)
where
  itemTrees : List Setting → List Tree
    | [] => []
    | item :: rest => item.toTree :: itemTrees rest
  fieldTrees : List (String × Setting) → List (String × Tree)
    | [] => []
    | (name, value) :: rest => (name, value.toTree) :: fieldTrees rest

def same (a b : Setting) : Bool := a.toTree.same b.toTree

end Setting

end FormatAudit
