import FormatAudit.Tree.Traversal

/-!
Taking from a tree what may change when code is printed anew: where nodes stood, what the formatter
calls cosmetic for a kind of node, and the slices of source that tokens carry.
-/

namespace FormatAudit.Tree

def positionFields : List String :=
  ["loc", "range", "start", "end", "lineno", "col_offset", "end_lineno", "end_col_offset"]

theorem mem_positionFields_iff {name : String} : name ∈ positionFields ↔
    name = "loc" ∨ name = "range" ∨ name = "start" ∨ name = "end" ∨ name = "lineno" ∨ name = "col_offset" ∨
      name = "end_lineno" ∨ name = "end_col_offset" := by
  simp [positionFields]

def sourceField : String := "source"

/-- Decides, by the kind of a node and its fields, what of the fields is kept. A formatter's hook is documented to drop
fields and no more, so what it keeps is never heavier; the bound says no more than that, and a hook that puts fields
in another order or smaller values in their place is still one. -/
abbrev Hook (m : Type → Type) := Option String → (fields : Fields Tree) → m (Reduced fields)

section

variable {m : Type → Type} [Monad m]

def cleanFields (hook : Hook m) (fields : Fields Tree) : m (Reduced fields) :=
  let placeless := Reduced.without fields positionFields
  placeless.widen <$> hook (kindOf placeless.1) placeless.1

def clean (hook : Hook m) : Tree → m Tree := walk (cleanFields hook)

def stripSource (tree : Tree) : Tree :=
  Id.run (walk (fun fields => pure (Reduced.without fields [sourceField])) tree)

def normalize (hook : Hook m) (tree : Tree) : m Tree := stripSource <$> clean hook tree

end

end FormatAudit.Tree
