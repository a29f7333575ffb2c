import FormatAudit.Tree.Basic

/-!
Walking a syntax tree from the root down. A visitor gets the fields of each node before its children
are walked, and the walk goes on into the fields that it gives back. What it gives back may not be
heavier than what it got, so every walk ends.
-/

namespace FormatAudit.Tree

abbrev fieldsWeight (fields : Fields Tree) : Nat := weight.fieldsWeight fields

def Reduced (fields : Fields Tree) : Type := { kept : Fields Tree // fieldsWeight kept ≤ fieldsWeight fields }

theorem fieldsWeight_filter_le (fields : Fields Tree) (keep : String × Tree → Bool) :
    fieldsWeight (fields.filter keep) ≤ fieldsWeight fields := by
  induction fields with
  | nil => simp
  | cons field rest ih =>
    obtain ⟨name, value⟩ := field
    simp only [List.filter_cons]
    split <;> simp only [fieldsWeight, weight.fieldsWeight] at * <;> omega

theorem fieldsWeight_perm {fields others : Fields Tree} (perm : fields.Perm others) :
    fieldsWeight fields = fieldsWeight others := by
  induction perm with
  | nil => rfl
  | cons field _ ih => simp only [fieldsWeight, weight.fieldsWeight] at *; omega
  | swap => simp only [fieldsWeight, weight.fieldsWeight]; omega
  | trans _ _ first second => exact first.trans second

def Reduced.filter (fields : Fields Tree) (keep : String × Tree → Bool) : Reduced fields :=
  ⟨fields.filter keep, fieldsWeight_filter_le fields keep⟩

def Reduced.without (fields : Fields Tree) (names : List String) : Reduced fields :=
  .filter fields fun field => field.1 ∉ names

/-- A reduction of reduced fields is one of the fields they come from. -/
def Reduced.widen {fields : Fields Tree} (first : Reduced fields) (second : Reduced first.1) : Reduced fields :=
  ⟨second.1, Nat.le_trans second.2 first.2⟩

section

variable {m : Type → Type} [Monad m] (visit : (fields : Fields Tree) → m (Reduced fields))

mutual

def walk : Tree → m Tree
  | .sequence items => .sequence <$> walkItems items
  | .mapping fields => do
    let kept ← visit fields
    .mapping <$> walkFields kept.1
  | scalar => pure scalar
termination_by tree => tree.weight
decreasing_by
  · simp [weight]
  · have := kept.2
    simp only [fieldsWeight, weight] at *
    omega

def walkItems : List Tree → m (List Tree)
  | [] => pure []
  | item :: rest => do
    let item ← walk item
    let rest ← walkItems rest
    pure (item :: rest)
termination_by items => weight.itemsWeight items
decreasing_by all_goals simp only [weight.itemsWeight]; omega

def walkFields : List (String × Tree) → m (List (String × Tree))
  | [] => pure []
  | (name, value) :: rest => do
    let value ← walk value
    let rest ← walkFields rest
    pure ((name, value) :: rest)
termination_by fields => weight.fieldsWeight fields
decreasing_by all_goals simp only [weight.fieldsWeight]; omega

end

end

end FormatAudit.Tree
