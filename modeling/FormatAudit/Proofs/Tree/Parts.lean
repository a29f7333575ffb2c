import FormatAudit.Tree.Traversal
import Mathlib

/-! The parts of a tree: its items and the values of its fields, at any depth. -/

namespace FormatAudit.Tree

theorem weight_lt_of_mem_items {item : Tree} {items : List Tree} (member : item ∈ items) :
    item.weight < weight.itemsWeight items := by
  induction items with
  | nil => simp at member
  | cons first rest ih =>
      rw [weight.itemsWeight]
      rcases List.mem_cons.mp member with rfl | later
      · omega
      · have below := ih later
        omega

theorem weight_lt_of_mem_fields {field : String × Tree} {fields : Fields Tree} (member : field ∈ fields) :
    field.2.weight < fieldsWeight fields := by
  induction fields with
  | nil => simp at member
  | cons first rest ih =>
      simp only [fieldsWeight, weight.fieldsWeight] at ih ⊢
      rcases List.mem_cons.mp member with rfl | later
      · omega
      · have below := ih later
        omega

theorem fieldsWeight_subperm {fields others : Fields Tree} (part : fields.Subperm others) :
    fieldsWeight fields ≤ fieldsWeight others := by
  obtain ⟨kept, order, sublist⟩ := part
  rw [← fieldsWeight_perm order]
  clear order
  induction sublist with
  | slnil => rfl
  | cons field _ ih => simp only [fieldsWeight, weight.fieldsWeight] at *; omega
  | cons_cons field _ ih => simp only [fieldsWeight, weight.fieldsWeight] at *; omega

theorem partsInduction {motive : Tree → Prop} (null : motive .null) (boolean : ∀ value, motive (.boolean value))
    (integer : ∀ value, motive (.integer value)) (float : ∀ value, motive (.float value))
    (text : ∀ value, motive (.text value))
    (sequence : ∀ items, (∀ item ∈ items, motive item) → motive (.sequence items))
    (mapping : ∀ fields, (∀ field ∈ fields, motive field.2) → motive (.mapping fields)) (tree : Tree) :
      motive tree := by
  generalize size : tree.weight = weight
  induction weight using Nat.strongRecOn generalizing tree with
  | ind weight ih =>
      cases tree with
      | null => exact null
      | boolean value => exact boolean value
      | integer value => exact integer value
      | float value => exact float value
      | text value => exact text value
      | sequence items =>
          refine sequence items ?_
          intro item member
          have below := weight_lt_of_mem_items member
          rw [Tree.weight] at size
          exact ih item.weight (by omega) item rfl
      | mapping fields =>
          refine mapping fields ?_
          intro field member
          have below := weight_lt_of_mem_fields member
          simp only [Tree.weight, fieldsWeight] at size below
          exact ih field.2.weight (by omega) field.2 rfl

/-- The first tree is the second or lies in it, at any depth. -/
inductive PartOf : Tree → Tree → Prop
  | self (tree) : PartOf tree tree
  | item {part item items} : item ∈ items → PartOf part item → PartOf part (.sequence items)
  | field {part field fields} : field ∈ fields → PartOf part field.2 → PartOf part (.mapping fields)

theorem keyedItems_iff {items : List Tree} : WellKeyed.keyedItems items ↔ ∀ item ∈ items, item.WellKeyed := by
  induction items with
  | nil => simp [WellKeyed.keyedItems]
  | cons item rest ih => simp [WellKeyed.keyedItems, ih]

theorem keyedFields_iff {fields : Fields Tree} : WellKeyed.keyedFields fields ↔
    ∀ field ∈ fields, field.2.WellKeyed := by
  induction fields with
  | nil => simp [WellKeyed.keyedFields]
  | cons field rest ih => simp [WellKeyed.keyedFields, ih]

end FormatAudit.Tree
