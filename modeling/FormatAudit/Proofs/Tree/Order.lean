import FormatAudit.Proofs.Fields
import FormatAudit.Tree.Basic

/-! Trees that are the same up to the order of fields. For trees without a name twice in a node the comparison of
trees decides it. -/

namespace FormatAudit.Tree

/-- The same tree but for the order of the fields in its nodes. Floats are the same when they are equal as numbers. -/
inductive SameUpToOrder : Tree → Tree → Prop
  | null : SameUpToOrder .null .null
  | boolean (value) : SameUpToOrder (.boolean value) (.boolean value)
  | integer (value) : SameUpToOrder (.integer value) (.integer value)
  | float {value other} : value.equal other = true → SameUpToOrder (.float value) (.float other)
  | text (value) : SameUpToOrder (.text value) (.text value)
  | sequence {items others} : List.Forall₂ SameUpToOrder items others →
      SameUpToOrder (.sequence items) (.sequence others)
  | mapping {fields others ordered} : ordered.Perm others → Fields.keys fields = Fields.keys ordered →
      List.Forall₂ SameUpToOrder (fields.map Prod.snd) (ordered.map Prod.snd) →
      SameUpToOrder (.mapping fields) (.mapping others)

theorem sameUpToOrder_sequence_iff {items others : List Tree} :
    SameUpToOrder (.sequence items) (.sequence others) ↔ List.Forall₂ SameUpToOrder items others := by
  constructor
  · rintro ⟨_⟩
    assumption
  · exact .sequence

theorem sameUpToOrder_mapping_iff {fields others : Fields Tree} : SameUpToOrder (.mapping fields) (.mapping others) ↔
    ∃ ordered : Fields Tree, ordered.Perm others ∧ fields.keys = ordered.keys ∧
      List.Forall₂ SameUpToOrder (fields.map Prod.snd) (ordered.map Prod.snd) := by
  constructor
  · rintro ⟨_⟩
    exact ⟨_, ‹_›, ‹_›, ‹_›⟩
  · rintro ⟨ordered, perm, names, values⟩
    exact .mapping perm names values

theorem wellKeyed_of_get? {fields : Fields Tree} (keyed : WellKeyed.keyedFields fields) {name : String} {value : Tree}
    (found : fields.get? name = some value) : value.WellKeyed := by
  induction fields with
  | nil => simp at found
  | cons field rest ih =>
      obtain ⟨key, other⟩ := field
      rw [Fields.get?_cons] at found
      split at found
      · exact Option.some.inj found ▸ keyed.1
      · exact ih keyed.2 found

mutual

theorem same_iff : (tree other : Tree) → tree.WellKeyed → other.WellKeyed →
    (tree.same other = true ↔ SameUpToOrder tree other)
  | .null, other, _, _ | .boolean _, other, _, _ | .integer _, other, _, _ | .float _, other, _, _
  | .text _, other, _, _ => by cases other <;> grind [same, SameUpToOrder]
  | .sequence items, other, keyed, keyedToo => by
      cases other with
      | sequence others => rw [same, sameItems_iff items others keyed keyedToo, sameUpToOrder_sequence_iff]
      | _ => grind [same, SameUpToOrder]
  | .mapping fields, other, keyed, keyedToo => by
      cases other with
      | mapping others =>
          rw [same, Bool.and_eq_true, beq_iff_eq, sameFields_iff fields others keyed.2 keyedToo.2,
            Fields.related_iff_exists_perm keyed.1 keyedToo.1, sameUpToOrder_mapping_iff]
      | _ => grind [same, SameUpToOrder]

theorem sameItems_iff : (items others : List Tree) → WellKeyed.keyedItems items → WellKeyed.keyedItems others →
    (same.sameItems items others = true ↔ List.Forall₂ SameUpToOrder items others)
  | [], [], _, _ => by simp [same.sameItems]
  | [], _ :: _, _, _ => by simp [same.sameItems]
  | _ :: _, [], _, _ => by simp [same.sameItems]
  | item :: rest, other :: others, keyed, keyedToo => by
      rw [same.sameItems, Bool.and_eq_true, same_iff item other keyed.1 keyedToo.1,
        sameItems_iff rest others keyed.2 keyedToo.2, List.forall₂_cons]

theorem sameFields_iff : (fields : List (String × Tree)) → (others : Fields Tree) →
    WellKeyed.keyedFields fields →
    WellKeyed.keyedFields others → (same.sameFields fields others = true ↔
      ∀ field ∈ fields, ∃ value, others.get? field.1 = some value ∧ SameUpToOrder field.2 value)
  | [], _, _, _ => by simp [same.sameFields]
  | (name, value) :: rest, others, keyed, keyedToo => by
      rw [same.sameFields, Bool.and_eq_true, sameFields_iff rest others keyed.2 keyedToo, List.forall_mem_cons]
      refine and_congr_left fun _ => ?_
      cases held : others.get? name with
      | none => simp
      | some other => simp [same_iff value other keyed.1 (wellKeyed_of_get? keyedToo held)]

end

end FormatAudit.Tree
