import FormatAudit.Proofs.Decoding.Places

/-! The two readers of values side by side. An option is read exactly where a tree is read and no null lies in the
text, and what is read is the same. -/

namespace FormatAudit

namespace Setting

mutual

theorem toTree_inj : (a b : Setting) → a.toTree = b.toTree → a = b
  | .boolean _, b, same | .integer _, b, same | .float _, b, same | .text _, b, same => by
      cases b <;> simp_all [toTree]
  | .sequence items, b, same => by
      cases b with
      | sequence others =>
          rw [toTree, toTree, Tree.sequence.injEq] at same
          rw [itemTrees_inj items others same]
      | _ => simp [toTree] at same
  | .mapping fields, b, same => by
      cases b with
      | mapping others =>
          rw [toTree, toTree, Tree.mapping.injEq] at same
          rw [fieldTrees_inj fields others same]
      | _ => simp [toTree] at same

theorem itemTrees_inj : (items others : List Setting) → toTree.itemTrees items = toTree.itemTrees others →
    items = others
  | [], [], _ => rfl
  | [], _ :: _, same | _ :: _, [], same => by simp [toTree.itemTrees] at same
  | item :: rest, other :: others, same => by
      rw [toTree.itemTrees, toTree.itemTrees, List.cons.injEq] at same
      rw [toTree_inj item other same.1, itemTrees_inj rest others same.2]

theorem fieldTrees_inj : (fields others : List (String × Setting)) →
    toTree.fieldTrees fields = toTree.fieldTrees others → fields = others
  | [], [], _ => rfl
  | [], _ :: _, same | _ :: _, [], same => by simp [toTree.fieldTrees] at same
  | (name, value) :: rest, (other, otherValue) :: others, same => by
      rw [toTree.fieldTrees, toTree.fieldTrees, List.cons.injEq, Prod.mk.injEq] at same
      rw [same.1.1, toTree_inj value otherValue same.1.2, fieldTrees_inj rest others same.2]

end

end Setting

namespace Decoder

mutual

theorem setting_of_null : ∀ (value : Json) {room : Nat} {t : Tree}, tree room value = .ok t → ¬value.HasNoNull →
    setting room value = .error .nullSetting
  | .null, _, _, _, _ => by simp only [setting]
  | .boolean _, _, _, _, holds | .number _, _, _, _, holds | .text _, _, _, _, holds | .broken _, _, _, _, holds => by
      simp [Json.HasNoNull] at holds
  | .array items stop, 0, _, read, _ | .object members stop, 0, _, read, _ => by simp [tree] at read
  | .array items stop, room + 1, _, read, holds => by
      simp only [tree] at read
      obtain ⟨_, inside, _⟩ := bind_eq_ok_iff.mp read
      simp only [setting, settingItems_of_null items inside holds]
      rfl
  | .object members stop, room + 1, _, read, holds => by
      simp only [tree] at read
      obtain ⟨_, inside, _⟩ := bind_eq_ok_iff.mp read
      simp only [setting, settingMembers_of_null members inside holds]
      rfl

theorem settingItems_of_null : ∀ (items : List Json) {room : Nat} {found : List Tree},
    tree.treeItems room items = .ok found → ¬Json.HasNoNull.noNullItems items →
      setting.settingItems room items = .error .nullSetting
  | [], _, _, _, holds => by simp [Json.HasNoNull.noNullItems] at holds
  | item :: rest, room, _, read, holds => by
      simp only [tree.treeItems] at read
      obtain ⟨_, first, read⟩ := bind_eq_ok_iff.mp read
      obtain ⟨_, others, _⟩ := bind_eq_ok_iff.mp read
      by_cases clean : item.HasNoNull
      · have later : ¬Json.HasNoNull.noNullItems rest := fun noNull => holds ⟨clean, noNull⟩
        obtain ⟨found, readToo⟩ := exists_setting_iff.mpr ⟨clean, _, first⟩
        simp only [setting.settingItems, readToo, settingItems_of_null rest others later]
        rfl
      · simp only [setting.settingItems, setting_of_null item first clean]
        rfl

theorem settingMembers_of_null : ∀ (members : List (Json.StringToken × Json)) {room : Nat}
    {found : List (String × Tree)},
    tree.treeMembers room members = .ok found → ¬Json.HasNoNull.noNullMembers members →
      setting.settingMembers room members = .error .nullSetting
  | [], _, _, _, holds => by simp [Json.HasNoNull.noNullMembers] at holds
  | (key, value) :: rest, room, _, read, holds => by
      simp only [tree.treeMembers] at read
      obtain ⟨name, stands, read⟩ := bind_eq_ok_iff.mp read
      obtain ⟨_, first, read⟩ := bind_eq_ok_iff.mp read
      obtain ⟨_, others, _⟩ := bind_eq_ok_iff.mp read
      by_cases clean : value.HasNoNull
      · have later : ¬Json.HasNoNull.noNullMembers rest := fun noNull => holds ⟨clean, noNull⟩
        obtain ⟨found, readToo⟩ := exists_setting_iff.mpr ⟨clean, _, first⟩
        simp only [setting.settingMembers, stands, readToo, settingMembers_of_null rest others later]
        rfl
      · simp only [setting.settingMembers, stands, setting_of_null value first clean]
        rfl

end

theorem run_tree_eq_map_setting {text : String} (noNull : (Json.read text).root.HasNoNull) :
    run tree text = Setting.toTree <$> run setting text := by
  rw [run, run, tree_eq_map_setting _ _ noNull]
  cases setting maxOpen (Json.read text).root with
  | error error => rfl
  | ok found => cases (Json.read text).trailing <;> rfl

theorem run_setting_of_null {text : String} {t : Tree} (read : run tree text = .ok t)
    (holds : ¬(Json.read text).root.HasNoNull) : run setting text = .error .nullSetting := by
  obtain ⟨root, _⟩ := run_eq_ok_iff_root.mp read
  rw [run, setting_of_null _ root holds]
  rfl

theorem null_at?_of_run {text : String} {t : Tree} (read : run tree text = .ok t) {path : List Selector}
    (held : (Json.read text).root.at? path = some .null) : t.at? path = some .null := by
  have places := rel_at?_of_tree path (run_eq_ok_iff_root.mp read).1
  rw [held, rel_some_left_iff] at places
  obtain ⟨u, inside, taken⟩ := places
  simp only [tree] at taken
  cases taken
  exact inside

/-- A text holds an option exactly if it holds the tree of that option and no null. Without a null the two readers agree
in all, faults too; with one, where a tree is read, null is what is wrong with the option. -/
theorem setting_agrees_with_tree (text : String) :
    (∀ found, run setting text = .ok found ↔ run tree text = .ok found.toTree ∧
      (Json.read text).root.HasNoNull) ∧
    (∀ t, (∃ found, run setting text = .ok found ∧ found.toTree = t) ↔
      run tree text = .ok t ∧ (Json.read text).root.HasNoNull) ∧
    ((Json.read text).root.HasNoNull → run tree text = Setting.toTree <$> run setting text) ∧
    (∀ t, run tree text = .ok t → ¬(Json.read text).root.HasNoNull → run setting text = .error .nullSetting) ∧
    (∀ t path, run tree text = .ok t → (Json.read text).root.at? path = some .null → t.at? path = some .null) ∧
    ((∃ t, run tree text = .ok t) ↔ HoldsTree (Json.read text)) := by
  have image : ∀ t, (∃ found, run setting text = .ok found ∧ found.toTree = t) ↔
      run tree text = .ok t ∧ (Json.read text).root.HasNoNull := by
    intro t
    constructor
    · rintro ⟨found, read, rfl⟩
      exact ⟨run_tree_of_setting read, hasNoNull_of_setting _ (run_eq_ok_iff_root.mp read).1⟩
    · rintro ⟨read, noNull⟩
      rw [run_tree_eq_map_setting noNull] at read
      exact map_eq_ok_iff.mp read
  refine ⟨?_, image, run_tree_eq_map_setting, fun t => run_setting_of_null, fun t path read => null_at?_of_run read,
    exists_run_tree_iff⟩
  intro found
  rw [← image]
  constructor
  · exact fun read => ⟨found, read, rfl⟩
  · rintro ⟨other, read, same⟩
    rw [read, Setting.toTree_inj other found same]

example :
    let twice : Json := .object [(⟨[.char 'a'], none⟩, .null), (⟨[.char 'a'], none⟩, .boolean true)] none
    tree 1 twice = .ok (.mapping [("a", .boolean true)]) ∧ setting 1 twice = .error .nullSetting :=
      ⟨by rfl, by rfl⟩

end Decoder

end FormatAudit
