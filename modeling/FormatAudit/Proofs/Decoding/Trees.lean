import FormatAudit.Proofs.Decoding.Values
import FormatAudit.Proofs.Fields
import FormatAudit.Proofs.Json.Numeral

/-! Trees and option values from JSON values: which values decode, and what lists and objects become. The two readers
differ at null only. -/

namespace FormatAudit.Decoder

theorem exists_ended_iff {stop : Option Json.Fault} : (∃ found, ended stop = .ok found) ↔ stop = none := by
  cases stop <;> simp [ended]

mutual

/-- A tree can be read from a value that has no fault and is not too deep when its numerals can be taken. -/
theorem exists_tree_iff : ∀ (value : Json) (room : Nat), (∃ t, tree room value = .ok t) ↔
    value.depth ≤ room ∧ value.IsWhole ∧ ∀ numeral ∈ value.numerals, numeral.IsAccepted
  | .null, _ | .boolean _, _ => by simp [tree, Json.depth, Json.IsWhole, Json.numerals]
  | .number numeral, _ => by simp [tree, Json.depth, Json.IsWhole, Json.numerals, exists_number_iff]
  | .text token, _ => by simp [tree, Json.depth, Json.IsWhole, Json.numerals, map_eq_ok_iff, ofFault_eq_ok_iff]
  | .broken _, _ => by simp [tree, Json.IsWhole]
  | .array items stop, 0 => by simp [tree, Json.depth]
  | .array items stop, room + 1 => by
      simp only [tree, exists_bind_eq_ok_iff, exists_ended_iff, exists_pure_eq_ok, and_true, exists_and_right,
        exists_treeItems_iff items room, Json.depth, Json.IsWhole, Json.numerals, Nat.add_le_add_iff_right]
      tauto
  | .object members stop, 0 => by simp [tree, Json.depth]
  | .object members stop, room + 1 => by
      simp only [tree, exists_bind_eq_ok_iff, exists_ended_iff, exists_pure_eq_ok, and_true, exists_and_right,
        exists_treeMembers_iff members room, Json.depth, Json.IsWhole, Json.numerals, Nat.add_le_add_iff_right]
      tauto

theorem exists_treeItems_iff : ∀ (items : List Json) (room : Nat), (∃ ts, tree.treeItems room items = .ok ts) ↔
    Json.depth.itemsDepth items ≤ room ∧ Json.IsWhole.wholeItems items ∧
      ∀ numeral ∈ Json.numerals.itemNumerals items, numeral.IsAccepted
  | [], _ => by simp [tree.treeItems, Json.depth.itemsDepth, Json.IsWhole.wholeItems, Json.numerals.itemNumerals]
  | item :: rest, room => by
      simp only [tree.treeItems, exists_bind_eq_ok_iff, exists_pure_eq_ok, and_true, exists_and_right,
        exists_tree_iff item room, exists_treeItems_iff rest room, Json.depth.itemsDepth, Json.IsWhole.wholeItems,
        Json.numerals.itemNumerals, Nat.max_le, List.forall_mem_append]
      tauto

theorem exists_treeMembers_iff : ∀ (members : List (Json.StringToken × Json)) (room : Nat),
    (∃ pairs, tree.treeMembers room members = .ok pairs) ↔
      Json.depth.membersDepth members ≤ room ∧ Json.IsWhole.wholeMembers members ∧
        ∀ numeral ∈ Json.numerals.memberNumerals members, numeral.IsAccepted
  | [], _ => by
      simp [tree.treeMembers, Json.depth.membersDepth, Json.IsWhole.wholeMembers, Json.numerals.memberNumerals]
  | (key, value) :: rest, room => by
      simp only [tree.treeMembers, exists_bind_eq_ok_iff, exists_pure_eq_ok, and_true, exists_and_right,
        ofFault_eq_ok_iff,
        exists_tree_iff value room, exists_treeMembers_iff rest room, Json.depth.membersDepth,
          Json.IsWhole.wholeMembers,
        Json.numerals.memberNumerals, Nat.max_le, List.forall_mem_append]
      tauto

end

/-- A tree can be read from the document. -/
structure HoldsTree (document : Json.Document) : Prop where
  ended : document.trailing = false
  shallow : document.root.depth ≤ maxOpen
  whole : document.root.IsWhole
  accepted : ∀ numeral ∈ document.root.numerals, numeral.IsAccepted

theorem exists_run_tree_iff {text : String} : (∃ t, run tree text = .ok t) ↔ HoldsTree (Json.read text) := by
  simp only [run_eq_ok_iff_root, exists_and_right, exists_tree_iff]
  constructor
  · rintro ⟨⟨shallow, whole, accepted⟩, ended⟩
    exact ⟨ended, shallow, whole, accepted⟩
  · rintro ⟨ended, shallow, whole, accepted⟩
    exact ⟨⟨shallow, whole, accepted⟩, ended⟩

theorem treeItems_eq_ok_iff {room : Nat} {items : List Json} {found : List Tree} :
    tree.treeItems room items = .ok found ↔ List.Forall₂ (fun item t => tree room item = .ok t) items found := by
  induction items generalizing found with
  | nil => simp [tree.treeItems, eq_comm]
  | cons item rest ih =>
      simp only [tree.treeItems, bind_eq_ok_iff, ih, pure, Except.pure, Except.ok.injEq, List.forall₂_cons_left_iff]
      constructor
      · rintro ⟨t, first, others, matched, rfl⟩
        exact ⟨t, others, first, matched, rfl⟩
      · rintro ⟨t, others, first, matched, rfl⟩
        exact ⟨t, first, others, matched, rfl⟩

theorem treeMembers_eq_ok_iff {room : Nat} {members : List (Json.StringToken × Json)} {found : Fields Tree} :
    tree.treeMembers room members = .ok found ↔
      ∃ named, Json.Named members named ∧ Fields.Matched (fun value t => tree room value = .ok t) named found := by
  induction members generalizing found with
  | nil => simp [tree.treeMembers, Json.named_nil_iff, Fields.Matched, eq_comm]
  | cons member rest ih =>
      obtain ⟨key, value⟩ := member
      simp only [tree.treeMembers, bind_eq_ok_iff, ofFault_eq_ok_iff, ih, pure, Except.pure, Except.ok.injEq,
        Json.exists_named_cons_iff, Fields.Matched, List.forall₂_cons_left_iff]
      refine exists_congr fun name => and_congr_right fun _ => ?_
      constructor
      · rintro ⟨t, first, others, ⟨named, matched, read⟩, rfl⟩
        exact ⟨named, matched, (name, t), others, ⟨rfl, first⟩, read, rfl⟩
      · rintro ⟨named, matched, ⟨_, t⟩, others, ⟨rfl, first⟩, read, rfl⟩
        exact ⟨t, first, others, ⟨named, matched, read⟩, rfl⟩

theorem exists_of_tree_array {room : Nat} {items : List Json} {stop : Option Json.Fault} {t : Tree}
    (read : tree room (.array items stop) = .ok t) : ∃ inside found, room = inside + 1 ∧ t = .sequence found ∧
      List.Forall₂ (fun item t => tree inside item = .ok t) items found := by
  cases room with
  | zero => simp [tree] at read
  | succ room =>
      simp only [tree, bind_eq_ok_iff, pure, Except.pure, Except.ok.injEq] at read
      obtain ⟨found, matched, _, _, rfl⟩ := read
      exact ⟨room, found, rfl, rfl, treeItems_eq_ok_iff.mp matched⟩

theorem exists_of_tree_object {room : Nat} {members : List (Json.StringToken × Json)} {stop : Option Json.Fault}
    {t : Tree} (read : tree room (.object members stop) = .ok t) :
    ∃ inside named found, room = inside + 1 ∧ t = .ofFields found ∧ Json.Named members named ∧
      Fields.Matched (fun value t => tree inside value = .ok t) named found := by
  cases room with
  | zero => simp [tree] at read
  | succ room =>
      simp only [tree, bind_eq_ok_iff, pure, Except.pure, Except.ok.injEq] at read
      obtain ⟨found, inside, _, _, rfl⟩ := read
      obtain ⟨named, matched, values⟩ := treeMembers_eq_ok_iff.mp inside
      exact ⟨room, named, found, rfl, rfl, matched, values⟩

theorem number_eq_map (numeral : Json.Numeral) :
    number Tree.integer Tree.float numeral = Setting.toTree <$> number Setting.integer Setting.float numeral := by
  rw [number, number]
  rcases numeral.value with fault | n | x
  · rfl
  · show (if n ≤ maxInteger then _ else _) = Setting.toTree <$> (if n ≤ maxInteger then _ else _)
    split <;> rfl
  · rfl

theorem fieldTrees_eq_map (fields : Fields Setting) :
    Setting.toTree.fieldTrees fields = fields.map fun field => (field.1, field.2.toTree) := by
  induction fields with
  | nil => rfl
  | cons field rest ih => rw [Setting.toTree.fieldTrees, ih, List.map_cons]

theorem ofFields_fieldTrees (pairs : List (String × Setting)) :
    Tree.ofFields (Setting.toTree.fieldTrees pairs) = (Setting.mapping (Fields.ofList pairs)).toTree := by
  rw [Tree.ofFields, Setting.toTree, fieldTrees_eq_map, fieldTrees_eq_map, Fields.ofList_map]

mutual

/-- Where no null lies in it, a value is read as a tree just as it is read as an option. -/
theorem tree_eq_map_setting : ∀ (value : Json) (room : Nat), value.HasNoNull →
    tree room value = Setting.toTree <$> setting room value
  | .null, _, noNull => by simp [Json.HasNoNull] at noNull
  | .boolean _, _, _ | .broken _, _, _ => by
      simp only [tree, setting]
      rfl
  | .number numeral, _, _ => by
      simp only [tree, setting]
      exact number_eq_map numeral
  | .text token, _, _ => by
      simp only [tree, setting]
      cases token.value <;> rfl
  | .array items stop, 0, _ | .object members stop, 0, _ => by
      simp only [tree, setting]
      rfl
  | .array items stop, room + 1, noNull => by
      simp only [tree, setting, treeItems_eq_map_settingItems items room noNull]
      cases setting.settingItems room items <;> cases stop <;> rfl
  | .object members stop, room + 1, noNull => by
      simp only [tree, setting, treeMembers_eq_map_settingMembers members room noNull]
      cases setting.settingMembers room members with
      | error error => rfl
      | ok pairs =>
          cases stop with
          | none => exact congrArg Except.ok (ofFields_fieldTrees pairs)
          | some fault => rfl

theorem treeItems_eq_map_settingItems : ∀ (items : List Json) (room : Nat), Json.HasNoNull.noNullItems items →
    tree.treeItems room items = Setting.toTree.itemTrees <$> setting.settingItems room items
  | [], _, _ => by
      simp only [tree.treeItems, setting.settingItems]
      rfl
  | item :: rest, room, noNull => by
      simp only [tree.treeItems, setting.settingItems, tree_eq_map_setting item room noNull.1,
        treeItems_eq_map_settingItems rest room noNull.2]
      cases setting room item with
      | error error => rfl
      | ok first => cases setting.settingItems room rest <;> rfl

theorem treeMembers_eq_map_settingMembers : ∀ (members : List (Json.StringToken × Json)) (room : Nat),
    Json.HasNoNull.noNullMembers members →
      tree.treeMembers room members = Setting.toTree.fieldTrees <$> setting.settingMembers room members
  | [], _, _ => by
      simp only [tree.treeMembers, setting.settingMembers]
      rfl
  | (key, value) :: rest, room, noNull => by
      simp only [tree.treeMembers, setting.settingMembers, tree_eq_map_setting value room noNull.1,
        treeMembers_eq_map_settingMembers rest room noNull.2]
      cases ofFault key.value with
      | error error => rfl
      | ok name =>
          cases setting room value with
          | error error => rfl
          | ok first => cases setting.settingMembers room rest <;> rfl

end

mutual

theorem hasNoNull_of_setting : ∀ (value : Json) {room : Nat} {found : Setting}, setting room value = .ok found →
    value.HasNoNull
  | .null, _, _, read => by simp [setting] at read
  | .boolean _, _, _, _ | .number _, _, _, _ | .text _, _, _, _ | .broken _, _, _, _ => by simp only [Json.HasNoNull]
  | .array items stop, 0, _, read | .object members stop, 0, _, read => by simp [setting] at read
  | .array items stop, room + 1, _, read => by
      simp only [setting] at read
      obtain ⟨_, inside, _⟩ := bind_eq_ok_iff.mp read
      exact noNullItems_of_settingItems items inside
  | .object members stop, room + 1, _, read => by
      simp only [setting] at read
      obtain ⟨_, inside, _⟩ := bind_eq_ok_iff.mp read
      exact noNullMembers_of_settingMembers members inside

theorem noNullItems_of_settingItems : ∀ (items : List Json) {room : Nat} {found : List Setting},
    setting.settingItems room items = .ok found → Json.HasNoNull.noNullItems items
  | [], _, _, _ => by simp only [Json.HasNoNull.noNullItems]
  | item :: rest, _, _, read => by
      simp only [setting.settingItems] at read
      obtain ⟨_, first, read⟩ := bind_eq_ok_iff.mp read
      obtain ⟨_, others, _⟩ := bind_eq_ok_iff.mp read
      exact ⟨hasNoNull_of_setting item first, noNullItems_of_settingItems rest others⟩

theorem noNullMembers_of_settingMembers : ∀ (members : List (Json.StringToken × Json)) {room : Nat}
    {found : List (String × Setting)}, setting.settingMembers room members = .ok found →
    Json.HasNoNull.noNullMembers members
  | [], _, _, _ => by simp only [Json.HasNoNull.noNullMembers]
  | (key, value) :: rest, _, _, read => by
      simp only [setting.settingMembers] at read
      obtain ⟨_, _, read⟩ := bind_eq_ok_iff.mp read
      obtain ⟨_, first, read⟩ := bind_eq_ok_iff.mp read
      obtain ⟨_, others, _⟩ := bind_eq_ok_iff.mp read
      exact ⟨hasNoNull_of_setting value first, noNullMembers_of_settingMembers rest others⟩

end

theorem tree_of_setting {value : Json} {room : Nat} {found : Setting} (read : setting room value = .ok found) :
    tree room value = .ok found.toTree := by
  rw [tree_eq_map_setting value room (hasNoNull_of_setting value read), read]
  rfl

theorem exists_setting_iff {value : Json} {room : Nat} : (∃ found, setting room value = .ok found) ↔
    value.HasNoNull ∧ ∃ t, tree room value = .ok t := by
  constructor
  · rintro ⟨found, read⟩
    exact ⟨hasNoNull_of_setting value read, found.toTree, tree_of_setting read⟩
  · rintro ⟨noNull, t, read⟩
    rw [tree_eq_map_setting value room noNull] at read
    obtain ⟨found, read, _⟩ := map_eq_ok_iff.mp read
    exact ⟨found, read⟩

theorem run_tree_of_setting {text : String} {found : Setting} (read : run setting text = .ok found) :
    run tree text = .ok found.toTree := by
  obtain ⟨read, ended⟩ := run_eq_ok_iff_root.mp read
  exact run_eq_ok_iff_root.mpr ⟨tree_of_setting read, ended⟩

theorem exists_run_setting_iff {text : String} : (∃ found, run setting text = .ok found) ↔
    (Json.read text).root.HasNoNull ∧ ∃ t, run tree text = .ok t := by
  simp only [run_eq_ok_iff_root, exists_and_right, exists_setting_iff, and_assoc]

end FormatAudit.Decoder
