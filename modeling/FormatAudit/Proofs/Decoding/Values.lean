import FormatAudit.Decoding.Definition
import FormatAudit.Proofs.Json.Values
import FormatAudit.Proofs.Results

/-! Reading values from JSON. What a value decodes to does not depend on where it stands, as long as it is not too deep
for the place. -/

namespace FormatAudit.Decoder

mutual

/-- How many more lists and objects may be opened is no matter for a value that needs no more of them. -/
theorem setting_congr_room : ∀ (value : Json) {room more : Nat}, value.depth ≤ room → value.depth ≤ more →
    setting room value = setting more value
  | .null, _, _, _, _ | .boolean _, _, _, _, _ | .number _, _, _, _, _ | .text _, _, _, _, _
  | .broken _, _, _, _, _ => by simp only [setting]
  | .array items stop, 0, _, fits, _ => by simp [Json.depth] at fits
  | .array items stop, _ + 1, 0, _, fits => by simp [Json.depth] at fits
  | .array items stop, room + 1, more + 1, fits, fitsToo => by
      simp only [Json.depth, Nat.add_le_add_iff_right] at fits fitsToo
      simp only [setting, settingItems_congr_room items fits fitsToo]
  | .object members stop, 0, _, fits, _ => by simp [Json.depth] at fits
  | .object members stop, _ + 1, 0, _, fits => by simp [Json.depth] at fits
  | .object members stop, room + 1, more + 1, fits, fitsToo => by
      simp only [Json.depth, Nat.add_le_add_iff_right] at fits fitsToo
      simp only [setting, settingMembers_congr_room members fits fitsToo]

theorem settingItems_congr_room : ∀ (items : List Json) {room more : Nat}, Json.depth.itemsDepth items ≤ room →
    Json.depth.itemsDepth items ≤ more → setting.settingItems room items = setting.settingItems more items
  | [], _, _, _, _ => by simp only [setting.settingItems]
  | item :: rest, _, _, fits, fitsToo => by
      rw [Json.depth.itemsDepth, Nat.max_le] at fits fitsToo
      simp only [setting.settingItems, setting_congr_room item fits.1 fitsToo.1,
        settingItems_congr_room rest fits.2 fitsToo.2]

theorem settingMembers_congr_room : ∀ (members : List (Json.StringToken × Json)) {room more : Nat},
    Json.depth.membersDepth members ≤ room → Json.depth.membersDepth members ≤ more →
    setting.settingMembers room members = setting.settingMembers more members
  | [], _, _, _, _ => by simp only [setting.settingMembers]
  | (key, value) :: rest, _, _, fits, fitsToo => by
      rw [Json.depth.membersDepth, Nat.max_le] at fits fitsToo
      simp only [setting.settingMembers, setting_congr_room value fits.1 fitsToo.1,
        settingMembers_congr_room rest fits.2 fitsToo.2]

end

mutual

/-- A value that can be read as an option has no fault and is not too deep. -/
theorem examine_of_setting : ∀ (value : Json) {room : Nat} {found : Setting}, setting room value = .ok found →
    examine room value = .ok ()
  | .null, _, _, _ | .boolean _, _, _, _ => by simp only [examine]
  | .number numeral, _, _, read => by
      simp only [setting, number] at read
      obtain ⟨value, number, _⟩ := bind_eq_ok_iff.mp read
      simp only [examine, number]
      rfl
  | .text token, _, _, read => by
      simp only [setting] at read
      obtain ⟨value, stands, _⟩ := map_eq_ok_iff.mp read
      simp only [examine, stands]
      rfl
  | .array items stop, 0, _, read => by simp [setting] at read
  | .array items stop, room + 1, _, read => by
      simp only [setting] at read
      obtain ⟨values, items_read, read⟩ := bind_eq_ok_iff.mp read
      obtain ⟨_, whole, _⟩ := bind_eq_ok_iff.mp read
      simp only [examine, examineItems_of_setting items items_read]
      exact whole
  | .object members stop, 0, _, read => by simp [setting] at read
  | .object members stop, room + 1, _, read => by
      simp only [setting] at read
      obtain ⟨pairs, members_read, read⟩ := bind_eq_ok_iff.mp read
      obtain ⟨_, whole, _⟩ := bind_eq_ok_iff.mp read
      simp only [examine, examineMembers_of_setting members members_read]
      exact whole
  | .broken _, _, _, read => by simp [setting] at read

theorem examineItems_of_setting : ∀ (items : List Json) {room : Nat} {found : List Setting},
    setting.settingItems room items = .ok found → examine.examineItems room items = .ok ()
  | [], _, _, _ => by simp only [examine.examineItems]
  | item :: rest, _, _, read => by
      simp only [setting.settingItems] at read
      obtain ⟨value, first, read⟩ := bind_eq_ok_iff.mp read
      obtain ⟨values, others, _⟩ := bind_eq_ok_iff.mp read
      simp only [examine.examineItems, examine_of_setting item first]
      exact examineItems_of_setting rest others

theorem examineMembers_of_setting : ∀ (members : List (Json.StringToken × Json)) {room : Nat}
    {found : List (String × Setting)}, setting.settingMembers room members = .ok found →
    examine.examineMembers room members = .ok ()
  | [], _, _, _ => by simp only [examine.examineMembers]
  | (key, value) :: rest, _, _, read => by
      simp only [setting.settingMembers] at read
      obtain ⟨name, stands, read⟩ := bind_eq_ok_iff.mp read
      obtain ⟨found, first, read⟩ := bind_eq_ok_iff.mp read
      obtain ⟨pairs, others, _⟩ := bind_eq_ok_iff.mp read
      simp only [examine.examineMembers, stands, examine_of_setting value first]
      exact examineMembers_of_setting rest others

end

theorem run_eq_ok_iff_root {α : Type} {decode : Decoder α} {s : String} {a : α} :
    run decode s = .ok a ↔ decode maxOpen (Json.read s).root = .ok a ∧ (Json.read s).trailing = false := by
  simp only [run, bind_eq_ok_iff]
  cases (Json.read s).trailing <;> simp

theorem run_eq_ok_iff {α : Type} {decode : Decoder α} {s : String} {root : Json}
    (text : Json.read s = ⟨root, false⟩)
    {a : α} : run decode s = .ok a ↔ decode maxOpen root = .ok a := by
  simp [run_eq_ok_iff_root, text]

theorem ofFault_eq_ok_iff {α : Type} {result : Except Json.Fault α} {a : α} : ofFault result = .ok a ↔
    result = .ok a :=
  mapError_eq_ok_iff

theorem ended_eq_ok_iff {stop : Option Json.Fault} : ended stop = .ok () ↔ stop = none := by
  cases stop <;> simp [ended]

theorem mismatch_ne_ok {α : Type} (expected : String) (value : Json) (a : α) : mismatch expected value ≠ .ok a := by
  intro read
  obtain ⟨found, _, impossible⟩ := bind_eq_ok_iff.mp read
  cases impossible

theorem text_eq_ok_iff {expected : String} {value : Json} {s : String} :
    text expected value = .ok s ↔ value.IsText s := by
  cases value with
  | text token =>
      rw [text, ofFault_eq_ok_iff]
      constructor
      · exact fun stands => ⟨token, rfl, stands⟩
      · rintro ⟨_, ⟨⟩, stands⟩
        exact stands
  | _ =>
      refine iff_of_false (mismatch_ne_ok expected _ s) ?_
      rintro ⟨_, ⟨⟩, _⟩

theorem sequence_eq_ok_iff {α : Type} {item : Json → Except DecodeError α} {room : Nat} {value : Json}
    {found : List α} (shallow : value.depth ≤ room) :
    sequence (fun _ => item) room value = .ok found ↔ value.IsList (fun entry a => item entry = .ok a) found := by
  cases value with
  | array items stop =>
      obtain ⟨room, rfl⟩ := Nat.exists_eq_add_one.mpr (Nat.zero_lt_of_lt shallow)
      simp only [sequence, descend, bind_eq_ok_iff, mapM_eq_ok_iff, pure, Except.pure, Except.ok.injEq]
      constructor
      · rintro ⟨values, matched, ⟨⟩, whole, rfl⟩
        exact ⟨items, congrArg _ (ended_eq_ok_iff.mp whole), matched⟩
      · rintro ⟨_, ⟨⟩, matched⟩
        exact ⟨found, matched, (), ended_eq_ok_iff.mpr rfl, rfl⟩
  | _ =>
      refine iff_of_false (mismatch_ne_ok _ _ found) ?_
      rintro ⟨_, ⟨⟩, _⟩

end FormatAudit.Decoder
