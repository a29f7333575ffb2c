import FormatAudit.Snapshot.Basic

/-! Stores in memory only grow. What a snapshot met when it was recorded it would still meet in every later
store, so the verdict on it can be read off the store at the end. -/

namespace FormatAudit

namespace Fields

variable {α : Type u}

theorem get?_append (fields others : Fields α) (name : String) :
    get? (fields ++ others) name = (fields.get? name).or (others.get? name) := by
  induction fields with
  | nil => simp
  | cons field rest ih =>
      obtain ⟨key, value⟩ := field
      rw [List.cons_append, get?_cons, get?_cons, ih]
      split <;> rfl

theorem get?_append_of_absent {fields others : Fields α} {name : String} (absent : name ∉ others.keys) :
    get? (fields ++ others) name = fields.get? name := by
  rw [get?_append, get?_eq_none_iff.mpr absent, Option.or_none]

theorem insert_of_absent {fields : Fields α} {name : String} (absent : fields.get? name = none) (value : α) :
    fields.insert name value = fields ++ [(name, value)] := by
  induction fields with
  | nil => rfl
  | cons field rest ih =>
      obtain ⟨key, old⟩ := field
      rw [get?_cons] at absent
      split at absent
      · simp at absent
      · rename_i different
        rw [insert, if_neg different, ih absent, List.cons_append]

theorem get?_erase {fields : Fields α} {name other : String} (different : other ≠ name) :
    (fields.erase name).get? other = fields.get? other := by
  induction fields with
  | nil => rfl
  | cons field rest ih =>
      obtain ⟨key, value⟩ := field
      rw [get?_cons, ← ih]
      by_cases same : key = name
      · simp [erase, same, Ne.symm different]
      · simp [erase, same, get?_cons]

theorem get?_of_prefix {fields later : Fields α} {name : String} {value : α} (grown : fields <+: later)
    (found : fields.get? name = some value) : later.get? name = some value := by
  obtain ⟨added, rfl⟩ := grown
  rw [get?_append, found, Option.some_or]

theorem mem_keys_filterMap {β : Type v} {make : β → Option (String × α)} {key : β → String}
    (keyed : ∀ item field, make item = some field → field.1 = key item) {items : List β} {name : String}
    (present : name ∈ keys (items.filterMap make)) : name ∈ items.map key := by
  obtain ⟨field, added, rfl⟩ := List.mem_map.mp present
  obtain ⟨item, member, made⟩ := List.mem_filterMap.mp added
  exact List.mem_map.mpr ⟨item, member, (keyed item field made).symm⟩

/-- Fields made from items with distinct names: each item's own field is found under its name. -/
theorem get?_filterMap {β : Type v} {make : β → Option (String × α)} {key : β → String}
    (keyed : ∀ item field, make item = some field → field.1 = key item) {items : List β}
    (distinct : (items.map key).Nodup) {item : β} (present : item ∈ items) :
    get? (items.filterMap make) (key item) = (make item).map Prod.snd := by
  induction items with
  | nil => simp at present
  | cons first rest ih =>
      rw [List.map_cons, List.nodup_cons] at distinct
      rw [List.filterMap_cons]
      rcases List.mem_cons.mp present with rfl | later
      · have absent : get? (rest.filterMap make) (key item) = none :=
          get?_eq_none_iff.mpr fun inside => distinct.1 (mem_keys_filterMap keyed inside)
        cases made : make item with
        | none => exact absent
        | some field =>
            obtain ⟨name, value⟩ := field
            rw [get?_cons, if_pos (keyed item _ made), Option.map_some]
      · have different : key first ≠ key item := fun same => distinct.1 (same ▸ List.mem_map_of_mem later)
        cases made : make first with
        | none => exact ih distinct.2 later
        | some field =>
            obtain ⟨name, value⟩ := field
            have named : name = key first := keyed first _ made
            rw [get?_cons, named, if_neg different]
            exact ih distinct.2 later

end Fields

theorem Snapshot.toList_compose (source output : String) :
    (compose source output).toList = source.toList ++ separator ++ output.toList := by
  simp [compose]

theorem Snapshot.compose_output_inj {source output other : String}
    (same : compose source output = compose source other) : output = other := by
  rw [← String.toList_inj, toList_compose, toList_compose] at same
  exact String.toList_inj.mp (List.append_cancel_left same)

namespace MemoryStore

theorem record_of_some {store : MemoryStore} {name stored : String} (found : store.get? name = some stored)
    (content : String) : store.record name content =
      (if stored = content then .ok () else .error (mismatch name stored content), store) := by
  simp [record, found]

theorem record_of_none {store : MemoryStore} {name : String} (absent : store.get? name = none)
    (content : String) : store.record name content = (.ok (), ⟨store.entries ++ [(name, content)]⟩) := by
  rw [record, absent]
  simp only [Fields.insert_of_absent absent content]

theorem record_grows (store : MemoryStore) (name content : String) :
    store.entries <+: (store.record name content).2.entries := by
  cases found : store.get? name with
  | some stored =>
      simp only [record_of_some found, List.prefix_refl]
  | none =>
      rw [record_of_none found]
      exact List.prefix_append _ _

/-- Recording the same again in a later store gives the same verdict. -/
theorem record_verdict_of_prefix {store later : MemoryStore} {name content : String}
    (grown : (store.record name content).2.entries <+: later.entries) :
    (later.record name content).1 = (store.record name content).1 := by
  cases found : store.get? name with
  | some stored =>
      rw [record_of_some found] at grown ⊢
      rw [record_of_some (Fields.get?_of_prefix grown found)]
  | none =>
      rw [record_of_none found] at grown ⊢
      have held : later.get? name = some content := by
        refine Fields.get?_of_prefix grown ?_
        rw [Fields.get?_append, show store.entries.get? name = none from found]
        simp [Fields.get?_cons]
      rw [record_of_some held, if_pos rfl]

end MemoryStore

end FormatAudit
