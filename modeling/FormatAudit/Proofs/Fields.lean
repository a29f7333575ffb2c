import FormatAudit.Fields
import Mathlib

/-! Fields looked up by name: what a filter leaves, what putting pairs in one after the other gives, and two lists of
fields matched name by name. -/

namespace FormatAudit.Fields

variable {α : Type u} {β : Type v}

theorem get?_eq_some_iff {fields : Fields α} (distinct : fields.Distinct) {name : String} {value : α} :
    fields.get? name = some value ↔ (name, value) ∈ fields := by
  refine ⟨mem_keys_of_get?, ?_⟩
  intro present
  induction fields with
  | nil => simp at present
  | cons field rest ih =>
      obtain ⟨key, old⟩ := field
      obtain ⟨fresh, distinctRest⟩ := List.nodup_cons.mp distinct
      rw [get?_cons]
      rcases List.mem_cons.mp present with same | later
      · cases same
        rw [if_pos rfl]
      · have different : key ≠ name := fun same => fresh (List.mem_map.mpr ⟨_, later, same.symm⟩)
        rw [if_neg different, ih distinctRest later]

theorem get?_perm {fields others : Fields α} (distinct : fields.Distinct) (perm : fields.Perm others) (name : String) :
    others.get? name = fields.get? name := by
  have distinctToo : others.Distinct := (perm.map Prod.fst).nodup_iff.mp distinct
  ext value
  rw [get?_eq_some_iff distinctToo, get?_eq_some_iff distinct, perm.mem_iff]

theorem get?_filter (keep : String → Bool) (fields : Fields α) (name : String) :
    get? (fields.filter fun field => keep field.1) name = if keep name then fields.get? name else none := by
  induction fields with
  | nil => simp
  | cons field rest ih =>
      obtain ⟨key, value⟩ := field
      rw [List.filter_cons, get?_cons]
      by_cases same : key = name
      · subst same
        by_cases kept : keep key <;> simp [kept, get?_cons, ih]
      · by_cases kept : keep key <;> simp [kept, get?_cons, ih, same]

/-- Where names are distinct, the fields of a part are those whose names are in it. -/
theorem flatMap_of_sublist {fields kept : Fields α} (distinct : fields.Distinct) (part : kept.Sublist fields)
    (f : String × α → List β) :
    kept.flatMap f = fields.flatMap fun field => if field.1 ∈ kept.keys then f field else [] := by
  induction part with
  | slnil => rfl
  | @cons kept _ field part ih =>
      obtain ⟨fresh, distinct⟩ := List.nodup_cons.mp distinct
      have absent : field.1 ∉ keys kept := fun present => fresh ((part.map Prod.fst).subset present)
      rw [List.flatMap_cons, if_neg absent, List.nil_append, ih distinct]
  | @cons_cons kept _ field part ih =>
      obtain ⟨fresh, distinct⟩ := List.nodup_cons.mp distinct
      rw [List.flatMap_cons, List.flatMap_cons, ih distinct, if_pos (by simp [keys])]
      refine congrArg _ (List.flatMap_congr ?_)
      intro other member
      have different : other.1 ≠ field.1 := fun same => fresh (List.mem_map.mpr ⟨other, member, same⟩)
      have alike : other.1 ∈ keys kept ↔ other.1 ∈ keys (field :: kept) := by simp [keys, different]
      rw [if_congr alike rfl rfl]

theorem keys_foldl_insert (pairs : List (String × α)) (fields : Fields α) :
    (pairs.foldl (fun fields pair => fields.insert pair.1 pair.2) fields).keys =
      fields.keys ++ ((keys pairs).filter (· ∉ fields.keys)).eraseDups := by
  induction pairs generalizing fields with
  | nil => simp [keys]
  | cons pair rest ih =>
      rw [List.foldl_cons, ih, keys_insert, show keys (pair :: rest) = pair.1 :: keys rest from rfl, List.filter_cons]
      by_cases present : pair.1 ∈ fields.keys
      · simp [present]
      · -- the name is new: it goes last, and later pairs of that name add nothing
        simp only [present, not_false_eq_true, decide_true, ↓reduceIte, List.eraseDups_cons, List.filter_filter,
          List.append_assoc, List.cons_append, List.nil_append]
        congr 3
        refine List.filter_congr ?_
        intro name _
        by_cases same : name = pair.1 <;> simp [same]

theorem keys_ofList (pairs : List (String × α)) : (ofList pairs).keys = (keys pairs).eraseDups := by
  rw [ofList, keys_foldl_insert]
  simp [keys]

theorem get?_ofList (pairs : List (String × α)) (name : String) :
    (ofList pairs).get? name = get? pairs.reverse name := by
  induction pairs using List.reverseRecOn with
  | nil => rfl
  | append_singleton rest pair ih =>
      rw [ofList, List.foldl_append, List.foldl_cons, List.foldl_nil, get?_insert, List.reverse_append]
      rw [List.reverse_singleton, List.singleton_append, get?_cons]
      exact congrArg _ ih

theorem get?_eq_lookup (fields : Fields α) (name : String) : fields.get? name = List.lookup name fields := by
  induction fields with
  | nil => rfl
  | cons field rest ih =>
      obtain ⟨key, value⟩ := field
      rw [get?_cons, List.lookup_cons, ih]
      by_cases same : key = name
      · simp [same]
      · rw [if_neg same, beq_false_of_ne (Ne.symm same)]

theorem get?_map (f : α → β) (fields : Fields α) (name : String) :
    get? (fields.map fun field => (field.1, f field.2)) name = (fields.get? name).map f := by
  induction fields with
  | nil => rfl
  | cons field rest ih =>
      obtain ⟨key, value⟩ := field
      rw [List.map_cons, get?_cons, ih, get?_cons]
      by_cases same : key = name
      · rw [if_pos same, if_pos same, Option.map_some]
      · rw [if_neg same, if_neg same]

theorem insert_map (f : α → β) (fields : Fields α) (name : String) (value : α) :
    insert (fields.map fun field => (field.1, f field.2)) name (f value) =
      (fields.insert name value).map fun field => (field.1, f field.2) := by
  induction fields with
  | nil => rfl
  | cons field rest ih =>
      obtain ⟨key, old⟩ := field
      rw [List.map_cons, insert, insert, ih]
      split <;> rfl

theorem ofList_map (f : α → β) (pairs : List (String × α)) :
    ofList (pairs.map fun pair => (pair.1, f pair.2)) = (ofList pairs).map fun field => (field.1, f field.2) := by
  induction pairs using List.reverseRecOn with
  | nil => rfl
  | append_singleton rest pair ih =>
      rw [List.map_append, ofList, List.foldl_append, ← ofList, ih, ofList, ofList, List.foldl_append]
      exact insert_map f _ pair.1 pair.2

theorem filter_insert (keep : String → Bool) (fields : Fields α) (name : String) (value : α) :
    (fields.insert name value).filter (fun field => keep field.1) =
      if keep name then insert (fields.filter fun field => keep field.1) name value
      else fields.filter fun field => keep field.1 := by
  induction fields with
  | nil => by_cases kept : keep name <;> simp [insert, kept]
  | cons field rest ih =>
      obtain ⟨key, old⟩ := field
      rw [insert]
      by_cases same : key = name
      · subst same
        by_cases kept : keep key <;> simp [kept, insert]
      · rw [if_neg same, List.filter_cons, ih, List.filter_cons]
        by_cases kept : keep name <;> by_cases keptKey : keep key <;> simp [kept, keptKey, insert, same]

theorem filter_ofList (keep : String → Bool) (pairs : List (String × α)) :
    (ofList pairs).filter (fun field => keep field.1) = ofList (pairs.filter fun pair => keep pair.1) := by
  induction pairs using List.reverseRecOn with
  | nil => rfl
  | append_singleton rest pair ih =>
      rw [List.filter_append, List.filter_singleton]
      rw [ofList, List.foldl_append, List.foldl_cons, List.foldl_nil, filter_insert, ← ofList, ih]
      by_cases kept : keep pair.1 <;> simp [kept, ofList]

/-- Fields of the same names in the same order, with related values. -/
def Matched (related : α → β → Prop) (fields : Fields α) (others : Fields β) : Prop :=
  List.Forall₂ (fun field other => field.1 = other.1 ∧ related field.2 other.2) fields others

section

variable {related : α → β → Prop} {fields : Fields α} {others : Fields β}

theorem exists_matched_iff :
    (∃ others, Matched related fields others) ↔ ∀ field ∈ fields, ∃ value, related field.2 value := by
  induction fields with
  | nil => simp [Matched]
  | cons field rest ih =>
      simp only [List.forall_mem_cons, ← ih, Matched, List.forall₂_cons_left_iff]
      constructor
      · rintro ⟨_, other, others, ⟨_, first⟩, matched, rfl⟩
        exact ⟨⟨other.2, first⟩, others, matched⟩
      · rintro ⟨⟨value, first⟩, others, matched⟩
        exact ⟨_, (field.1, value), others, ⟨rfl, first⟩, matched, rfl⟩

namespace Matched

theorem keys_eq (matched : Matched related fields others) : fields.keys = others.keys := by
  induction matched with
  | nil => rfl
  | cons first _ ih => exact congrArg₂ List.cons first.1 ih

theorem filter (matched : Matched related fields others) (keep : String → Bool) :
    Matched related (fields.filter fun field => keep field.1) (others.filter fun other => keep other.1) := by
  refine List.rel_filter ?_ matched
  rintro field other ⟨same, _⟩
  exact Iff.of_eq (congrArg (keep · = true) same)

theorem reverse (matched : Matched related fields others) : Matched related fields.reverse others.reverse :=
  List.forall₂_reverse_iff.mpr matched

theorem rel_get? (matched : Matched related fields others) (name : String) :
    Option.Rel related (fields.get? name) (others.get? name) := by
  induction matched with
  | nil => exact .none
  | @cons field other _ _ first _ ih =>
      rw [get?_cons, get?_cons, ← first.1]
      by_cases same : field.1 = name
      · rw [if_pos same, if_pos same]
        exact .some first.2
      · rw [if_neg same, if_neg same]
        exact ih

theorem get?_ofList_eq_some_iff (matched : Matched related fields others) (unique : Relator.RightUnique related)
    {name : String} {value : β} :
    get? (ofList others) name = some value ↔ ∃ read, get? fields.reverse name = some read ∧
      related read value := by
  rw [get?_ofList]
  have looked := matched.reverse.rel_get? name
  generalize get? fields.reverse name = first, get? others.reverse name = second at looked ⊢
  cases looked with
  | none => simp
  | some read =>
      rw [Option.some.injEq]
      constructor
      · rintro rfl
        exact ⟨_, rfl, read⟩
      · rintro ⟨_, ⟨⟩, readToo⟩
        exact unique read readToo

end Matched

theorem exists_ordered
    (found : ∀ field ∈ fields, ∃ value, others.get? field.1 = some value ∧ related field.2 value) :
    ∃ ordered : Fields β, ordered ⊆ others ∧ fields.keys = ordered.keys ∧
      List.Forall₂ related (fields.map Prod.snd) (ordered.map Prod.snd) := by
  induction fields with
  | nil => exact ⟨[], by simp, rfl, .nil⟩
  | cons field rest ih =>
      obtain ⟨ordered, inside, names, values⟩ := ih fun other member => found other (by simp [member])
      obtain ⟨value, held, matched⟩ := found field (by simp)
      refine ⟨(field.1, value) :: ordered, ?_, ?_, .cons matched values⟩
      · exact List.cons_subset.mpr ⟨mem_keys_of_get? held, inside⟩
      · rw [keys, keys, List.map_cons, List.map_cons]
        exact congrArg _ names

theorem exists_mem_of_forall₂ {ordered : Fields β} (names : fields.keys = ordered.keys)
    (values : List.Forall₂ related (fields.map Prod.snd) (ordered.map Prod.snd)) {field : String × α}
    (member : field ∈ fields) : ∃ value, (field.1, value) ∈ ordered ∧ related field.2 value := by
  induction fields generalizing ordered with
  | nil => simp at member
  | cons first rest ih =>
      cases ordered with
      | nil => simp [keys] at names
      | cons other others =>
          simp only [keys, List.map_cons, List.cons.injEq, List.forall₂_cons] at names values
          rcases List.mem_cons.mp member with rfl | later
          · exact ⟨other.2, by simp [names.1], values.1⟩
          · obtain ⟨value, present, matched⟩ := ih names.2 values.2 later
            exact ⟨value, by simp [present], matched⟩

/-- Two lists of as many fields are related name by name when one of them can be put in an order in which they
are related place by place. -/
theorem related_iff_exists_perm (distinct : fields.Distinct) (distinctToo : others.Distinct) :
    (fields.length = others.length ∧
        ∀ field ∈ fields, ∃ value, others.get? field.1 = some value ∧ related field.2 value) ↔
      ∃ ordered : Fields β, ordered.Perm others ∧ fields.keys = ordered.keys ∧
        List.Forall₂ related (fields.map Prod.snd) (ordered.map Prod.snd) := by
  constructor
  · rintro ⟨size, found⟩
    obtain ⟨ordered, inside, names, values⟩ := exists_ordered found
    have distinctOrdered : ordered.Nodup := .of_map Prod.fst (show ordered.keys.Nodup from names ▸ distinct)
    have sizes : fields.length = ordered.length := by simpa [keys] using congrArg List.length names
    exact ⟨ordered, (distinctOrdered.subperm inside).perm_of_length_le (by omega), names, values⟩
  · rintro ⟨ordered, perm, names, values⟩
    have sizes : fields.length = ordered.length := by simpa [keys] using congrArg List.length names
    refine ⟨sizes.trans perm.length_eq, ?_⟩
    intro field member
    obtain ⟨value, present, matched⟩ := exists_mem_of_forall₂ names values member
    exact ⟨value, (get?_eq_some_iff distinctToo).mpr (perm.mem_iff.mp present), matched⟩

end

end FormatAudit.Fields
