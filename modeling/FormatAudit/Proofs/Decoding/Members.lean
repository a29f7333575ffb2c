import FormatAudit.Proofs.Fields
import FormatAudit.Proofs.Json.Values
import FormatAudit.Proofs.Results

/-! Members of an object that may come once. A reader goes through the members with what it has found so far and
refuses a second one; what it ends with is told from all members at once. -/

namespace FormatAudit.Decoder

/-- What reading the members of a kind ends with: the value of the only one, or what was found before them if there
is none. There may be no further one. -/
def ReadOnce {α : Type} (isKey : String → Bool) (reads : Json → α → Prop) (found : Option α)
    (named : Fields Json)
    (result : Option α) : Prop :=
  match found, named.filter fun member => isKey member.1 with
  | _, [] => result = found
  | none, [member] => ∃ value, reads member.2 value ∧ result = some value
  | _, _ => False

variable {α : Type} {isKey : String → Bool} {reads : Json → α → Prop} {found result : Option α}
    {named : Fields Json}
  {name : String} {member : Json}

theorem readOnce_nil : ReadOnce isKey reads found [] result ↔ result = found := by
  cases found <;> rfl

theorem readOnce_cons_of_other (other : isKey name = false) :
    ReadOnce isKey reads found ((name, member) :: named) result ↔ ReadOnce isKey reads found named result := by
  simp only [ReadOnce, List.filter_cons, other, Bool.false_eq_true, ↓reduceIte]

theorem readOnce_cons_of_key (key : isKey name = true) :
    ReadOnce isKey reads found ((name, member) :: named) result ↔
      found = none ∧ ∃ value, reads member value ∧ ReadOnce isKey reads (some value) named result := by
  simp only [ReadOnce, List.filter_cons, key, ↓reduceIte]
  cases found with
  | some value => simp
  | none =>
      cases named.filter fun member => isKey member.1 with
      | nil => simp
      | cons second rest => simp

theorem once_eq_ok_iff {ε β : Type} {twice : ε} {read : Except ε α} {next : α → Except ε β} {b : β} :
    (if found.isSome = true then .error twice else read >>= next) = .ok b ↔
      found = none ∧ ∃ value, read = .ok value ∧ next value = .ok b := by
  cases found <;> simp [bind_eq_ok_iff]

theorem readOnce_congr {others : Json → α → Prop}
    (same : ∀ member ∈ named, isKey member.1 = true → ∀ value, reads member.2 value ↔ others member.2 value) :
    ReadOnce isKey reads found named result ↔ ReadOnce isKey others found named result := by
  induction named generalizing found with
  | nil => rw [readOnce_nil, readOnce_nil]
  | cons first rest ih =>
      have later {found : Option α} :
          ReadOnce isKey reads found rest result ↔ ReadOnce isKey others found rest result :=
        ih fun member inside => same member (by simp [inside])
      by_cases key : isKey first.1 = true
      · simp only [readOnce_cons_of_key key, later, same first (by simp) key]
      · rw [Bool.not_eq_true] at key
        rw [readOnce_cons_of_other key, readOnce_cons_of_other key, later]

theorem ReadOnce.eq_of_some {value : α} (once : ReadOnce isKey reads (some value) named result) :
    result = some value ∧ ∀ member ∈ named, isKey member.1 = false := by
  induction named with
  | nil => exact ⟨readOnce_nil.mp once, by simp⟩
  | cons first rest ih =>
      by_cases key : isKey first.1 = true
      · exact absurd ((readOnce_cons_of_key key).mp once).1 (by simp)
      · rw [Bool.not_eq_true] at key
        obtain ⟨same, others⟩ := ih ((readOnce_cons_of_other key).mp once)
        exact ⟨same, List.forall_mem_cons.mpr ⟨key, others⟩⟩

theorem ReadOnce.of_mem (once : ReadOnce isKey reads none named result) (inside : (name, member) ∈ named)
    (key : isKey name = true) : ∃ value, reads member value ∧ result = some value := by
  induction named with
  | nil => simp at inside
  | cons first rest ih =>
      by_cases keyFirst : isKey first.1 = true
      · obtain ⟨_, value, read, once⟩ := (readOnce_cons_of_key keyFirst).mp once
        obtain ⟨same, others⟩ := once.eq_of_some
        rcases List.mem_cons.mp inside with rfl | later
        · exact ⟨value, read, same⟩
        · exact absurd key (by simp [others _ later])
      · rw [Bool.not_eq_true] at keyFirst
        rcases List.mem_cons.mp inside with rfl | later
        · simp [keyFirst] at key
        · exact ih ((readOnce_cons_of_other keyFirst).mp once) later

theorem ReadOnce.exists_mem {value : α} (once : ReadOnce isKey reads none named (some value)) :
    ∃ member ∈ named, isKey member.1 = true ∧ reads member.2 value := by
  induction named with
  | nil => simp [readOnce_nil] at once
  | cons first rest ih =>
      by_cases key : isKey first.1 = true
      · obtain ⟨_, other, read, once⟩ := (readOnce_cons_of_key key).mp once
        obtain rfl := Option.some.inj once.eq_of_some.1
        exact ⟨first, by simp, key, read⟩
      · rw [Bool.not_eq_true] at key
        obtain ⟨member, inside, keyToo, read⟩ := ih ((readOnce_cons_of_other key).mp once)
        exact ⟨member, by simp [inside], keyToo, read⟩

theorem exists_readOnce_iff : (∃ result, ReadOnce isKey reads none named result) ↔
    (named.filter fun member => isKey member.1).length ≤ 1 ∧
      ∀ member ∈ named, isKey member.1 = true → ∃ value, reads member.2 value := by
  constructor
  · rintro ⟨result, once⟩
    refine ⟨?_, ?_⟩
    · unfold ReadOnce at once
      split at once
      · rename_i none
        simp [none]
      · rename_i one
        simp [one]
      · exact once.elim
    · intro member inside key
      obtain ⟨value, read, _⟩ := once.of_mem inside key
      exact ⟨value, read⟩
  · rintro ⟨few, readable⟩
    unfold ReadOnce
    cases kept : named.filter fun member => isKey member.1 with
    | nil => exact ⟨none, rfl⟩
    | cons member rest =>
        obtain rfl : rest = [] := by simpa [kept] using few
        obtain ⟨inside, key⟩ := List.mem_filter.mp (kept ▸ List.mem_singleton_self member)
        obtain ⟨value, read⟩ := readable member inside key
        exact ⟨some value, value, read, rfl⟩

/-- What a member that may be left out gives. -/
def OrDefault (reads : Json → α → Prop) (default : α) : Option Json → α → Prop
  | none, a => a = default
  | some member, a => reads member a

theorem readOnce_name_iff (distinct : named.Distinct) :
    ReadOnce (· = name) reads none named result ↔
      OrDefault (fun member a => ∃ value, reads member value ∧ a = some value)
      none (named.get? name) result := by
  induction named with
  | nil => exact readOnce_nil
  | cons first rest ih =>
      obtain ⟨key, value⟩ := first
      obtain ⟨fresh, distinctRest⟩ := List.nodup_cons.mp distinct
      rw [Fields.get?_cons]
      by_cases same : key = name
      · have others : ∀ found, ReadOnce (· = name) reads found rest result ↔ result = found := by
          intro found
          have none : rest.filter (fun member => decide (member.1 = name)) = [] := by
            rw [List.filter_eq_nil_iff]
            intro member inside
            have different : member.1 ≠ name := fun sameToo =>
              fresh (List.mem_map.mpr ⟨member, inside, sameToo.trans same.symm⟩)
            simpa using different
          unfold ReadOnce
          rw [none]
        rw [readOnce_cons_of_key (by simpa using same), if_pos same]
        simp [others, OrDefault]
      · rw [readOnce_cons_of_other (by simpa using same), if_neg same, ih distinctRest]

theorem readOnce_some_iff (distinct : named.Distinct) {a : α} : ReadOnce (· = name) reads none named (some a) ↔
    ∃ member, named.get? name = some member ∧ reads member a := by
  rw [readOnce_name_iff distinct]
  cases named.get? name <;> simp [OrDefault]

theorem exists_readOnce_getD_iff (distinct : named.Distinct) {default a : α} :
    (∃ result, ReadOnce (· = name) reads none named result ∧ a = result.getD default) ↔
      OrDefault reads default (named.get? name) a := by
  simp only [readOnce_name_iff distinct]
  cases named.get? name with
  | none => simp [OrDefault]
  | some member =>
      constructor
      · rintro ⟨_, ⟨value, read, rfl⟩, rfl⟩
        exact read
      · intro read
        exact ⟨some a, ⟨a, read, rfl⟩, rfl⟩

theorem distinct_of_readOnce {names : List String} (known : ∀ member ∈ named, member.1 ∈ names)
    (once : ∀ name ∈ names, ∃ (α : Type) (reads : Json → α → Prop) (result : Option α),
      ReadOnce (· = name) reads none named result) : named.Distinct := by
  refine List.nodup_iff_count_le_one.mpr fun name => ?_
  by_cases present : name ∈ named.keys
  · obtain ⟨member, inside, rfl⟩ := List.mem_map.mp present
    obtain ⟨_, _, result, once⟩ := once _ (known member inside)
    have few := (exists_readOnce_iff.mp ⟨result, once⟩).1
    rw [Fields.keys, List.count, List.countP_map, List.countP_eq_length_filter]
    exact few
  · rw [List.count_eq_zero_of_not_mem present]
    exact Nat.zero_le 1

end FormatAudit.Decoder
