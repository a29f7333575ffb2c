/-!
Ordered fields: names with values in the order in which the names first came. A list of pairs holds
them; `Distinct` says that no name comes twice, which every operation here keeps.
-/

namespace FormatAudit

abbrev Fields (α : Type u) := List (String × α)

namespace Fields

variable {α : Type u}

def keys (fields : Fields α) : List String := fields.map Prod.fst

def Distinct (fields : Fields α) : Prop := fields.keys.Nodup

def get? : Fields α → String → Option α
  | [], _ => none
  | (key, value) :: rest, name => if key = name then some value else get? rest name

def contains (fields : Fields α) (name : String) : Bool := (fields.get? name).isSome

/-- Puts a value under a name: a name that is there keeps its place, a new one goes last. -/
def insert : Fields α → String → α → Fields α
  | [], name, value => [(name, value)]
  | (key, old) :: rest, name, value =>
    if key = name then (key, value) :: rest else (key, old) :: insert rest name value

def erase (fields : Fields α) (name : String) : Fields α := fields.filter (fun field => field.1 ≠ name)

/-- The fields that a list of pairs gives when its pairs are put in one after the other. -/
def ofList (pairs : List (String × α)) : Fields α :=
  pairs.foldl (fun fields pair => fields.insert pair.1 pair.2) []

@[simp] theorem get?_nil (name : String) : get? ([] : Fields α) name = none := rfl

theorem get?_cons (key name : String) (value : α) (rest : Fields α) :
    get? ((key, value) :: rest) name = if key = name then some value else get? rest name := rfl

theorem mem_keys_of_get? {fields : Fields α} {name : String} {value : α}
    (found : fields.get? name = some value) : (name, value) ∈ fields := by
  induction fields with
  | nil => simp at found
  | cons field rest ih =>
    obtain ⟨key, old⟩ := field
    rw [get?_cons] at found
    split at found
    · simp_all
    · exact List.mem_cons_of_mem _ (ih found)

theorem get?_eq_none_iff {fields : Fields α} {name : String} :
    fields.get? name = none ↔ name ∉ fields.keys := by
  induction fields with
  | nil => simp [keys]
  | cons field rest ih =>
    obtain ⟨key, old⟩ := field
    rw [get?_cons]
    split
    · simp_all [keys]
    · simp_all [keys, eq_comm]

theorem get?_insert (fields : Fields α) (name other : String) (value : α) :
    (fields.insert name value).get? other = if name = other then some value else fields.get? other := by
  induction fields with
  | nil => simp [insert, get?_cons]
  | cons field rest ih =>
    obtain ⟨key, old⟩ := field
    rw [insert]
    split <;> simp_all [get?_cons]
    grind

theorem keys_insert (fields : Fields α) (name : String) (value : α) :
    (fields.insert name value).keys = if name ∈ fields.keys then fields.keys else fields.keys ++ [name] := by
  induction fields with
  | nil => simp [insert, keys]
  | cons field rest ih =>
    obtain ⟨key, old⟩ := field
    rw [insert]
    split
    · simp_all [keys]
    · simp only [keys, List.map_cons, List.mem_cons] at ih ⊢
      grind

theorem Distinct.insert {fields : Fields α} (distinct : fields.Distinct) (name : String) (value : α) :
    (fields.insert name value).Distinct := by
  unfold Distinct at *
  rw [keys_insert]
  split
  · exact distinct
  · rename_i absent
    refine List.nodup_append.2 ⟨distinct, by simp, ?_⟩
    rintro key present other same rfl
    exact absent (by simpa using List.mem_singleton.1 same ▸ present)

theorem Distinct.ofList (pairs : List (String × α)) : (ofList pairs).Distinct := by
  suffices ∀ fields : Fields α, fields.Distinct →
      (pairs.foldl (fun fields pair => fields.insert pair.1 pair.2) fields).Distinct from
    this [] List.nodup_nil
  induction pairs with
  | nil => exact fun _ distinct => distinct
  | cons pair rest ih => exact fun fields distinct => ih _ (distinct.insert _ _)

end Fields

end FormatAudit
