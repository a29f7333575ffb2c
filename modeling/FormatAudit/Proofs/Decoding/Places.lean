import FormatAudit.Proofs.Decoding.Trees

/-! Places in JSON values and in trees. A tree has at a place what was read from the value there, and trees that are
the same have the same at every place. -/

namespace FormatAudit

/-- A way into a list or into an object. -/
inductive Selector
  | index (i : Nat)
  | name (key : String)
  deriving DecidableEq, Repr

namespace Json

/-- The value at a place; of several members of a name it is the last one that counts. -/
def at? : List Selector → Json → Option Json
  | [], value => some value
  | .index i :: path, .array items _ => items[i]?.bind (at? path)
  | .name key :: path, .object members _ => (Fields.get? (namedMembers members).reverse key).bind (at? path)
  | _, _ => none

theorem eq_of_at?_number {path : List Selector} {numeral : Numeral} {value : Json}
    (held : (Json.number numeral).at? path = some value) : value = .number numeral := by
  cases path with
  | nil => exact (Option.some.inj held).symm
  | cons selector path => cases selector <;> cases held

end Json

namespace Tree

def at? : List Selector → Tree → Option Tree
  | [], t => some t
  | .index i :: path, .sequence items => items[i]?.bind (at? path)
  | .name key :: path, .mapping fields => (Fields.get? fields key).bind (at? path)
  | _, _ => none

theorem getElem?_of_sameItems {items others : List Tree} (alike : same.sameItems items others = true) {i : Nat}
    {a : Tree} (held : items[i]? = some a) : ∃ b, others[i]? = some b ∧ a.same b = true := by
  induction items generalizing others i with
  | nil => simp at held
  | cons first rest ih =>
      cases others with
      | nil => simp [same.sameItems] at alike
      | cons other others =>
          rw [same.sameItems, Bool.and_eq_true] at alike
          cases i with
          | zero => exact ⟨other, rfl, Option.some.inj held ▸ alike.1⟩
          | succ i => exact ih alike.2 held

theorem get?_of_sameFields {fields others : Fields Tree} (alike : same.sameFields fields others = true) {name : String}
    {a : Tree} (held : fields.get? name = some a) : ∃ b, others.get? name = some b ∧ a.same b = true := by
  induction fields with
  | nil => simp at held
  | cons field rest ih =>
      obtain ⟨key, value⟩ := field
      rw [same.sameFields, Bool.and_eq_true] at alike
      rw [Fields.get?_cons] at held
      split at held
      · rename_i found
        cases found
        cases held
        cases other : others.get? name with
        | none => simp [other] at alike
        | some b =>
            rw [other] at alike
            exact ⟨b, rfl, alike.1⟩
      · exact ih alike.2 held

theorem at?_of_same (path : List Selector) {t u a : Tree} (alike : t.same u = true) (held : t.at? path = some a) :
    ∃ b, u.at? path = some b ∧ a.same b = true := by
  induction path generalizing t u with
  | nil => exact ⟨u, rfl, Option.some.inj held ▸ alike⟩
  | cons selector path ih =>
      cases selector with
      | index i =>
          cases t with
          | sequence items =>
              obtain ⟨inner, inside, held⟩ := Option.bind_eq_some_iff.mp held
              cases u with
              | sequence others =>
                  obtain ⟨other, insideToo, alike⟩ := getElem?_of_sameItems alike inside
                  obtain ⟨b, heldToo, alike⟩ := ih alike held
                  exact ⟨b, Option.bind_eq_some_iff.mpr ⟨other, insideToo, heldToo⟩, alike⟩
              | _ => simp [same] at alike
          | _ => simp [at?] at held
      | name key =>
          cases t with
          | mapping fields =>
              obtain ⟨inner, inside, held⟩ := Option.bind_eq_some_iff.mp held
              cases u with
              | mapping others =>
                  obtain ⟨other, insideToo, alike⟩ := get?_of_sameFields (Bool.and_eq_true_iff.mp alike).2 inside
                  obtain ⟨b, heldToo, alike⟩ := ih alike held
                  exact ⟨b, Option.bind_eq_some_iff.mpr ⟨other, insideToo, heldToo⟩, alike⟩
              | _ => simp [same] at alike
          | _ => simp [at?] at held

end Tree

section

variable {α β γ δ : Type} {r : α → β → Prop} {q : γ → δ → Prop}

theorem rel_some_left_iff {a : α} {b : Option β} : Option.Rel r (some a) b ↔ ∃ y, b = some y ∧ r a y := by
  cases b <;> simp

theorem rel_some_right_iff {a : Option α} {b : β} : Option.Rel r a (some b) ↔ ∃ x, a = some x ∧ r x b := by
  cases a <;> simp

theorem rel_getElem? {xs : List α} {ys : List β} (matched : List.Forall₂ r xs ys) (i : Nat) :
    Option.Rel r xs[i]? ys[i]? := by
  induction matched generalizing i with
  | nil => exact .none
  | cons first _ ih =>
      cases i with
      | zero => exact .some first
      | succ i => exact ih i

theorem rel_bind {a : Option α} {b : Option β} {f : α → Option γ} {g : β → Option δ}
    (values : Option.Rel r a b)
    (next : ∀ x y, r x y → Option.Rel q (f x) (g y)) : Option.Rel q (a.bind f) (b.bind g) := by
  cases values with
  | none => exact .none
  | some related => exact next _ _ related

end

namespace Decoder

theorem at?_of_scalar {value : Json} (scalar : value.depth = 0) {room : Nat} {t : Tree} (read : tree room value = .ok t)
    (selector : Selector) (path : List Selector) :
    value.at? (selector :: path) = none ∧ t.at? (selector :: path) = none := by
  cases value with
  | array items stop => simp [Json.depth] at scalar
  | object members stop => simp [Json.depth] at scalar
  | null | boolean _ | broken _ =>
      simp only [tree] at read
      cases read <;> cases selector <;> exact ⟨rfl, rfl⟩
  | text token =>
      simp only [tree] at read
      obtain ⟨s, _, rfl⟩ := map_eq_ok_iff.mp read
      cases selector <;> exact ⟨rfl, rfl⟩
  | number numeral =>
      simp only [tree] at read
      obtain ⟨n, _, _, rfl⟩ | ⟨x, _, rfl⟩ :=
        number_eq_ok_iff.mp read <;> cases selector <;> exact ⟨rfl, rfl⟩

theorem rel_at?_of_tree (path : List Selector) {room : Nat} {value : Json} {t : Tree} (read : tree room value = .ok t) :
    Option.Rel (fun inner u => tree (room - path.length) inner = .ok u) (value.at? path) (t.at? path) := by
  induction path generalizing room value t with
  | nil => exact .some read
  | cons selector path ih =>
      cases value with
      | array items stop =>
          obtain ⟨inside, found, rfl, rfl, matched⟩ := exists_of_tree_array read
          rw [List.length_cons, Nat.add_sub_add_right]
          cases selector with
          | index i => exact rel_bind (rel_getElem? matched i) fun _ _ => ih
          | name key => exact .none
      | object members stop =>
          obtain ⟨inside, named, found, rfl, rfl, matched, values⟩ := exists_of_tree_object read
          rw [List.length_cons, Nat.add_sub_add_right]
          cases selector with
          | index i => exact .none
          | name key =>
              refine rel_bind ?_ fun _ _ => ih
              rw [matched.namedMembers_eq, Fields.get?_ofList]
              exact values.reverse.rel_get? key
      | _ =>
          obtain ⟨nothing, nothingToo⟩ := at?_of_scalar rfl read selector path
          rw [nothing, nothingToo]
          exact .none

end Decoder

end FormatAudit
