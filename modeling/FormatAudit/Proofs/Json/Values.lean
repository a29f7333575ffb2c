import FormatAudit.Fields
import FormatAudit.Json.Document
import Mathlib

/-! Values of JSON texts seen by what they say: how deep lists and objects lie in them, the text of a string, the
items of a list, and the members of an object under their names. -/

namespace FormatAudit.Json

/-- The number of lists and objects that lie inside each other in a value. -/
def depth : Json → Nat
  | .array items _ => itemsDepth items + 1
  | .object members _ => membersDepth members + 1
  | _ => 0
where
  itemsDepth : List Json → Nat
    | [] => 0
    | item :: rest => max item.depth (itemsDepth rest)
  membersDepth : List (StringToken × Json) → Nat
    | [] => 0
    | (_, value) :: rest => max value.depth (membersDepth rest)

def IsWhole : Json → Prop
  | .text token => ∃ s, token.value = .ok s
  | .array items stop => stop = none ∧ wholeItems items
  | .object members stop => stop = none ∧ wholeMembers members
  | .broken _ => False
  | _ => True
where
  wholeItems : List Json → Prop
    | [] => True
    | item :: rest => item.IsWhole ∧ wholeItems rest
  wholeMembers : List (StringToken × Json) → Prop
    | [] => True
    | (key, value) :: rest => (∃ name, key.value = .ok name) ∧ value.IsWhole ∧ wholeMembers rest

/-- No null lies in the value, not even under a name that comes again. -/
def HasNoNull : Json → Prop
  | .null => False
  | .array items _ => noNullItems items
  | .object members _ => noNullMembers members
  | _ => True
where
  noNullItems : List Json → Prop
    | [] => True
    | item :: rest => item.HasNoNull ∧ noNullItems rest
  noNullMembers : List (StringToken × Json) → Prop
    | [] => True
    | (_, value) :: rest => value.HasNoNull ∧ noNullMembers rest

def numerals : Json → List Numeral
  | .number numeral => [numeral]
  | .array items _ => itemNumerals items
  | .object members _ => memberNumerals members
  | _ => []
where
  itemNumerals : List Json → List Numeral
    | [] => []
    | item :: rest => item.numerals ++ itemNumerals rest
  memberNumerals : List (StringToken × Json) → List Numeral
    | [] => []
    | (_, value) :: rest => value.numerals ++ memberNumerals rest

theorem depth_le_membersDepth {field : StringToken × Json} {members : List (StringToken × Json)}
    (member : field ∈ members) : field.2.depth ≤ depth.membersDepth members := by
  induction members with
  | nil => simp at member
  | cons first rest ih =>
      rw [depth.membersDepth]
      rcases List.mem_cons.mp member with rfl | later
      · exact Nat.le_max_left _ _
      · exact Nat.le_trans (ih later) (Nat.le_max_right _ _)

theorem membersDepth_perm {members others : List (StringToken × Json)} (perm : members.Perm others) :
    depth.membersDepth members = depth.membersDepth others := by
  induction perm with
  | nil => rfl
  | cons _ _ ih => rw [depth.membersDepth, depth.membersDepth, ih]
  | swap => exact max_left_comm _ _ _
  | trans _ _ first second => exact first.trans second

def IsText (value : Json) (s : String) : Prop := ∃ token, value = .text token ∧ token.value = .ok s

/-- The value is a list, and its items read one after the other as what is listed. -/
def IsList {α : Type} (reads : Json → α → Prop) (value : Json) (listed : List α) : Prop :=
  ∃ items, value = .array items none ∧ List.Forall₂ reads items listed

def Named (members : List (StringToken × Json)) (named : Fields Json) : Prop :=
  List.Forall₂ (fun member field => member.1.value = .ok field.1 ∧ member.2 = field.2) members named

def namedMembers (members : List (StringToken × Json)) : Fields Json :=
  members.filterMap fun member => member.1.value.toOption.map (·, member.2)

theorem isText_unique : Relator.RightUnique IsText := by
  rintro value s t ⟨token, rfl, stands⟩ ⟨other, same, standsToo⟩
  cases same
  exact Except.ok.inj (stands.symm.trans standsToo)

theorem IsList.unique {α : Type} {reads : Json → α → Prop} (unique : Relator.RightUnique reads) {value : Json}
    {listed others : List α} (first : value.IsList reads listed) (second : value.IsList reads others) :
    listed = others := by
  obtain ⟨items, rfl, matched⟩ := first
  obtain ⟨_, same, matchedToo⟩ := second
  cases same
  exact unique.forall₂ matched matchedToo

section

variable {members : List (StringToken × Json)} {named others : Fields Json}

theorem named_nil_iff : Named [] named ↔ named = [] := List.forall₂_nil_left_iff

theorem named_cons_iff {key : StringToken} {value : Json} : Named ((key, value) :: members) named ↔
    ∃ name rest, key.value = .ok name ∧ Named members rest ∧ named = (name, value) :: rest := by
  rw [Named, List.forall₂_cons_left_iff]
  constructor
  · rintro ⟨⟨name, found⟩, rest, ⟨stands, same⟩, matched, rfl⟩
    cases same
    exact ⟨name, rest, stands, matched, rfl⟩
  · rintro ⟨name, rest, stands, matched, rfl⟩
    exact ⟨(name, value), rest, ⟨stands, rfl⟩, matched, rfl⟩

theorem exists_named_cons_iff {key : StringToken} {value : Json} {holds : Fields Json → Prop} :
    (∃ named, Named ((key, value) :: members) named ∧ holds named) ↔
      ∃ name, key.value = .ok name ∧ ∃ named, Named members named ∧ holds ((name, value) :: named) := by
  simp only [named_cons_iff]
  constructor
  · rintro ⟨_, ⟨name, named, stands, matched, rfl⟩, held⟩
    exact ⟨name, stands, named, matched, held⟩
  · rintro ⟨name, stands, named, matched, held⟩
    exact ⟨_, ⟨name, named, stands, matched, rfl⟩, held⟩

theorem Named.unique (first : Named members named) (second : Named members others) : named = others := by
  refine List.right_unique_forall₂' ?_ first second
  rintro member ⟨name, value⟩ ⟨other, _⟩ ⟨stands, rfl⟩ ⟨standsToo, rfl⟩
  cases stands.symm.trans standsToo
  rfl

theorem Named.namedMembers_eq (matched : Named members named) : namedMembers members = named := by
  induction members generalizing named with
  | nil => exact (named_nil_iff.mp matched).symm
  | cons member rest ih =>
      obtain ⟨key, value⟩ := member
      obtain ⟨name, fields, stands, others, rfl⟩ := named_cons_iff.mp matched
      rw [namedMembers, List.filterMap_cons, stands, ← namedMembers, ih others]
      rfl

theorem Named.exists_key (matched : Named members named) {field : String × Json} (member : field ∈ named) :
    ∃ key, key.value = .ok field.1 ∧ (key, field.2) ∈ members := by
  induction members generalizing named with
  | nil => simp [named_nil_iff.mp matched] at member
  | cons first rest ih =>
      obtain ⟨name, fields, stands, others, rfl⟩ := named_cons_iff.mp matched
      rcases List.mem_cons.mp member with rfl | later
      · exact ⟨first.1, stands, by simp⟩
      · obtain ⟨key, standsToo, present⟩ := ih others later
        exact ⟨key, standsToo, by simp [present]⟩

theorem Named.depth_le (matched : Named members named) {field : String × Json} (member : field ∈ named) :
    field.2.depth ≤ depth.membersDepth members := by
  obtain ⟨key, _, present⟩ := matched.exists_key member
  exact depth_le_membersDepth present

theorem Named.perm {reordered : List (StringToken × Json)} (matched : Named members named)
    (perm : reordered.Perm members) : ∃ renamed, Named reordered renamed ∧ renamed.Perm named :=
  List.perm_comp_forall₂ perm matched

end

end FormatAudit.Json
