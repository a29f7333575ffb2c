import FormatAudit.Proofs.Tree.Order
import FormatAudit.Proofs.Tree.Pruning

/-! Trees that differ in the order of fields, and in floats as far as a relation on these allows. What a walk leaves of
two such trees differs in no more than that. -/

namespace FormatAudit

section

variable {α β γ : Type} {r s : α → β → Prop} {q : β → γ → Prop} {xs : List α} {ys : List β}
    {zs : List γ}

theorem forall₂_of_mem (related : List.Forall₂ r xs ys) (more : ∀ x ∈ xs, ∀ y, r x y → s x y) :
    List.Forall₂ s xs ys := by
  induction related with
  | nil => exact .nil
  | cons first _ ih =>
      obtain ⟨here, later⟩ := List.forall_mem_cons.mp more
      exact .cons (here _ first) (ih later)

theorem forall₂_comp (first : List.Forall₂ r xs ys) (second : List.Forall₂ q ys zs) :
    List.Forall₂ (Relation.Comp r q) xs zs := by
  induction first generalizing zs with
  | nil =>
      cases second
      exact .nil
  | cons related _ ih =>
      cases second with
      | cons relatedToo others => exact .cons ⟨_, related, relatedToo⟩ (ih others)

theorem exists_related_of_mem (related : List.Forall₂ r xs ys) {y : β} (member : y ∈ ys) :
    ∃ x ∈ xs, r x y := by
  induction related with
  | nil => simp at member
  | @cons x _ _ _ first _ ih =>
      rcases List.mem_cons.mp member with rfl | later
      · exact ⟨x, by simp, first⟩
      · obtain ⟨found, present, same⟩ := ih later
        exact ⟨found, by simp [present], same⟩

end

theorem Fields.matched_iff {α β : Type} {related : α → β → Prop} {fields : Fields α} {others : Fields β} :
    Matched related fields others ↔
      fields.keys = others.keys ∧ List.Forall₂ related (fields.map Prod.snd) (others.map Prod.snd) := by
  induction fields generalizing others with
  | nil => cases others <;> simp [Matched, keys]
  | cons field rest ih =>
      cases others with
      | nil => simp [Matched, keys]
      | cons other others =>
          simp only [Matched, keys, List.forall₂_cons, List.map_cons, List.cons.injEq] at ih ⊢
          rw [ih]
          tauto

namespace Tree

/-- The same tree but for the order of the fields in its nodes, with floats in the same places that are related. -/
inductive UpToOrder (floats : Binary64 → Binary64 → Prop) : Tree → Tree → Prop
  | null : UpToOrder floats .null .null
  | boolean (value) : UpToOrder floats (.boolean value) (.boolean value)
  | integer (value) : UpToOrder floats (.integer value) (.integer value)
  | float {value other} : floats value other → UpToOrder floats (.float value) (.float other)
  | text (value) : UpToOrder floats (.text value) (.text value)
  | sequence {items others} : List.Forall₂ (UpToOrder floats) items others →
      UpToOrder floats (.sequence items) (.sequence others)
  | mapping {fields ordered others} : Fields.keys fields = Fields.keys ordered →
      List.Forall₂ (UpToOrder floats) (fields.map Prod.snd) (ordered.map Prod.snd) → ordered.Perm others →
      UpToOrder floats (.mapping fields) (.mapping others)

/-- The same tree with its fields put in another order, in any of its nodes. -/
abbrev Reordered : Tree → Tree → Prop := UpToOrder (· = ·)

section

variable {r s t : Binary64 → Binary64 → Prop} {a b c : Tree}

theorem upToOrder_sequence_iff {items others : List Tree} :
    UpToOrder r (.sequence items) (.sequence others) ↔ List.Forall₂ (UpToOrder r) items others := by
  constructor
  · rintro ⟨_⟩
    assumption
  · exact .sequence

theorem upToOrder_mapping_iff {fields others : Fields Tree} : UpToOrder r (.mapping fields) (.mapping others) ↔
    ∃ ordered : Fields Tree, fields.Matched (UpToOrder r) ordered ∧ ordered.Perm others := by
  constructor
  · rintro ⟨_⟩
    exact ⟨_, Fields.matched_iff.mpr ⟨‹_›, ‹_›⟩, ‹_›⟩
  · rintro ⟨ordered, matched, perm⟩
    obtain ⟨names, values⟩ := Fields.matched_iff.mp matched
    exact .mapping names values perm

theorem UpToOrder.exists_of_mapping {fields : Fields Tree} (related : UpToOrder r (.mapping fields) b) :
    ∃ ordered others : Fields Tree, b = .mapping others ∧ fields.Matched (UpToOrder r) ordered ∧
      ordered.Perm others := by
  cases b with
  | mapping others =>
      obtain ⟨ordered, matched, perm⟩ := upToOrder_mapping_iff.mp related
      exact ⟨ordered, others, rfl, matched, perm⟩
  | _ => cases related

theorem upToOrder_refl (related : ∀ x, (float x).PartOf a → r x x) : UpToOrder r a a := by
  induction a using partsInduction with
  | null => exact .null
  | boolean value => exact .boolean value
  | integer value => exact .integer value
  | float value => exact .float (related value (.self _))
  | text value => exact .text value
  | sequence items ih =>
      refine .sequence (List.forall₂_same.mpr ?_)
      intro item member
      exact ih item member fun x part => related x (.item member part)
  | mapping fields ih =>
      refine upToOrder_mapping_iff.mpr ⟨fields, List.forall₂_same.mpr ?_, .refl _⟩
      intro field member
      exact ⟨rfl, ih field member fun x part => related x (.field member part)⟩

theorem UpToOrder.symm (flips : ∀ x y, r x y → s y x) (related : UpToOrder r a b) : UpToOrder s b a := by
  induction a using partsInduction generalizing b with
  | null | boolean value | integer value | text value =>
      cases related
      constructor
  | float value =>
      cases related with
      | float same => exact .float (flips _ _ same)
  | sequence items ih =>
      cases related with
      | sequence matched => exact .sequence (forall₂_of_mem matched fun item member other => ih item member).flip
  | mapping fields ih =>
      obtain ⟨ordered, others, rfl, matched, perm⟩ := related.exists_of_mapping
      have flipped : ordered.Matched (UpToOrder s) fields := by
        refine (forall₂_of_mem matched ?_).flip
        rintro field member other ⟨same, values⟩
        exact ⟨same.symm, ih field member values⟩
      obtain ⟨moved, matchedToo, permToo⟩ := List.perm_comp_forall₂ perm.symm flipped
      exact upToOrder_mapping_iff.mpr ⟨moved, matchedToo, permToo⟩

theorem UpToOrder.trans (joins : ∀ x y z, r x y → s y z → t x z) (first : UpToOrder r a b)
    (second : UpToOrder s b c) :
    UpToOrder t a c := by
  induction a using partsInduction generalizing b c with
  | null | boolean value | integer value | text value =>
      cases first
      cases second
      constructor
  | float value =>
      cases first with
      | float same =>
          cases second with
          | float sameToo => exact .float (joins _ _ _ same sameToo)
  | sequence items ih =>
      cases first with
      | sequence matched =>
          cases second with
          | sequence matchedToo =>
              refine .sequence (forall₂_of_mem (forall₂_comp matched matchedToo) ?_)
              rintro item member other ⟨middle, here, there⟩
              exact ih item member here there
  | mapping fields ih =>
      obtain ⟨ordered, middles, rfl, matched, perm⟩ := first.exists_of_mapping
      obtain ⟨orderedToo, others, rfl, matchedToo, permToo⟩ := second.exists_of_mapping
      -- both trees are matched before fields move, so the first move has to pass behind the second match
      obtain ⟨moved, matchedMoved, permMoved⟩ := List.perm_comp_forall₂ perm matchedToo
      refine upToOrder_mapping_iff.mpr ⟨moved, ?_, permMoved.trans permToo⟩
      refine forall₂_of_mem (forall₂_comp matched matchedMoved) ?_
      rintro field member other ⟨middle, ⟨same, here⟩, sameToo, there⟩
      exact ⟨same.trans sameToo, ih field member here there⟩

theorem distinct_of_matched {fields ordered others : Fields Tree} (distinct : fields.Distinct)
    (matched : fields.Matched (UpToOrder r) ordered) (perm : ordered.Perm others) :
    ordered.Distinct ∧ others.Distinct := by
  have distinctOrdered : ordered.Distinct := by
    rw [Fields.Distinct, ← matched.keys_eq]
    exact distinct
  exact ⟨distinctOrdered, (perm.map Prod.fst).nodup_iff.mp distinctOrdered⟩

theorem UpToOrder.wellKeyed (related : UpToOrder r a b) (keyed : a.WellKeyed) : b.WellKeyed := by
  induction a using partsInduction generalizing b with
  | null | boolean value | integer value | float value | text value =>
      cases related
      trivial
  | sequence items ih =>
      cases related with
      | sequence matched =>
          refine keyedItems_iff.mpr ?_
          intro other member
          obtain ⟨item, present, same⟩ := exists_related_of_mem matched member
          exact ih item present same (keyedItems_iff.mp keyed item present)
  | mapping fields ih =>
      obtain ⟨ordered, others, rfl, matched, perm⟩ := related.exists_of_mapping
      refine ⟨(distinct_of_matched keyed.1 matched perm).2, keyedFields_iff.mpr ?_⟩
      intro other member
      obtain ⟨field, present, _, same⟩ := exists_related_of_mem matched (perm.mem_iff.mpr member)
      exact ih field present same (keyedFields_iff.mp keyed.2 field present)

theorem kindOf_eq_of_matched {fields ordered others : Fields Tree} (distinct : fields.Distinct)
    (matched : fields.Matched (UpToOrder r) ordered) (perm : ordered.Perm others) : kindOf others = kindOf fields := by
  have looked := matched.rel_get? kindField
  have moved := Fields.get?_perm (distinct_of_matched distinct matched perm).1 perm kindField
  rw [kindOf, kindOf, moved]
  generalize fields.get? kindField = first, ordered.get? kindField = second at looked ⊢
  cases looked with
  | none => rfl
  | some same => cases same <;> rfl

/-- Pruning keeps what two trees have in common, for it goes by kinds and names. -/
theorem UpToOrder.prune (drop : Option String → String → Bool) (related : UpToOrder r a b) (keyed : a.WellKeyed) :
    UpToOrder r (a.prune drop) (b.prune drop) := by
  induction a using partsInduction generalizing b with
  | null | boolean value | integer value | text value =>
      cases related
      constructor
  | float value =>
      cases related with
      | float same => exact .float same
  | sequence items ih =>
      cases related with
      | @sequence _ others matched =>
          rw [Tree.prune, Tree.prune, pruneItems_eq_map, pruneItems_eq_map]
          refine .sequence (List.forall₂_map_left_iff.mpr
            (List.forall₂_map_right_iff.mpr (forall₂_of_mem matched ?_)))
          intro item member other same
          exact ih item member same (keyedItems_iff.mp keyed item member)
  | mapping fields ih =>
      obtain ⟨ordered, others, rfl, matched, perm⟩ := related.exists_of_mapping
      rw [Tree.prune, Tree.prune, kindOf_eq_of_matched keyed.1 matched perm, pruneFields_eq_map, pruneFields_eq_map]
      refine upToOrder_mapping_iff.mpr ⟨_, ?_, (perm.filter _).map _⟩
      refine List.forall₂_map_left_iff.mpr (List.forall₂_map_right_iff.mpr ?_)
      refine forall₂_of_mem (matched.filter fun name => !drop (kindOf fields) name) ?_
      rintro field member other ⟨same, values⟩
      have inside := List.mem_of_mem_filter member
      exact ⟨same, ih field inside values (keyedFields_iff.mp keyed.2 field inside)⟩

end

theorem sameUpToOrder_iff {a b : Tree} : SameUpToOrder a b ↔ UpToOrder (fun x y => x.equal y = true) a b := by
  induction a using partsInduction generalizing b with
  | null | boolean value | integer value | text value => constructor <;> rintro ⟨_⟩ <;> constructor
  | float value =>
      constructor
      · intro related
        cases related with
        | float equal => exact .float equal
      · intro related
        cases related with
        | float equal => exact .float equal
  | sequence items ih =>
      cases b with
      | sequence others =>
          rw [sameUpToOrder_sequence_iff, upToOrder_sequence_iff]
          constructor
          · exact fun matched => forall₂_of_mem matched fun item member other => (ih item member).mp
          · exact fun matched => forall₂_of_mem matched fun item member other => (ih item member).mpr
      | _ => constructor <;> rintro ⟨_⟩
  | mapping fields ih =>
      cases b with
      | mapping others =>
          simp only [sameUpToOrder_mapping_iff, upToOrder_mapping_iff, ← Fields.matched_iff]
          constructor
          · rintro ⟨ordered, perm, matched⟩
            refine ⟨ordered, forall₂_of_mem matched ?_, perm⟩
            exact fun field member other same => ⟨same.1, (ih field member).mp same.2⟩
          · rintro ⟨ordered, matched, perm⟩
            refine ⟨ordered, perm, forall₂_of_mem matched ?_⟩
            exact fun field member other same => ⟨same.1, (ih field member).mpr same.2⟩
      | _ => constructor <;> rintro ⟨_⟩

theorem same_iff_upToOrder {a b : Tree} (keyed : a.WellKeyed) (keyedToo : b.WellKeyed) :
    a.same b = true ↔ UpToOrder (fun x y => x.equal y = true) a b :=
  (same_iff a b keyed keyedToo).trans sameUpToOrder_iff

end Tree

end FormatAudit
