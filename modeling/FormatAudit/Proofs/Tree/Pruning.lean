import FormatAudit.Proofs.Tree.TopDown

/-! Cleaning as one pass over a tree. A hook that picks fields by the kind of their node and their name leaves the
tree without those fields, without positions and without slices of source, and a second pass finds nothing more to take
out. -/

namespace FormatAudit.Tree

/-- The tree without the dropped fields, at every depth. Whether a field is dropped depends on the kind of its node
and on its name. -/
def prune (drop : Option String → String → Bool) : Tree → Tree
  | .sequence items => .sequence (pruneItems items)
  | .mapping fields => .mapping (pruneFields (kindOf fields) fields)
  | scalar => scalar
where
  pruneItems : List Tree → List Tree
    | [] => []
    | item :: rest => prune drop item :: pruneItems rest
  pruneFields (kind : Option String) : List (String × Tree) → List (String × Tree)
    | [] => []
    | (name, value) :: rest =>
      if drop kind name then pruneFields kind rest else (name, prune drop value) :: pruneFields kind rest

section

variable {drop : Option String → String → Bool}

theorem pruneItems_eq_map (items : List Tree) : prune.pruneItems drop items = items.map (prune drop) := by
  induction items with
  | nil => rfl
  | cons item rest ih => rw [prune.pruneItems, ih, List.map_cons]

theorem pruneFields_eq_map (kind : Option String) (fields : Fields Tree) : prune.pruneFields drop kind fields =
    (fields.filter fun field => !drop kind field.1).map fun field => (field.1, prune drop field.2) := by
  induction fields with
  | nil => rfl
  | cons field rest ih =>
      obtain ⟨name, value⟩ := field
      by_cases dropped : drop kind name <;> simp [prune.pruneFields, dropped, ih]

theorem prune_eq_topDown (tree : Tree) : prune drop tree = topDown (.dropping drop) tree := by
  induction tree using topDownInduction (.dropping drop) with
  | scalar tree notSequence notMapping => cases tree <;> simp_all [prune, topDown]
  | sequence items ih =>
      rw [prune, pruneItems_eq_map, topDown_sequence]
      exact congrArg _ (List.map_congr_left ih)
  | mapping fields ih =>
      rw [prune, pruneFields_eq_map, topDown_mapping]
      refine congrArg _ (List.map_congr_left ?_)
      intro field member
      exact congrArg (Prod.mk field.1) (ih field member)

theorem keys_pruneFields (kind : Option String) (fields : Fields Tree) :
    Fields.keys (prune.pruneFields drop kind fields) = fields.keys.filter fun name => !drop kind name := by
  rw [pruneFields_eq_map, Fields.keys, Fields.keys, List.map_map, List.filter_map]
  rfl

theorem wellKeyed_prune (tree : Tree) (keyed : tree.WellKeyed) : (prune drop tree).WellKeyed := by
  induction tree using partsInduction with
  | sequence items ih =>
      rw [prune, pruneItems_eq_map]
      refine keyedItems_iff.mpr ?_
      intro pruned member
      obtain ⟨item, present, rfl⟩ := List.mem_map.mp member
      exact ih item present (keyedItems_iff.mp keyed item present)
  | mapping fields ih =>
      rw [prune]
      refine ⟨?_, keyedFields_iff.mpr ?_⟩
      · rw [Fields.Distinct, keys_pruneFields]
        exact List.Nodup.filter _ keyed.1
      · rw [pruneFields_eq_map]
        intro pruned member
        obtain ⟨field, present, rfl⟩ := List.mem_map.mp member
        have inside := List.mem_of_mem_filter present
        exact ih field inside (keyedFields_iff.mp keyed.2 field inside)
  | _ => simp [prune, WellKeyed]

end

section

variable {first second : Option String → String → Bool}

theorem prune_prune
    (sees : ∀ fields : Fields Tree,
      second (kindOf (fields.filter fun field => !first (kindOf fields) field.1)) = second (kindOf fields))
    (tree : Tree) :
    prune second (prune first tree) = prune (fun kind name => first kind name || second kind name) tree := by
  rw [prune_eq_topDown, prune_eq_topDown, prune_eq_topDown, topDown_topDown]
  refine congrArg (topDown · tree) (Choice.ext (funext ?_))
  intro fields
  simp only [Choice.andThen, Choice.dropping, sees, List.filter_filter, Bool.not_or, Bool.and_comm]

theorem prune_prune_of_kind_kept (keeps : ∀ kind, first kind kindField = false) (tree : Tree) :
    prune second (prune first tree) = prune (fun kind name => first kind name || second kind name) tree := by
  refine prune_prune ?_ tree
  intro fields
  rw [kindOf_filter (fun name => !first (kindOf fields) name) (by simp [keeps]) fields]

theorem prune_idempotent (keeps : ∀ kind, first kind kindField = false) (tree : Tree) :
    prune first (prune first tree) = prune first tree := by
  rw [prune_prune_of_kind_kept keeps]
  simp only [Bool.or_self]

end

/-- The tree without its positions, its slices of source and the fields called cosmetic. -/
def erase (cosmetic : Option String → String → Bool) : Tree → Tree :=
  prune fun kind name => positionFields.contains name || cosmetic kind name || name = sourceField

def unclean (cosmetic : Option String → String → Bool) (kind : Option String) (name : String) : Bool :=
  positionFields.contains name || cosmetic kind name

theorem unclean_kindField {cosmetic : Option String → String → Bool}
    (keeps : ∀ kind, cosmetic kind kindField = false)
    (kind : Option String) : unclean cosmetic kind kindField = false := by
  rw [unclean, keeps, Bool.or_false]
  decide

theorem stripSource_eq_prune (tree : Tree) : stripSource tree = prune (fun _ name => name = sourceField) tree := by
  rw [stripSource_eq_topDown, prune_eq_topDown]

section

variable {m : Type → Type} [Monad m] [LawfulMonad m] {hook : Hook m} {cosmetic : Option String → String → Bool}
  (picks : ∀ kind fields, hook kind fields = pure (.filter fields fun field => !cosmetic kind field.1))

include picks

theorem clean_eq_prune (tree : Tree) : clean hook tree = pure (prune (unclean cosmetic) tree) := by
  rw [clean_eq_topDown picks, prune_eq_topDown]
  refine congrArg (fun choice => pure (topDown choice tree)) (Choice.ext (funext ?_))
  intro fields
  simp [Choice.picking, Choice.dropping, Reduced.filter, unclean, List.filter_filter, Bool.and_comm]

theorem normalize_eq_erase (tree : Tree) : normalize hook tree = pure (erase cosmetic tree) := by
  rw [normalize, clean_eq_prune picks, map_pure, stripSource_eq_prune, prune_prune fun _ => rfl]
  rfl

/-- A second pass finds nothing more to take out, as long as nodes keep the fields of their kinds. Whether a tree is
first cleaned or first stripped of its slices of source does not matter. -/
theorem normalize_idempotent (keeps : ∀ kind, cosmetic kind kindField = false) (tree : Tree) :
    (∃ normalized, normalize hook tree = pure normalized ∧ normalize hook normalized = pure normalized) ∧
    (∃ cleaned, clean hook tree = pure cleaned ∧ clean hook cleaned = pure cleaned) ∧
    stripSource (stripSource tree) = stripSource tree ∧
    clean hook (stripSource tree) = stripSource <$> clean hook tree := by
  have kindStays := unclean_kindField keeps
  refine ⟨⟨_, normalize_eq_erase picks tree, ?_⟩, ⟨_, clean_eq_prune picks tree, ?_⟩, ?_, ?_⟩
  · rw [normalize_eq_erase picks, erase, prune_idempotent]
    intro kind
    change (unclean cosmetic kind kindField || decide (kindField = sourceField)) = false
    rw [kindStays, Bool.false_or]
    decide
  · rw [clean_eq_prune picks, prune_idempotent kindStays]
  · rw [stripSource_eq_prune, stripSource_eq_prune, prune_idempotent]
    intro kind
    decide
  · rw [clean_eq_prune picks, clean_eq_prune picks, map_pure, stripSource_eq_prune, stripSource_eq_prune]
    rw [prune_prune_of_kind_kept kindStays, prune_prune_of_kind_kept (fun _ => by decide)]
    simp only [Bool.or_comm]

end

def isNote (kind : Option String) (name : String) : Bool := kind = some "Name" && name = "note"

def withoutNotes : Hook Id := fun kind fields => pure (.filter fields fun field => !isNote kind field.1)

theorem normalize_twice_sampleCall :
    let bare : Tree :=
      .mapping [("type", .text "Call"), ("of", .sequence [.mapping [("type", .text "Name"), ("id", .text "f")]])]
    normalize withoutNotes sampleCall = pure bare ∧ normalize withoutNotes bare = pure bare := by
  intro bare
  have picks : ∀ kind fields, withoutNotes kind fields = pure (.filter fields fun field => !isNote kind field.1) :=
    fun _ _ => rfl
  have keeps : ∀ kind, isNote kind kindField = false := fun _ => by simp [isNote, kindField]
  obtain ⟨⟨normalized, first, second⟩, _⟩ := normalize_idempotent picks keeps sampleCall
  have left : normalized = bare := by
    rw [normalize_eq_erase picks] at first
    exact first.symm
  exact left ▸ ⟨first, second⟩

end FormatAudit.Tree
