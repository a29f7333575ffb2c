import FormatAudit.Proofs.Fields
import FormatAudit.Proofs.Tree.Parts
import FormatAudit.Tree.Cleaning

/-! Walks from the root down by a choice of fields. Such a walk is a map over items and over the fields that are kept of
a node; what its visitor does besides, it does at one node after the other. A second walk that goes by kinds and names
can be made in one with it. Cleaning a tree and stripping it of its slices of source are one walk, then. -/

namespace FormatAudit.Tree

@[ext]
structure Choice where
  keep : Fields Tree → Fields Tree
  lighter : ∀ fields, fieldsWeight (keep fields) ≤ fieldsWeight fields

namespace Choice

def reduced (choice : Choice) (fields : Fields Tree) : Reduced fields := ⟨choice.keep fields, choice.lighter fields⟩

def andThen (first second : Choice) : Choice where
  keep fields := second.keep (first.keep fields)
  lighter fields := Nat.le_trans (second.lighter _) (first.lighter fields)

def dropping (drop : Option String → String → Bool) : Choice where
  keep fields := fields.filter fun field => !drop (kindOf fields) field.1
  lighter fields := fieldsWeight_filter_le fields _

end Choice

/-- The tree as a walk from the root down leaves it. The walk goes on into the fields that the choice keeps. -/
def topDown (choice : Choice) : Tree → Tree
  | .sequence items => .sequence (items.map (topDown choice))
  | .mapping fields => .mapping ((choice.keep fields).attach.map fun field => (field.1.1, topDown choice field.1.2))
  | scalar => scalar
termination_by tree => tree.weight
decreasing_by
  · have below := weight_lt_of_mem_items ‹_›
    rw [weight]
    omega
  · have below := weight_lt_of_mem_fields field.2
    have lighter := choice.lighter fields
    simp only [weight, fieldsWeight] at below lighter ⊢
    omega

def visited (choice : Choice) : Tree → List (Fields Tree)
  | .sequence items => items.flatMap (visited choice)
  | .mapping fields => fields :: (choice.keep fields).attach.flatMap fun field => visited choice field.1.2
  | _ => []
termination_by tree => tree.weight
decreasing_by
  · have below := weight_lt_of_mem_items ‹_›
    rw [weight]
    omega
  · have below := weight_lt_of_mem_fields field.2
    have lighter := choice.lighter fields
    simp only [weight, fieldsWeight] at below lighter ⊢
    omega

section

variable {choice : Choice}

theorem topDown_sequence (items : List Tree) :
    topDown choice (.sequence items) = .sequence (items.map (topDown choice)) := by
  rw [topDown]

theorem topDown_mapping (fields : Fields Tree) : topDown choice (.mapping fields) =
    .mapping ((choice.keep fields).map fun field => (field.1, topDown choice field.2)) := by
  have plain := List.attach_map_val (l := choice.keep fields) (f := fun field => (field.1, topDown choice field.2))
  rw [topDown, plain]

theorem visited_sequence (items : List Tree) : visited choice (.sequence items) = items.flatMap (visited choice) := by
  rw [visited]

theorem visited_mapping (fields : Fields Tree) : visited choice (.mapping fields) =
    fields :: (choice.keep fields).flatMap fun field => visited choice field.2 := by
  rw [visited, List.flatMap_subtype (g := fun field => visited choice field.2) (fun _ _ => rfl), List.unattach_attach]

theorem topDownInduction (choice : Choice) {motive : Tree → Prop}
    (scalar : ∀ tree, (∀ items, tree ≠ .sequence items) →
      (∀ fields, tree ≠ .mapping fields) → motive tree)
    (sequence : ∀ items, (∀ item ∈ items, motive item) → motive (.sequence items))
    (mapping : ∀ fields, (∀ field ∈ choice.keep fields, motive field.2) → motive (.mapping fields))
    (tree : Tree) : motive tree := by
  induction tree using topDown.induct choice with
  | case1 items ih => exact sequence items ih
  | case2 fields ih => exact mapping fields fun field member => ih ⟨field, member⟩
  | case3 tree notSequence notMapping => exact scalar tree notSequence notMapping

theorem kindOf_map_topDown (fields : Fields Tree) :
    kindOf (fields.map fun field => (field.1, topDown choice field.2)) = kindOf fields := by
  rw [kindOf, kindOf, Fields.get?_map]
  cases Fields.get? fields kindField with
  | none => rfl
  -- a text names a kind, and a walk leaves every text as it was
  | some value => cases value <;> simp [topDown]

theorem topDown_topDown (drop : Option String → String → Bool) (tree : Tree) :
    topDown (.dropping drop) (topDown choice tree) = topDown (choice.andThen (.dropping drop)) tree := by
  induction tree using topDownInduction choice with
  | scalar tree notSequence notMapping => cases tree <;> simp_all [topDown]
  | sequence items ih =>
      rw [topDown_sequence, topDown_sequence, topDown_sequence, List.map_map]
      exact congrArg _ (List.map_congr_left ih)
  | mapping fields ih =>
      rw [topDown_mapping, topDown_mapping, topDown_mapping]
      simp only [Choice.dropping, Choice.andThen, kindOf_map_topDown, List.filter_map, List.map_map]
      refine congrArg _ (List.map_congr_left ?_)
      intro field member
      exact congrArg (Prod.mk field.1) (ih field (List.mem_of_mem_filter member))

theorem exists_keys_eq_of_partOf {fields : Fields Tree} {tree : Tree}
    (part : (mapping fields).PartOf (topDown choice tree)) : ∃ before, fields.keys = (choice.keep before).keys := by
  induction tree using topDownInduction choice with
  | scalar tree notSequence notMapping => cases tree <;> simp_all [topDown] <;> cases part
  | sequence items ih =>
      rw [topDown_sequence] at part
      cases part with
      | item member inside =>
          obtain ⟨item, present, rfl⟩ := List.mem_map.mp member
          exact ih item present inside
  | mapping before ih =>
      rw [topDown_mapping] at part
      cases part with
      | self => exact ⟨before, by rw [Fields.keys, List.map_map]; rfl⟩
      | field member inside =>
          obtain ⟨field, present, rfl⟩ := List.mem_map.mp member
          exact ih field present inside

end

section

variable {m : Type → Type} [Monad m] [LawfulMonad m] {visit : (fields : Fields Tree) → m (Reduced fields)}
  {choice : Choice} {note : Fields Tree → m Unit}

theorem walkItems_of_forall {f : Tree → Tree} {seen : Tree → List (Fields Tree)} {items : List Tree}
    (walks : ∀ item ∈ items, walk visit item = (fun _ => f item) <$> forM (seen item) note) :
    walkItems visit items = (fun _ => items.map f) <$> forM (items.flatMap seen) note := by
  induction items with
  | nil => simp [walkItems]
  | cons item rest ih =>
      obtain ⟨first, later⟩ := List.forall_mem_cons.mp walks
      rw [walkItems, first, ih later]
      simp

theorem walkFields_of_forall {f : Tree → Tree} {seen : Tree → List (Fields Tree)} {fields : Fields Tree}
    (walks : ∀ field ∈ fields, walk visit field.2 = (fun _ => f field.2) <$> forM (seen field.2) note) :
    walkFields visit fields = (fun _ => fields.map fun field => (field.1, f field.2)) <$>
      forM (fields.flatMap fun field => seen field.2) note := by
  induction fields with
  | nil => simp [walkFields]
  | cons field rest ih =>
      obtain ⟨first, later⟩ := List.forall_mem_cons.mp walks
      rw [walkFields, first, ih later]
      simp

theorem walk_eq_forM (visits : ∀ fields, visit fields = (fun _ => choice.reduced fields) <$> note fields)
    (tree : Tree) :
    walk visit tree = (fun _ => topDown choice tree) <$> forM (visited choice tree) note := by
  induction tree using topDownInduction choice with
  | scalar tree notSequence notMapping => cases tree <;> simp_all [walk, topDown, visited]
  | sequence items ih => rw [walk, walkItems_of_forall ih, topDown_sequence, visited_sequence, Functor.map_map]
  | mapping fields ih =>
      rw [walk, visits, bind_map_left, Choice.reduced, walkFields_of_forall ih, topDown_mapping, visited_mapping]
      simp

theorem walk_eq_topDown (visits : ∀ fields, visit fields = pure (choice.reduced fields)) (tree : Tree) :
    walk visit tree = pure (topDown choice tree) := by
  have silent : ∀ fields, visit fields = (fun _ => choice.reduced fields) <$> pure () := by
    intro fields
    rw [visits, map_pure]
  have nothing : forM (visited choice tree) (fun _ => (pure () : m Unit)) = pure () := by
    induction visited choice tree <;> simp [*]
  rw [walk_eq_forM silent, nothing, map_pure]

end

theorem kindOf_filter (keep : String → Bool) (kept : keep kindField = true) (fields : Fields Tree) :
    kindOf (fields.filter fun field => keep field.1) = kindOf fields := by
  rw [kindOf, kindOf, Fields.get?_filter, if_pos kept]

theorem stripSource_eq_topDown (tree : Tree) :
    stripSource tree = topDown (.dropping fun _ name => name = sourceField) tree := by
  refine walk_eq_topDown (m := Id) ?_ tree
  intro fields
  refine congrArg pure (Subtype.ext ?_)
  simp [Reduced.without, Reduced.filter, Choice.reduced, Choice.dropping]

section

variable (pick : Option String → (fields : Fields Tree) → Reduced fields)

def Choice.picking : Choice where
  keep fields := (pick (kindOf fields) (fields.filter fun field => field.1 ∉ positionFields)).1
  lighter fields := Nat.le_trans (pick _ _).2 (fieldsWeight_filter_le fields _)

/-- What one pass keeps of a node: its position goes first, then the pick is made by its kind, and its slice of source
goes last. -/
def Choice.onePass : Choice where
  keep fields :=
    let placeless := fields.filter fun field => field.1 ∉ positionFields
    (pick (kindOf fields) placeless).1.filter fun field => field.1 ≠ sourceField
  lighter fields :=
    Nat.le_trans (fieldsWeight_filter_le _ _) (Nat.le_trans (pick _ _).2 (fieldsWeight_filter_le fields _))

theorem onePass_eq_andThen :
    Choice.onePass pick = (Choice.picking pick).andThen (.dropping fun _ name => name = sourceField) := by
  refine Choice.ext (funext ?_)
  intro fields
  simp [Choice.onePass, Choice.picking, Choice.andThen, Choice.dropping]

end

section

variable {m : Type → Type} [Monad m] [LawfulMonad m] {hook : Hook m}
  {pick : Option String → (fields : Fields Tree) → Reduced fields}

theorem kindOf_placeless (fields : Fields Tree) :
    kindOf (Reduced.without fields positionFields).1 = kindOf fields :=
  kindOf_filter (fun name => name ∉ positionFields) (by decide) fields

theorem clean_eq_topDown (picks : ∀ kind fields, hook kind fields = pure (pick kind fields)) (tree : Tree) :
    clean hook tree = pure (topDown (.picking pick) tree) := by
  refine walk_eq_topDown ?_ tree
  intro fields
  rw [cleanFields, picks, map_pure, kindOf_placeless]
  rfl

/-- Normalising a tree is one walk, when the hook only takes fields out and puts them in another order. It leaves no
position and no slice of source anywhere. -/
theorem normalize_eq_topDown (picks : ∀ kind fields, hook kind fields = pure (pick kind fields))
    (rearranges : ∀ kind fields, (pick kind fields).1.Subperm fields) (tree : Tree) :
    normalize hook tree = pure (topDown (.onePass pick) tree) ∧
    ∀ fields : Fields Tree, (mapping fields).PartOf (topDown (.onePass pick) tree) →
      ∀ name ∈ fields.keys, name ∉ positionFields ∧ name ≠ sourceField := by
  constructor
  · rw [normalize, clean_eq_topDown picks, map_pure, stripSource_eq_topDown, topDown_topDown, onePass_eq_andThen]
  · intro fields part name member
    obtain ⟨before, names⟩ := exists_keys_eq_of_partOf part
    rw [names] at member
    obtain ⟨field, kept, rfl⟩ := List.mem_map.mp member
    obtain ⟨picked, notSource⟩ := List.mem_filter.mp kept
    have placeless := (rearranges _ _).subset picked
    exact ⟨by simpa using (List.mem_filter.mp placeless).2, by simpa using notSource⟩

end

def sampleKept (kind : Option String) (fields : Fields Tree) : Fields Tree :=
  let heard : Fields Tree := fields.filter fun field => match field.2 with
    | .null => false
    | _ => true
  if kind = some "Call" then heard.reverse else heard

theorem sampleKept_subperm (kind : Option String) (fields : Fields Tree) : (sampleKept kind fields).Subperm fields := by
  by_cases call : kind = some "Call"
  · rw [sampleKept, if_pos call]
    exact (List.reverse_perm _).subperm.trans List.filter_sublist.subperm
  · rw [sampleKept, if_neg call]
    exact List.filter_sublist.subperm

def samplePick (kind : Option String) (fields : Fields Tree) : Reduced fields :=
  ⟨sampleKept kind fields, fieldsWeight_subperm (sampleKept_subperm kind fields)⟩

/-- A call of a name, each with its place in the source and with the slice that it was read from. -/
def sampleCall : Tree :=
  .mapping [("type", .text "Call"), ("source", .text "f()"), ("lineno", .integer 1),
    ("of", .sequence [.mapping [("type", .text "Name"), ("id", .text "f"), ("source", .text "f"), ("note", .null),
      ("end", .integer 1)]])]

theorem normalize_sampleCall : normalize (m := Id) (fun kind fields => pure (samplePick kind fields)) sampleCall =
    .mapping [("of", .sequence [.mapping [("type", .text "Name"), ("id", .text "f")]]), ("type", .text "Call")] := by
  have rearranges : ∀ kind fields, (samplePick kind fields).1.Subperm fields := sampleKept_subperm
  obtain ⟨walked, _⟩ := normalize_eq_topDown (m := Id) (fun _ _ => rfl) rearranges sampleCall
  rw [walked]
  cbv

end FormatAudit.Tree
