import FormatAudit.Proofs.Decoding.Places
import FormatAudit.Proofs.Tree.TopDown

/-! The nodes of a tree that a walk comes to. They are the nodes on whose way no field was taken out, and each of them
comes before those inside it. -/

namespace FormatAudit.Tree

/-- A node of a part is a node of the whole, with its place under the place of the part. -/
def within (selector : Selector) (node : List Selector × Fields Tree) : List Selector × Fields Tree :=
  (selector :: node.1, node.2)

def nodes : Tree → List (List Selector × Fields Tree)
  | .sequence items => nodesOfItems 0 items
  | .mapping fields => ([], fields) :: nodesOfFields fields
  | _ => []
where
  nodesOfItems (i : Nat) : List Tree → List (List Selector × Fields Tree)
    | [] => []
    | item :: rest => item.nodes.map (within (.index i)) ++ nodesOfItems (i + 1) rest
  nodesOfFields : List (String × Tree) → List (List Selector × Fields Tree)
    | [] => []
    | (name, value) :: rest => value.nodes.map (within (.name name)) ++ nodesOfFields rest

theorem nodes_sequence (items : List Tree) : nodes (.sequence items) =
    items.zipIdx.flatMap fun entry => entry.1.nodes.map (within (.index entry.2)) := by
  rw [nodes]
  generalize 0 = first
  induction items generalizing first with
  | nil => rfl
  | cons item rest ih => rw [nodes.nodesOfItems, ih, List.zipIdx_cons, List.flatMap_cons]

theorem nodes_mapping (fields : Fields Tree) : nodes (.mapping fields) =
    ([], fields) :: fields.flatMap fun field => field.2.nodes.map (within (.name field.1)) := by
  rw [nodes]
  induction fields with
  | nil => rfl
  | cons field rest ih => rw [nodes.nodesOfFields, List.flatMap_cons, (List.cons_inj_right _).mp ih]

theorem mem_within_iff {selector : Selector} {inner : List (List Selector × Fields Tree)} {place : List Selector}
    {fields : Fields Tree} : (place, fields) ∈ inner.map (within selector) ↔
      ∃ below, place = selector :: below ∧ (below, fields) ∈ inner := by
  simp only [List.mem_map, within, Prod.mk.injEq, Prod.exists]
  grind

theorem mem_nodes_iff {tree : Tree} (keyed : tree.WellKeyed) {place : List Selector} {fields : Fields Tree} :
    (place, fields) ∈ tree.nodes ↔ tree.at? place = some (.mapping fields) := by
  induction tree using partsInduction generalizing place with
  | sequence items ih =>
      have inside := keyedItems_iff.mp keyed
      simp only [nodes_sequence, List.mem_flatMap, mem_within_iff, Prod.exists, List.mk_mem_zipIdx_iff_getElem?]
      constructor
      · rintro ⟨item, i, here, below, rfl, member⟩
        have present := List.mem_of_getElem? here
        simp [at?, here, (ih item present (inside item present)).mp member]
      · intro found
        cases place with
        | nil => simp [at?] at found
        | cons selector below =>
            cases selector with
            | name _ => simp [at?] at found
            | index i =>
                obtain ⟨item, here, found⟩ := Option.bind_eq_some_iff.mp found
                have present := List.mem_of_getElem? here
                exact ⟨item, i, here, below, rfl, (ih item present (inside item present)).mpr found⟩
  | mapping others ih =>
      have inside := keyedFields_iff.mp keyed.2
      simp only [nodes_mapping, List.mem_cons, List.mem_flatMap, mem_within_iff, Prod.exists]
      constructor
      · rintro (same | ⟨name, value, member, below, rfl, found⟩)
        · cases same
          rfl
        · have here := (Fields.get?_eq_some_iff keyed.1).mpr member
          simp [at?, here, (ih _ member (inside _ member)).mp found]
      · intro found
        cases place with
        | nil => simp_all [at?]
        | cons selector below =>
            cases selector with
            | index _ => simp [at?] at found
            | name name =>
                obtain ⟨value, here, found⟩ := Option.bind_eq_some_iff.mp found
                have member := Fields.mem_keys_of_get? here
                exact .inr ⟨name, value, member, below, rfl, (ih _ member (inside _ member)).mpr found⟩
  | _ =>
      rcases place with _ | ⟨selector, below⟩
      · simp [nodes, at?]
      · cases selector <;> simp [nodes, at?]

theorem map_fst_within (selector : Selector) (inner : List (List Selector × Fields Tree)) :
    (inner.map (within selector)).map Prod.fst = (inner.map Prod.fst).map (selector :: ·) := by
  simp [within]

theorem nodup_places_within {α : Type} {parts : List α} {selector : α → Selector}
    {inner : α → List (List Selector × Fields Tree)} (apart : parts.Pairwise fun a b => selector a ≠ selector b)
    (each : ∀ part ∈ parts, ((inner part).map Prod.fst).Nodup) :
    ((parts.flatMap fun part => (inner part).map (within (selector part))).map Prod.fst).Nodup := by
  rw [List.map_flatMap, List.nodup_flatMap]
  constructor
  · intro part member
    rw [map_fst_within]
    exact (each part member).map fun _ _ same => (List.cons.inj same).2
  · refine apart.imp ?_
    intro part other different
    simp only [Function.onFun, List.disjoint_left, List.mem_map, within]
    rintro place ⟨_, ⟨_, _, rfl⟩, rfl⟩ ⟨_, ⟨_, _, rfl⟩, same⟩
    exact different (List.cons.inj same).1.symm

theorem nodup_places {tree : Tree} (keyed : tree.WellKeyed) : (tree.nodes.map Prod.fst).Nodup := by
  induction tree using partsInduction with
  | sequence items ih =>
      have inside := keyedItems_iff.mp keyed
      have counted : (items.zipIdx.map Prod.snd).Nodup := by
        rw [List.zipIdx_map_snd]
        exact List.nodup_range'
      rw [nodes_sequence]
      refine nodup_places_within ((List.pairwise_map.mp counted).imp ?_) ?_
      · exact fun different same => different (Selector.index.inj same)
      · intro entry member
        have present := List.fst_mem_of_mem_zipIdx member
        exact ih entry.1 present (inside entry.1 present)
  | mapping fields ih =>
      have inside := keyedFields_iff.mp keyed.2
      rw [nodes_mapping, List.map_cons, List.nodup_cons]
      constructor
      · simp [within]
      · refine nodup_places_within ((List.pairwise_map.mp keyed.1).imp ?_) ?_
        · exact fun different same => different (Selector.name.inj same)
        · exact fun field member => ih field member (inside field member)
  | _ => simp [nodes]

def reaches (choice : Choice) : List Selector → Tree → Bool
  | [], _ => true
  | .index i :: below, .sequence items => items[i]?.any (reaches choice below)
  | .name name :: below, .mapping fields =>
    (choice.keep fields).keys.contains name && (Fields.get? fields name).any (reaches choice below)
  | _, _ => false

def IsOpen (choice : Choice) (tree : Tree) (place : List Selector) : Prop :=
  ∀ above name below fields, place = above ++ .name name :: below → tree.at? above = some (.mapping fields) →
    name ∈ (choice.keep fields).keys

section

variable {choice : Choice}

theorem isOpen_index_iff {items : List Tree} {i : Nat} {item : Tree} (here : items[i]? = some item)
    {below : List Selector} : IsOpen choice (.sequence items) (.index i :: below) ↔ IsOpen choice item below := by
  constructor
  · intro isOpen above name rest fields split found
    exact isOpen (.index i :: above) name rest fields (by rw [split]; rfl) (by simp [at?, here, found])
  · intro isOpen above name rest fields split found
    cases above with
    | nil => cases split
    | cons selector above =>
        cases split
        obtain ⟨_, same, found⟩ := Option.bind_eq_some_iff.mp found
        cases here.symm.trans same
        exact isOpen above name rest fields rfl found

theorem isOpen_name_iff {fields : Fields Tree} {name : String} {value : Tree} (here : fields.get? name = some value)
    {below : List Selector} : IsOpen choice (.mapping fields) (.name name :: below) ↔
      name ∈ (choice.keep fields).keys ∧ IsOpen choice value below := by
  constructor
  · intro isOpen
    refine ⟨isOpen [] name below fields rfl rfl, ?_⟩
    intro above other rest others split found
    exact isOpen (.name name :: above) other rest others (by rw [split]; rfl) (by simp [at?, here, found])
  · rintro ⟨kept, isOpen⟩ above other rest others split found
    cases above with
    | nil =>
        cases split
        cases found
        exact kept
    | cons selector above =>
        cases split
        obtain ⟨_, same, found⟩ := Option.bind_eq_some_iff.mp found
        cases here.symm.trans same
        exact isOpen above other rest others rfl found

theorem reaches_iff {place : List Selector} {tree inner : Tree} (found : tree.at? place = some inner) :
    reaches choice place tree = true ↔ IsOpen choice tree place := by
  induction place generalizing tree with
  | nil => simp [reaches, IsOpen]
  | cons selector below ih =>
      cases selector with
      | index i =>
          cases tree with
          | sequence items =>
              obtain ⟨item, here, found⟩ := Option.bind_eq_some_iff.mp found
              rw [isOpen_index_iff here, ← ih found]
              simp [reaches, here]
          | _ => simp [at?] at found
      | name name =>
          cases tree with
          | mapping fields =>
              obtain ⟨value, here, found⟩ := Option.bind_eq_some_iff.mp found
              rw [isOpen_name_iff here, ← ih found]
              simp [reaches, here]
          | _ => simp [at?] at found

def reached (choice : Choice) (tree : Tree) : List (List Selector × Fields Tree) :=
  tree.nodes.filter fun node => reaches choice node.1 tree

theorem mem_reached_iff {tree : Tree} (keyed : tree.WellKeyed) {place : List Selector} {fields : Fields Tree} :
    (place, fields) ∈ reached choice tree ↔ tree.at? place = some (.mapping fields) ∧
      IsOpen choice tree place := by
  rw [reached, List.mem_filter, mem_nodes_iff keyed]
  exact and_congr_right reaches_iff

end

section

variable {choice : Choice}

theorem map_snd_filter_within (selector : Selector) (inner : List (List Selector × Fields Tree))
    (keep : List Selector → Bool) :
    ((inner.map (within selector)).filter fun node => keep node.1).map Prod.snd =
      (inner.filter fun node => keep (selector :: node.1)).map Prod.snd := by
  rw [List.filter_map, List.map_map]
  rfl

theorem visited_eq_reached (removes : ∀ fields, (choice.keep fields).Sublist fields) {tree : Tree}
    (keyed : tree.WellKeyed) : visited choice tree = (reached choice tree).map Prod.snd := by
  induction tree using partsInduction with
  | sequence items ih =>
      have inside := keyedItems_iff.mp keyed
      have parts : items.flatMap (visited choice) = items.zipIdx.flatMap fun entry => visited choice entry.1 := by
        conv => lhs; rw [← List.zipIdx_map_fst 0 items, List.flatMap_map]
      rw [visited_sequence, reached, nodes_sequence, List.filter_flatMap, List.map_flatMap, parts]
      refine List.flatMap_congr ?_
      rintro ⟨item, i⟩ member
      have here : items[i]? = some item := List.mk_mem_zipIdx_iff_getElem?.mp member
      have present := List.mem_of_getElem? here
      rw [ih item present (inside item present), reached,
        map_snd_filter_within _ _ (reaches choice · (.sequence items))]
      simp [reaches, here]
  | mapping fields ih =>
      have inside := keyedFields_iff.mp keyed.2
      -- A field that was taken out keeps its turn among the others, with nothing to visit in it.
      rw [visited_mapping, reached, nodes_mapping, List.filter_cons_of_pos rfl, List.map_cons, List.filter_flatMap,
        List.map_flatMap, Fields.flatMap_of_sublist keyed.1 (removes fields)]
      refine congrArg _ (List.flatMap_congr ?_)
      rintro ⟨name, value⟩ member
      have here := (Fields.get?_eq_some_iff keyed.1).mpr member
      rw [map_snd_filter_within _ _ (reaches choice · (.mapping fields))]
      by_cases kept : name ∈ (choice.keep fields).keys
      · rw [if_pos kept, ih _ member (inside _ member), reached]
        simp [reaches, here, kept]
      · simp [reaches, kept]
  | _ => simp [visited, reached, nodes]

theorem length_nodes_sequence (items : List Tree) :
    (nodes (.sequence items)).length = (items.map fun item => item.nodes.length).sum := by
  rw [nodes_sequence, List.length_flatMap]
  conv => rhs; rw [← List.zipIdx_map_fst 0 items, List.map_map]
  simp [Function.comp_def]

theorem length_nodes_mapping (fields : Fields Tree) :
    (nodes (.mapping fields)).length = (fields.map fun field => field.2.nodes.length).sum + 1 := by
  simp [nodes_mapping, List.length_flatMap]

theorem length_nodes_topDown (tree : Tree) : (topDown choice tree).nodes.length = (visited choice tree).length := by
  induction tree using topDownInduction choice with
  | scalar tree notSequence notMapping => cases tree <;> simp_all [visited, topDown, nodes]
  | sequence items ih =>
      rw [topDown_sequence, visited_sequence, length_nodes_sequence, List.map_map, List.length_flatMap]
      exact congrArg List.sum (List.map_congr_left ih)
  | mapping fields ih =>
      rw [topDown_mapping, visited_mapping, length_nodes_mapping, List.map_map, List.length_cons, List.length_flatMap]
      exact congrArg (List.sum · + 1) (List.map_congr_left ih)

end

section

variable {m : Type → Type} [Monad m] [LawfulMonad m] {hook : Hook m}
  {pick : Option String → (fields : Fields Tree) → Reduced fields} {note : Option String → Fields Tree → m Unit}

def placeless (fields : Fields Tree) : Fields Tree := fields.filter fun field => field.1 ∉ positionFields

/-- No field on the way to a place says where a node stood or was taken out when the hook was asked about its node. -/
def IsReached (pick : Option String → (fields : Fields Tree) → Reduced fields) (tree : Tree)
    (place : List Selector) :
    Prop :=
  ∀ above name below fields, place = above ++ .name name :: below → tree.at? above = some (.mapping fields) →
    name ∉ positionFields ∧ name ∈ (pick (kindOf fields) (placeless fields)).1.keys

theorem picking_sublist (removes : ∀ kind fields, (pick kind fields).1.Sublist fields) (fields : Fields Tree) :
    ((Choice.picking pick).keep fields).Sublist fields :=
  (removes _ _).trans List.filter_sublist

theorem isOpen_picking_iff (removes : ∀ kind fields, (pick kind fields).1.Sublist fields) {tree : Tree}
    {place : List Selector} : IsOpen (.picking pick) tree place ↔ IsReached pick tree place := by
  constructor
  · intro isOpen above name below fields split found
    have kept := isOpen above name below fields split found
    obtain ⟨field, picked, rfl⟩ := List.mem_map.mp kept
    have placed := (List.mem_filter.mp ((removes _ _).subset picked)).2
    exact ⟨of_decide_eq_true placed, kept⟩
  · intro isReached above name below fields split found
    exact (isReached above name below fields split found).2

theorem clean_eq_forM (notes : ∀ kind fields, hook kind fields = (fun _ => pick kind fields) <$> note kind fields)
    (tree : Tree) : clean hook tree = (fun _ => topDown (.picking pick) tree) <$>
      forM (visited (.picking pick) tree) (fun fields => note (kindOf fields) (placeless fields)) := by
  refine walk_eq_forM ?_ tree
  intro fields
  rw [cleanFields, notes, Functor.map_map, kindOf_placeless]
  rfl

/-- A hook that picks some of the fields and does something besides does it at the nodes on whose way nothing was taken
out, at each of them once and before those inside it. It is given the kind and the fields of the node as they stand in
the tree, without the positions, and as many nodes as it is asked about are left in the end. -/
theorem clean_calls (notes : ∀ kind fields, hook kind fields = (fun _ => pick kind fields) <$> note kind fields)
    (removes : ∀ kind fields, (pick kind fields).1.Sublist fields) {tree : Tree} (keyed : tree.WellKeyed) :
    ∃ asked : List (List Selector × Fields Tree),
      asked.Sublist tree.nodes ∧ (asked.map Prod.fst).Nodup ∧
      (∀ place fields, (place, fields) ∈ asked ↔
        tree.at? place = some (.mapping fields) ∧ IsReached pick tree place) ∧
      clean hook tree = (fun _ => topDown (.picking pick) tree) <$>
        forM asked (fun node => note (kindOf node.2) (placeless node.2)) ∧
      (topDown (.picking pick) tree).nodes.length = asked.length := by
  have seen := visited_eq_reached (picking_sublist removes) keyed
  refine ⟨reached (.picking pick) tree, List.filter_sublist, ?_, ?_, ?_, ?_⟩
  · exact (nodup_places keyed).sublist (List.filter_sublist.map Prod.fst)
  · intro place fields
    rw [mem_reached_iff keyed, isOpen_picking_iff removes]
  · rw [clean_eq_forM notes, seen, List.forM_map]
  · rw [length_nodes_topDown, seen, List.length_map]

end

/-- A call with a note on the name that is called, below two sequences, and with a place that is a node itself. -/
def sampleNest : Tree :=
  .mapping [("type", .text "Call"), ("loc", .mapping [("line", .integer 1)]),
    ("of", .sequence [.sequence [.mapping [("type", .text "Name"), ("note", .mapping [("said", .null)]),
      ("end", .integer 1)]]]), ("with", .mapping [])]

def withoutNote (_ : Option String) (fields : Fields Tree) : Reduced fields := .without fields ["note"]

def record (kind : Option String) (fields : Fields Tree) : StateM (List (Option String × Fields Tree)) Unit :=
  modify (· ++ [(kind, fields)])

def recording : Hook (StateM (List (Option String × Fields Tree))) := fun kind fields => do
  record kind fields
  pure (withoutNote kind fields)

theorem clean_calls_sampleNest :
    (∃ asked : List (List Selector × Fields Tree), asked.Sublist sampleNest.nodes ∧ asked.length = 3 ∧
      clean recording sampleNest = (fun _ => topDown (.picking withoutNote) sampleNest) <$>
        forM asked (fun node => record (kindOf node.2) (placeless node.2))) ∧
    ((clean recording sampleNest).run []).2.map Prod.fst = [some "Call", some "Name", none] := by
  have notes : ∀ kind fields, recording kind fields = (fun _ => withoutNote kind fields) <$> record kind fields :=
    fun _ _ => rfl
  have removes : ∀ kind fields, (withoutNote kind fields).1.Sublist fields := fun _ _ => List.filter_sublist
  have keyed : sampleNest.WellKeyed := by
    simp [sampleNest, WellKeyed, WellKeyed.keyedFields, WellKeyed.keyedItems, Fields.Distinct, Fields.keys]
  obtain ⟨asked, ordered, _, _, calls, count⟩ := clean_calls notes removes keyed
  refine ⟨⟨asked, ordered, ?_, calls⟩, ?_⟩
  · rw [← count]
    cbv
  · cbv

end FormatAudit.Tree
