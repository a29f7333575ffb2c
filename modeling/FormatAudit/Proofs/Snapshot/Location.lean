import FormatAudit.Proofs.Files.Path
import FormatAudit.Snapshot.Directory
import Mathlib.Data.List.Induction

/-! Where a directory of snapshots lies. Its path has the components of the directory it was made from,
below the current one if that is relative. In the current directory of a system such a path stays what it is
when a store is made from it. -/

namespace FormatAudit.SnapshotDirectory

/-- Where a store lies. Two stores are the same if they lie in one place, however their paths are written. -/
def location (store : SnapshotDirectory) : Path := Path.ofText store.path

/-- A component that is neither empty nor a dot. -/
structure IsStep (name : String) : Prop where
  slashless : '/' ∉ name.toList
  plain : Path.isPlain name.toList = true

theorem IsStep.nonempty {name : String} (step : IsStep name) : name.toList ≠ [] := by
  intro empty
  have plain := step.plain
  rw [empty] at plain
  cases plain

theorem IsStep.ne_dot {name : String} (step : IsStep name) : name ≠ "." := by
  rintro rfl
  exact absurd step.plain (by decide)

theorem isStep_of_mem {s name : String} (member : name ∈ (Path.ofText s).components.filter (· ≠ ".")) :
    IsStep name := by
  obtain ⟨member, named⟩ := List.mem_filter.mp member
  obtain ⟨slashless, plain⟩ := Path.slashless_and_plain_of_mem member (of_decide_eq_true named)
  exact ⟨slashless, plain⟩

theorem filter_steps {names : List String} (steps : ∀ name ∈ names, IsStep name) : names.filter
    (· ≠ ".") = names :=
  List.filter_eq_self.mpr fun name member => decide_eq_true (steps name member).ne_dot

section

variable {base name : String}

theorem push_of_slash (slash : base.toList.getLast? = some '/') : push base name = base ++ name := if_pos slash

theorem push_of_open (slashless : base.toList.getLast? ≠ some '/') : push base name = base ++ "/" ++ name :=
  if_neg slashless

theorem push_nothing_of_slash (slash : base.toList.getLast? = some '/') : push base "" = base :=
  (push_of_slash slash).trans String.append_empty

theorem push_ne_empty (name : String) (below : base ≠ "") : push base name ≠ "" := by
  unfold push
  split <;> simp [below]

theorem getLast?_push (step : IsStep name) : (push base name).toList.getLast? ≠ some '/' := by
  intro slash
  have last : name.toList.getLast? = some '/' := by
    unfold push at slash
    split at slash <;> rwa [String.toList_append, List.getLast?_append_of_ne_nil _ step.nonempty] at slash
  exact step.slashless (List.mem_of_getLast? last)

theorem push_eq_join (below : base ≠ "") (slashless : '/' ∉ name.toList) :
    push base name = Path.join base name := by
  simp [push, Path.join, Path.head?_ne_of_slashless slashless, below]

theorem ofText_push (below : base ≠ "") (step : IsStep name) : Path.ofText (push base name) =
    ⟨(Path.ofText base).absolute, (Path.ofText base).components ++ [name]⟩ := by
  rw [push_eq_join below step.slashless, Path.ofText_join base step.slashless step.plain]

theorem ofText_push_nothing (below : base ≠ "") : Path.ofText (push base "") = Path.ofText base := by
  obtain ⟨c, rest, chars⟩ := List.exists_cons_of_ne_nil fun none => below (String.toList_inj.mp none)
  by_cases slash : base.toList.getLast? = some '/'
  · rw [push_nothing_of_slash slash]
  · rw [push_of_open slash, String.append_empty]
    have shape : Path.pieces (base ++ "/").toList = Path.pieces base.toList ++ [[]] := by
      rw [String.toList_append]
      exact Path.pieces_append_slash base.toList []
    have head : (Path.pieces base.toList ++ [[]]).head? = (Path.pieces base.toList).head? :=
      List.head?_append_of_ne_nil _ (Path.pieces_ne_nil _)
    simp only [Path.ofText, shape, head, List.filter_append]
    simp [chars, Path.isPlain]

theorem push_push_nothing : push (push base "") name = push base name := by
  by_cases slash : base.toList.getLast? = some '/'
  · rw [push_nothing_of_slash slash]
  · rw [push_of_open slash, push_of_open slash, String.append_empty, push_of_slash (by simp)]

theorem getLast?_push_nothing : (push base "").toList.getLast? = some '/' := by
  by_cases slash : base.toList.getLast? = some '/'
  · rw [push_nothing_of_slash slash, slash]
  · simp [push_of_open slash]

theorem getLast?_foldl_push {names : List String} (steps : ∀ name ∈ names, IsStep name) (below : names ≠ []) :
    (names.foldl push base).toList.getLast? ≠ some '/' := by
  rw [← List.dropLast_append_getLast below, List.foldl_append]
  exact getLast?_push (steps _ (List.getLast_mem below))

theorem foldl_push {names : List String} (steps : ∀ name ∈ names, IsStep name) (below : base ≠ "") :
    names.foldl push base ≠ "" ∧ Path.ofText (names.foldl push base) =
      ⟨(Path.ofText base).absolute, (Path.ofText base).components ++ names⟩ := by
  induction names generalizing base with
  | nil => simp [below]
  | cons name rest ih =>
      obtain ⟨step, steps⟩ := List.forall_mem_cons.mp steps
      have whole := ih steps (push_ne_empty name below)
      rw [ofText_push below step, List.append_assoc] at whole
      exact whole

end

section

variable {current dir : String}

/-- A path without components. Two slashes are another root than one. -/
def IsRoot (root : String) : Prop := root = "/" ∨ root = "//"

theorem rootOf_of_absolute (current : String) (rooted : (Path.ofText dir).absolute = true) :
    IsRoot (rootOf current dir) := by
  obtain ⟨rest, chars⟩ := List.head?_eq_some_iff.mp (beq_iff_eq.mp rooted)
  rw [rootOf, chars, IsRoot]
  split <;> simp_all

theorem rootOf_of_relative (relative : (Path.ofText dir).absolute = false) : rootOf current dir = current := by
  simp only [Path.ofText, beq_eq_false_iff_ne] at relative
  unfold rootOf
  split <;> simp_all

theorem ofText_rootOf (rooted : (Path.ofText current).absolute = true) (dir : String) : rootOf current dir ≠ "" ∧
    Path.ofText (rootOf current dir) =
      ⟨true, if (Path.ofText dir).absolute then [] else (Path.ofText current).components⟩ := by
  by_cases absolute : (Path.ofText dir).absolute = true
  · -- The root of the path itself has no components, be it one slash or two.
    rw [if_pos absolute]
    rcases rootOf_of_absolute current absolute with root | root <;> rw [root] <;> decide
  · rw [rootOf_of_relative (eq_false_of_ne_true absolute), if_neg absolute, ← rooted]
    refine ⟨?_, rfl⟩
    rintro rfl
    cases rooted

theorem location_ofPath (rooted : (Path.ofText current).absolute = true) (given : dir ≠ "") :
    (ofPath current dir).location =
      ⟨true, (if (Path.ofText dir).absolute then [] else (Path.ofText current).components) ++
        (Path.ofText dir).components.filter (· ≠ ".")⟩ := by
  obtain ⟨below, root⟩ := ofText_rootOf rooted dir
  obtain ⟨nonempty, whole⟩ := foldl_push (fun _ => isStep_of_mem (s := dir)) below
  rw [root] at whole
  rw [location, ofPath, if_neg given, absolute]
  split
  · rw [ofText_push_nothing nonempty, whole]
  · exact whole

theorem location_ofPath_of_absolute (rooted : (Path.ofText current).absolute = true)
    (absolute : (Path.ofText dir).absolute = true) : (ofPath current dir).location = Path.ofText dir := by
  have given : dir ≠ "" := by
    rintro rfl
    cases absolute
  have noDots : (Path.ofText dir).components.filter (· ≠ ".") = (Path.ofText dir).components := by
    refine List.filter_eq_self.mpr fun name member => decide_eq_true ?_
    rintro rfl
    exact Path.dot_notMem_of_absolute absolute member
  rw [location_ofPath rooted given, if_pos absolute, noDots, List.nil_append, ← absolute]

end

/-- The text of a path from the root, with one slash between any two components and no dot among them. A slash may stand
at the end. -/
inductive IsSettled : String → Prop
  | opened {root : String} {names : List String} (rooted : IsRoot root)
      (steps : ∀ name ∈ names, IsStep name) : IsSettled (root ++ "/".intercalate names)
  | closed {root : String} {names : List String} (rooted : IsRoot root)
      (steps : ∀ name ∈ names, IsStep name) (below : names ≠ []) :
        IsSettled (root ++ "/".intercalate names ++ "/")

section

variable {root : String} {names : List String}

theorem getLast?_root (rooted : IsRoot root) : root.toList.getLast? = some '/' := by
  rcases rooted with rfl | rfl <;> decide

theorem foldl_push_root (rooted : IsRoot root) (steps : ∀ name ∈ names, IsStep name) :
    names.foldl push root = root ++ "/".intercalate names := by
  induction names using List.reverseRecOn with
  | nil => simp
  | append_singleton names name ih =>
      -- From the end, since whether a slash is missing depends on what was pushed last.
      have steps : ∀ name ∈ names, IsStep name := fun name member => steps name (List.mem_append_left _ member)
      rw [List.foldl_append, List.foldl_cons, List.foldl_nil]
      by_cases below : names = []
      · subst below
        rw [List.foldl_nil, push_of_slash (getLast?_root rooted), List.nil_append, String.intercalate_singleton]
      · rw [push_of_open (getLast?_foldl_push steps below), ih steps,
          String.intercalate_append_of_ne_nil below (List.cons_ne_nil name []), String.intercalate_singleton]
        simp only [String.append_assoc]

theorem isSettled_root (rooted : IsRoot root) : IsSettled root := by
  have bare : IsSettled (root ++ "/".intercalate []) := .opened rooted (by simp)
  rwa [String.intercalate_nil, String.append_empty] at bare

theorem isSettled_iff {path : String} : IsSettled path ↔ ∃ (root : String) (names : List String),
    IsRoot root ∧ (∀ name ∈ names, IsStep name) ∧
      (path = names.foldl push root ∨ path = push (names.foldl push root) "") := by
  constructor
  · rintro (⟨rooted, steps⟩ | ⟨rooted, steps, below⟩)
    · exact ⟨_, _, rooted, steps, .inl (foldl_push_root rooted steps).symm⟩
    · refine ⟨_, _, rooted, steps, .inr ?_⟩
      rw [push_of_open (getLast?_foldl_push steps below), foldl_push_root rooted steps, String.append_empty]
  · rintro ⟨root, names, rooted, steps, rfl | rfl⟩
    · rw [foldl_push_root rooted steps]
      exact .opened rooted steps
    · by_cases below : names = []
      · subst below
        rw [List.foldl_nil, push_nothing_of_slash (getLast?_root rooted)]
        exact isSettled_root rooted
      · rw [push_of_open (getLast?_foldl_push steps below), foldl_push_root rooted steps, String.append_empty]
        exact .closed rooted steps below

theorem isSettled_push {path name : String} (settled : IsSettled path) (step : IsStep name) :
    IsSettled (push path name) := by
  obtain ⟨root, names, rooted, steps, shape⟩ := isSettled_iff.mp settled
  have more : push path name = (names ++ [name]).foldl push root := by
    rcases shape with rfl | rfl
    · simp
    · simp [push_push_nothing]
  refine isSettled_iff.mpr ⟨root, names ++ [name], rooted, ?_, .inl more⟩
  exact List.forall_mem_append.mpr ⟨steps, List.forall_mem_singleton.mpr step⟩

theorem isSettled_push_nothing {path : String} (settled : IsSettled path) : IsSettled (push path "") := by
  obtain ⟨root, names, rooted, steps, shape⟩ := isSettled_iff.mp settled
  refine isSettled_iff.mpr ⟨root, names, rooted, steps, .inr ?_⟩
  rcases shape with rfl | rfl
  · rfl
  · exact push_push_nothing

end

section

variable {current : String}

theorem isSettled_absolute {dir : String} (settled : IsSettled (rootOf current dir)) :
    IsSettled (absolute current dir) := by
  have below : IsSettled (((Path.ofText dir).components.filter (· ≠ ".")).foldl push (rootOf current dir)) :=
    List.foldlRecOn _ push settled fun _ settled _ member => isSettled_push settled (isStep_of_mem member)
  rw [absolute]
  split
  · exact isSettled_push_nothing below
  · exact below

/-- A path starts with just a root if no slash follows it. -/
def StartsAt (root path : String) : Prop := ∃ rest, path.toList = root.toList ++ rest ∧ rest.head? ≠ some '/'

theorem rootOf_of_startsAt {root path : String} (rooted : IsRoot root) (start : StartsAt root path) :
    rootOf current path = root := by
  obtain ⟨rest, chars, apart⟩ := start
  rw [rootOf, chars]
  rcases rooted with rfl | rfl <;> cases rest <;> simp_all

theorem startsAt_push {root path name : String} (rooted : IsRoot root) (start : StartsAt root path)
    (slashless : '/' ∉ name.toList) : StartsAt root (push path name) := by
  obtain ⟨rest, chars, apart⟩ := start
  by_cases below : rest = []
  · subst below
    have same : path = root := String.toList_inj.mp (by rw [chars, List.append_nil])
    rw [same, push_of_slash (getLast?_root rooted)]
    exact ⟨name.toList, String.toList_append, Path.head?_ne_of_slashless slashless⟩
  · have first : ∀ more, (rest ++ more).head? ≠ some '/' := fun more => by
      rwa [List.head?_append_of_ne_nil _ below]
    unfold push
    split
    · exact ⟨rest ++ name.toList, by simp [chars], first _⟩
    · exact ⟨rest ++ '/' :: name.toList, by simp [chars], first _⟩

theorem absolute_of_settled {path : String} (settled : IsSettled path) : absolute current path = path := by
  obtain ⟨root, names, rooted, steps, shape⟩ := isSettled_iff.mp settled
  have below : root ≠ "" := by rcases rooted with rfl | rfl <;> decide
  have bare : (Path.ofText root).components = [] := by rcases rooted with rfl | rfl <;> decide
  obtain ⟨nonempty, whole⟩ := foldl_push steps below
  have start : StartsAt root (names.foldl push root) := by
    refine List.foldlRecOn names push ⟨[], (List.append_nil _).symm, by simp⟩ ?_
    exact fun _ start name member => startsAt_push rooted start (steps name member).slashless
  rcases shape with rfl | rfl
  · rw [absolute, whole, rootOf_of_startsAt rooted start, bare, List.nil_append, filter_steps steps]
    split
    · -- It is the bare root then, and gets no second slash.
      rename_i slash
      exact push_nothing_of_slash slash
    · rfl
  · rw [absolute, ofText_push_nothing nonempty, whole,
      rootOf_of_startsAt rooted (startsAt_push rooted start (by simp)),
      bare, List.nil_append, filter_steps steps, if_pos getLast?_push_nothing]

end

section

variable {current : String}

theorem isStep_directoryName : IsStep directoryName := ⟨by decide, by decide⟩

theorem location_ofFixtures (rooted : (Path.ofText current).absolute = true) (dir : String) :
    (ofFixtures current dir).location =
      ⟨true, (if (Path.ofText dir).absolute then [] else (Path.ofText current).components) ++
        (Path.ofText dir).components.filter (· ≠ ".") ++ [directoryName]⟩ := by
  have whole := Path.ofText_join dir isStep_directoryName.slashless isStep_directoryName.plain
  rw [ofFixtures, location_ofPath rooted (Path.join_ne_empty dir (by decide)), whole, List.filter_append,
    List.append_assoc]
  rfl

theorem absolute_location_iff (rooted : (Path.ofText current).absolute = true) {dir : String} :
    (ofPath current dir).location.absolute = true ↔ dir ≠ "" := by
  constructor
  · rintro found rfl
    cases found
  · intro given
    rw [location_ofPath rooted given]

theorem location_again (rooted : (Path.ofText current).absolute = true) (dir : String) :
    (ofPath current (ofPath current dir).path).location = (ofPath current dir).location := by
  by_cases given : dir = ""
  · subst given
    rfl
  · exact location_ofPath_of_absolute rooted ((absolute_location_iff rooted).mpr given)

theorem ofPath_of_settled {path : String} (settled : IsSettled path) : ofPath current path = ⟨path⟩ := by
  unfold ofPath
  split
  · rename_i empty
    rw [empty]
  · rw [absolute_of_settled settled]

theorem isSettled_absolute_of_absolute {dir : String} (rooted : (Path.ofText dir).absolute = true) :
    IsSettled (absolute current dir) :=
  isSettled_absolute (isSettled_root (rootOf_of_absolute _ rooted))

theorem ofPath_again (settled : IsSettled current) (dir : String) :
    ofPath current (ofPath current dir).path = ofPath current dir := by
  by_cases given : dir = ""
  · subst given
    rfl
  · have root : IsSettled (rootOf current dir) := by
      by_cases rooted : (Path.ofText dir).absolute = true
      · exact isSettled_root (rootOf_of_absolute _ rooted)
      · rwa [rootOf_of_relative (eq_false_of_ne_true rooted)]
    have made : ofPath current dir = ⟨absolute current dir⟩ := by rw [ofPath, if_neg given]
    rw [made]
    exact ofPath_of_settled (isSettled_absolute root)

theorem ofPath_dot : ofPath current "." = ⟨current⟩ := rfl

theorem isSettled_of_ofPath_again (rooted : (Path.ofText current).absolute = true)
    (again : ofPath current (ofPath current ".").path = ofPath current ".") : IsSettled current := by
  have given : current ≠ "" := by
    rintro rfl
    cases rooted
  rw [ofPath_dot, ofPath, if_neg given, SnapshotDirectory.mk.injEq] at again
  rw [← again]
  exact isSettled_absolute_of_absolute rooted

/-- A store lies at an absolute place exactly if it was not made from the empty path. One beside the
fixtures always does, and is called `__snapshots__`. To make a store from the path of another one changes
nothing: the two are the same, and their paths are the same to the letter exactly if the current directory
is settled, as a system gives it. -/
theorem locations (rooted : (Path.ofText current).absolute = true) :
    (∀ dir, (ofPath current dir).location.absolute = true ↔ dir ≠ "") ∧
    (∀ dir, (ofFixtures current dir).location.absolute = true ∧
      (ofFixtures current dir).location.components.getLast? = some directoryName) ∧
    (∀ dir, (ofPath current (ofPath current dir).path).location = (ofPath current dir).location ∧
      (ofPath current (ofFixtures current dir).path).location = (ofFixtures current dir).location) ∧
    ((∀ dir, ofPath current (ofPath current dir).path = ofPath current dir ∧
      ofPath current (ofFixtures current dir).path = ofFixtures current dir) ↔ IsSettled current) := by
  refine ⟨fun _ => absolute_location_iff rooted, ?_, ?_, ?_, ?_⟩
  · intro dir
    rw [location_ofFixtures rooted]
    exact ⟨rfl, List.getLast?_concat⟩
  · intro dir
    exact ⟨location_again rooted dir, location_again rooted _⟩
  · intro same
    -- The dot stands for the current directory as it is written.
    exact isSettled_of_ofPath_again rooted (same ".").1
  · intro settled dir
    exact ⟨ofPath_again settled dir, ofPath_again settled _⟩

end

/-- The current directory is a relative path with nothing in it, but a store that is made from it does not lie there. -/
theorem empty_path_kept : (Path.ofText "/home").absolute = true ∧ (Path.ofText "").absolute = false ∧
    (ofPath "/home" "").location = ⟨false, []⟩ ∧ (ofPath "/home" ".").location = ⟨true, ["home"]⟩ ∧
    (ofFixtures "/home" "").location = ⟨true, ["home", directoryName]⟩ := by
  decide

theorem locations_home : (Path.ofText "/home").absolute = true ∧ IsSettled "/home" ∧
    (ofPath "/home" "../a/./b//").path = "/home/../a/b/" ∧ (ofPath "/home" "../a/./b//").location.absolute = true ∧
    ofPath "/home" "/home/../a/b/" = ⟨"/home/../a/b/"⟩ := by
  have rooted : (Path.ofText "/home").absolute = true := by decide
  have written : "/" ++ "/".intercalate ["home"] = "/home" := by decide
  have steps : ∀ name ∈ ["home"], IsStep name := List.forall_mem_singleton.mpr ⟨by decide, by decide⟩
  have settled : IsSettled "/home" := written ▸ .opened (.inl rfl) steps
  have made : ofPath "/home" "../a/./b//" = ⟨"/home/../a/b/"⟩ := by decide
  obtain ⟨lies, _, _, again⟩ := locations rooted
  refine ⟨rooted, settled, congrArg path made, (lies _).mpr (by decide), ?_⟩
  have same := (again.mpr settled "../a/./b//").1
  rwa [made] at same

end FormatAudit.SnapshotDirectory
