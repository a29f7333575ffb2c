import FormatAudit.Fixture
import FormatAudit.Proofs.Files.Path
import FormatAudit.Proofs.Text.Utf8

/-! Directories as a file system keeps them. Their fixtures have distinct file names, which are the names
that the entries have. -/

namespace FormatAudit

namespace FileTree

/-- A name stands for one entry of its directory; it is not empty and has no slash in it. -/
structure ProperNames (entries : List (FileName × FileTree)) : Prop where
  distinct : (entries.map Prod.fst).Nodup
  nonempty : ∀ entry ∈ entries, entry.1 ≠ []
  slashless : ∀ entry ∈ entries, 47 ∉ entry.1

/-- It can be told what an entry is, or nobody asks because its name is no text. -/
def IsKnown (entry : FileName × FileTree) : Prop :=
  ∀ name cause, Text.ofUtf8 entry.1 = .ok name → entry.2 ≠ .unknown cause

/-- A tree as a file system keeps it: the names are proper in every directory. -/
inductive Proper : FileTree → Prop
  | file (content) : Proper (.file content)
  | link (target) : Proper (.link target)
  | unknown (cause) : Proper (.unknown cause)
  | directory {entries} (refusals) : ProperNames entries → (∀ entry ∈ entries, Proper entry.2) →
      Proper (.directory entries refusals)

theorem mem_of_entry?_eq_some {entries : List (FileName × FileTree)} {name : FileName} {node : FileTree}
    (found : entry? entries name = some node) : (name, node) ∈ entries := by
  induction entries with
  | nil => simp [ entry?] at found
  | cons entry rest ih =>
      obtain ⟨key, other⟩ := entry
      rw [ entry?] at found
      split at found
      · simp_all
      · exact List.mem_cons_of_mem _ (ih found)

theorem Proper.of_entry?_eq_some {entries : List (FileName × FileTree)} {refusals : Refusals} {name : FileName}
    {node : FileTree} (proper : (FileTree.directory entries refusals).Proper)
      (found : entry? entries name = some node) :
    node.Proper := by
  cases proper with
  | directory _ _ inside => exact inside _ (mem_of_entry?_eq_some found)

theorem Proper.follow {reach : Reach} {links : Nat} {current : FileTree} {above : List FileTree} {way : List String}
    {tree : FileTree} (proper : current.Proper) (properAbove : ∀ parent ∈ above, parent.Proper)
    (properRoot : ∀ root, reach = .anywhere root → root.Proper)
    (found : FileTree.follow reach links current above way = .ok tree) : tree.Proper := by
  fun_induction FileTree.follow reach links current above way
  case case1 => exact Except.ok.inj found ▸ proper
  case case3 ih => exact ih proper properAbove found
  case case4 parent above _ ih =>
      obtain ⟨first, higher⟩ := List.forall_mem_cons.mp properAbove
      exact ih first higher found
  case case5 root reaches _ ih => exact ih proper properAbove (reaches ▸ found)
  case case11 root reaches ih => exact ih (properRoot root reaches) (by simp) (reaches ▸ found)
  case case13 ih => exact ih proper properAbove found
  case case14 entered ih =>
      refine ih (proper.of_entry?_eq_some entered) ?_ found
      exact List.forall_mem_cons.mpr ⟨proper, properAbove⟩
  all_goals cases found

end FileTree

namespace FileSystem

def Proper (files : FileSystem) : Prop := files.root.Proper

theorem proper_of_descend {node : FileTree} {above : List FileTree} {way : List FileName}
    {place : FileTree × List FileTree} (proper : node.Proper) (properAbove : ∀ parent ∈ above, parent.Proper)
    (found : descend node above way = some place) : place.1.Proper ∧ ∀ parent ∈ place.2, parent.Proper := by
  induction way generalizing node above with
  | nil =>
      obtain rfl := Option.some.inj found
      exact ⟨proper, properAbove⟩
  | cons name rest ih =>
      cases node with
      | directory entries refusals =>
          obtain ⟨inner, entered, found⟩ := Option.bind_eq_some_iff.mp found
          exact ih (proper.of_entry?_eq_some entered) (List.forall_mem_cons.mpr ⟨proper, properAbove⟩) found
      | _ => cases found

theorem Proper.follow {files : FileSystem} {absolute : Bool} {way : List String} {tree : FileTree}
    (proper : files.Proper) (found : files.follow absolute way = .ok tree) : tree.Proper := by
  obtain ⟨place, started, found⟩ := bind_eq_ok_iff.mp found
  have inside : place.1.Proper ∧ ∀ parent ∈ place.2, parent.Proper := by
    unfold start at started
    split at started
    · obtain rfl := Except.ok.inj started
      exact ⟨proper, by simp⟩
    · split at started
      · rename_i place' descended
        obtain rfl := Except.ok.inj started
        exact proper_of_descend proper (by simp) descended
      · cases started
  refine FileTree.Proper.follow inside.1 inside.2 ?_ found
  rintro root same
  cases same
  exact proper

theorem openPath_eq_ok {files : FileSystem} {path : Path} {tree : FileTree} (opened : files.openPath path = .ok tree) :
    files.follow path.absolute path.components = .ok tree ∧
      ∃ entries refusals, tree = .directory entries refusals := by
  unfold openPath at opened
  split at opened
  · cases opened
  · split at opened
    · cases opened
    · obtain ⟨found, followed, shape⟩ := bind_eq_ok_iff.mp opened
      split at shape
      · obtain rfl := Except.ok.inj shape
        exact ⟨followed, _, _, rfl⟩
      · cases shape
      · cases shape

theorem openDirectory_eq_ok {files : FileSystem} {s : String} {tree : FileTree}
    (opened : files.openDirectory s = .ok tree) : files.openPath (Path.ofText s) = .ok tree := by
  unfold openDirectory at opened
  split at opened
  · cases opened
  · exact opened

theorem Proper.openDirectory {files : FileSystem} {s : String} {tree : FileTree} (proper : files.Proper)
    (opened : files.openDirectory s = .ok tree) : tree.Proper :=
  proper.follow (openPath_eq_ok (openDirectory_eq_ok opened)).1

/-- A directory can be opened and listed to its end, and it can be told what each entry is whose name is a text. -/
structure Lists (files : FileSystem) (dir : String) (entries : List (FileName × FileTree)) : Prop where
  opened : ∃ refusals, files.openDirectory dir = .ok (.directory entries refusals) ∧ refusals.listing = none
  known : ∀ entry ∈ entries, FileTree.IsKnown entry

end FileSystem

namespace Fixture

def nameIn? (entry : FileName × FileTree) : Option String :=
  match Text.ofUtf8 entry.1, entry.2 with
  | .ok name, .file _ => if isFixtureName name then some name else none
  | _, _ => none

theorem nameIn?_eq_some_iff {entry : FileName × FileTree} {name : String} : nameIn? entry = some name ↔
    Text.ofUtf8 entry.1 = .ok name ∧ isFixtureName name = true ∧ ∃ content, entry.2 = .file content := by
  unfold nameIn?
  split
  · rename_i text content read node
    simp only [read, node, Option.ite_none_right_eq_some, Option.some.injEq, Except.ok.injEq, FileTree.file.injEq,
      exists_eq', and_true]
    constructor
    · rintro ⟨fits, rfl⟩
      exact ⟨rfl, fits⟩
    · rintro ⟨rfl, fits⟩
      exact ⟨fits, rfl⟩
  · rename_i other
    simp only [reduceCtorEq, false_iff]
    rintro ⟨read, _, content, node⟩
    exact other name content read node

theorem nameOf?_eq_ok_iff {entry : FileName × FileTree} {name? : Option String} :
    nameOf? entry = .ok name? ↔ FileTree.IsKnown entry ∧ nameIn? entry = name? := by
  unfold nameOf? nameIn? FileTree.IsKnown
  cases read : Text.ofUtf8 entry.1 with
  | error cause => simp
  | ok text => cases node : entry.2 <;> simp [FileTree.isFile, bind, Except.bind]

theorem names_map_ok_eq_ok_iff {entries : List (FileName × FileTree)} {found : List String} :
    names (entries.map .ok) = .ok found ↔
      (∀ entry ∈ entries, FileTree.IsKnown entry) ∧ entries.filterMap nameIn? = found := by
  induction entries generalizing found with
  | nil => simp [names]
  | cons entry rest ih =>
      have whole : (entry :: rest).filterMap nameIn? = (nameIn? entry).toList ++ rest.filterMap nameIn? := by
        cases found : nameIn? entry <;> simp [found]
      rw [List.map_cons, names, List.forall_mem_cons, whole]
      simp only [bind_eq_ok_iff, Except.ok.injEq, nameOf?_eq_ok_iff, ih]
      constructor
      · rintro ⟨_, rfl, _, ⟨known, rfl⟩, _, ⟨others, rfl⟩, rfl⟩
        exact ⟨⟨known, others⟩, rfl⟩
      · rintro ⟨⟨known, others⟩, rfl⟩
        exact ⟨_, rfl, _, ⟨known, rfl⟩, _, ⟨others, rfl⟩, rfl⟩

theorem error_notMem_of_names_eq_ok {items : List (Except SystemError (FileName × FileTree))} {found : List String}
    (listed : names items = .ok found) (cause : SystemError) : .error cause ∉ items := by
  induction items generalizing found with
  | nil => exact List.not_mem_nil
  | cons item rest ih =>
      rw [names] at listed
      obtain ⟨entry, rfl, named⟩ := bind_eq_ok_iff.mp listed
      obtain ⟨name?, _, others⟩ := bind_eq_ok_iff.mp named
      obtain ⟨more, later, _⟩ := bind_eq_ok_iff.mp others
      rw [List.mem_cons, not_or]
      exact ⟨by simp, ih later⟩

theorem names_listing_eq_ok_iff {entries : List (FileName × FileTree)} {refusals : Refusals} {found : List String} :
    names (FileTree.directory entries refusals).listing = .ok found ↔ refusals.listing = none ∧
      (∀ entry ∈ entries, FileTree.IsKnown entry) ∧ entries.filterMap nameIn? = found := by
  rw [FileTree.listing]
  cases broken : refusals.listing with
  | none => simp [names_map_ok_eq_ok_iff]
  | some stop =>
      simp only [reduceCtorEq, false_and, iff_false]
      intro listed
      exact error_notMem_of_names_eq_ok listed stop.2 (by simp)

theorem namesIn_eq_ok_iff {files : FileSystem} {dir : String} {found : List String} :
    namesIn files dir = .ok found ↔ ∃ entries, files.Lists dir entries ∧ entries.filterMap nameIn? = found := by
  rw [namesIn, bind_eq_ok_iff]
  constructor
  · rintro ⟨directory, opened, listed⟩
    obtain ⟨_, entries, refusals, rfl⟩ := FileSystem.openPath_eq_ok (FileSystem.openDirectory_eq_ok opened)
    obtain ⟨whole, known, rfl⟩ := names_listing_eq_ok_iff.mp listed
    exact ⟨entries, ⟨⟨refusals, opened, whole⟩, known⟩, rfl⟩
  · rintro ⟨entries, ⟨⟨refusals, opened, whole⟩, known⟩, rfl⟩
    exact ⟨_, opened, names_listing_eq_ok_iff.mpr ⟨whole, known, rfl⟩⟩

theorem enumerate_eq_ok_iff {files : FileSystem} {dir : String} {paths : List String} :
    enumerate files dir = .ok paths ↔ ∃ entries, files.Lists dir entries ∧
      paths = (entries.filterMap nameIn?).map (Path.join dir) := by
  simp only [enumerate, bind_eq_ok_iff, mapError_eq_ok_iff, namesIn_eq_ok_iff, Except.ok.injEq]
  constructor
  · rintro ⟨_, ⟨entries, lists, rfl⟩, rfl⟩
    exact ⟨entries, lists, rfl⟩
  · rintro ⟨entries, lists, rfl⟩
    exact ⟨_, ⟨entries, lists, rfl⟩, rfl⟩

theorem enumerate_eq_error {files : FileSystem} {dir : String} (unlisted : ∀ entries, ¬files.Lists dir entries) :
    ∃ cause, enumerate files dir = .error (.io dir cause) := by
  cases listed : namesIn files dir with
  | ok found =>
      obtain ⟨entries, lists, _⟩ := namesIn_eq_ok_iff.mp listed
      exact absurd lists (unlisted entries)
  | error cause =>
      refine ⟨cause, ?_⟩
      rw [enumerate, listed]
      rfl

theorem slashless_of_ofUtf8 {bytes : FileName} {name : String} (read : Text.ofUtf8 bytes = .ok name)
    (slashless : 47 ∉ bytes) : '/' ∉ name.toList := by
  intro slash
  apply slashless
  rw [← Text.toUtf8_of_ofUtf8 read, Text.toUtf8_eq_flatMap]
  exact List.mem_flatMap.mpr ⟨'/', slash, by decide⟩

theorem plain_of_nameIn? {entries : List (FileName × FileTree)} (proper : FileTree.ProperNames entries)
    {entry : FileName × FileTree} (member : entry ∈ entries) {name : String} (found : nameIn? entry = some name) :
    '/' ∉ name.toList ∧ name ≠ "" ∧ name ≠ "." ∧ name ≠ ".." := by
  obtain ⟨read, fits, _⟩ := nameIn?_eq_some_iff.mp found
  simp only [isFixtureName, Bool.and_eq_true, decide_eq_true_eq] at fits
  refine ⟨slashless_of_ofUtf8 read (proper.slashless entry member), ?_, ?_, ?_⟩
  · rintro rfl
    exact proper.nonempty entry member (Text.toUtf8_of_ofUtf8 read).symm
  · rintro rfl
    exact fits.1.2 (by decide)
  · rintro rfl
    exact fits.1.2 (by decide)

theorem fileName_join_of_nameIn? {entries : List (FileName × FileTree)} (proper : FileTree.ProperNames entries)
    (dir : String) {entry : FileName × FileTree} (member : entry ∈ entries) {name : String}
    (found : nameIn? entry = some name) : Path.fileName (Path.join dir name) = name := by
  obtain ⟨slashless, plain⟩ := plain_of_nameIn? proper member found
  exact Path.fileName_join dir slashless plain

theorem properNames_of_lists {files : FileSystem} (proper : files.Proper) {dir : String}
    {entries : List (FileName × FileTree)} (lists : files.Lists dir entries) : FileTree.ProperNames entries := by
  obtain ⟨refusals, opened, _⟩ := lists.opened
  cases proper.openDirectory opened with
  | directory _ names _ => exact names

theorem nodup_fileNames {files : FileSystem} (proper : files.Proper) {dir : String} {paths : List String}
    (listed : enumerate files dir = .ok paths) : (paths.map Path.fileName).Nodup := by
  obtain ⟨entries, lists, rfl⟩ := enumerate_eq_ok_iff.mp listed
  have names := properNames_of_lists proper lists
  have same : ((entries.filterMap nameIn?).map (Path.join dir)).map Path.fileName = entries.filterMap nameIn? := by
    rw [List.map_map]
    conv => rhs; rw [← List.map_id (entries.filterMap nameIn?)]
    apply List.map_congr_left
    intro name present
    obtain ⟨entry, member, found⟩ := List.mem_filterMap.mp present
    exact fileName_join_of_nameIn? names dir member found
  rw [same, List.Nodup, List.pairwise_filterMap]
  refine (List.pairwise_map.mp names.distinct).imp ?_
  rintro entry other different name found _ foundOther rfl
  exact different (Text.ofUtf8_inj (nameIn?_eq_some_iff.mp found).1 (nameIn?_eq_some_iff.mp foundOther).1)

end Fixture

end FormatAudit
