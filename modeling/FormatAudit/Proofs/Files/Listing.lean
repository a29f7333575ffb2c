import FormatAudit.Proofs.Files.Loading
import FormatAudit.Proofs.Suite.Registration

/-! Listing a directory. The fixtures found are the visible files whose names are texts, less the definition of the
suite and the recorded snapshots, and each of them goes by the name that it has in the directory. -/

namespace FormatAudit.Fixture

/-- An entry of a directory that is a fixture of the given name. A snapshot is known by what follows the last dot of
its name. -/
structure IsFixture (entry : FileName × FileTree) (name : String) : Prop where
  named : entry.1 = Text.toUtf8 name
  file : ∃ content, entry.2 = .file content
  visible : name.toList.head? ≠ some '.'
  notDefinition : name ≠ "fmtspec.yaml"
  notSnapshot : ∀ stem ending, name.toList = stem ++ '.' :: ending → '.' ∉ ending → ending ≠ "snap".toList

theorem isFixtureName_iff {name : String} : isFixtureName name = true ↔ name.toList.head? ≠ some '.' ∧
    name ≠ "fmtspec.yaml" ∧
    ∀ stem ending, name.toList = stem ++ '.' :: ending → '.' ∉ ending → ending ≠ "snap".toList := by
  simp only [isFixtureName, Bool.and_eq_true, decide_eq_true_eq]
  constructor
  · rintro ⟨⟨noSnapshot, visible⟩, noDefinition⟩
    refine ⟨visible, noDefinition, ?_⟩
    rintro stem _ shape last rfl
    exact noSnapshot ((Path.extension?_eq_some_iff visible).mpr ⟨stem, shape, last⟩)
  · rintro ⟨visible, noDefinition, noSnapshot⟩
    refine ⟨⟨?_, visible⟩, noDefinition⟩
    intro found
    obtain ⟨stem, shape, last⟩ := (Path.extension?_eq_some_iff visible).mp found
    exact noSnapshot stem _ shape last rfl

theorem isFixture_iff {entry : FileName × FileTree} {name : String} :
    IsFixture entry name ↔ nameIn? entry = some name := by
  rw [nameIn?_eq_some_iff, isFixtureName_iff]
  constructor
  · rintro ⟨named, file, visible, noDefinition, noSnapshot⟩
    exact ⟨named ▸ Text.ofUtf8_toUtf8 name, ⟨visible, noDefinition, noSnapshot⟩, file⟩
  · rintro ⟨read, ⟨visible, noDefinition, noSnapshot⟩, file⟩
    exact ⟨(Text.toUtf8_of_ofUtf8 read).symm, file, visible, noDefinition, noSnapshot⟩

theorem names_sublist (entries : List (FileName × FileTree)) :
    ((entries.filterMap nameIn?).map Text.toUtf8).Sublist (entries.map Prod.fst) := by
  induction entries with
  | nil => exact .refl []
  | cons entry rest ih =>
      cases found : nameIn? entry with
      | none =>
          rw [List.filterMap_cons_none found]
          exact ih.cons _
      | some name =>
          rw [List.filterMap_cons_some found, List.map_cons, List.map_cons, (isFixture_iff.mpr found).named]
          exact ih.cons_cons _

section

variable {files : FileSystem} {dir : String} {entries : List (FileName × FileTree)}

/-- A directory that can be read is listed, whatever else lies in it. Each fixture in it is found once, in the
order of the entries, and its path leads to the name of its entry. That name is the one its units begin with and
its snapshot is recorded under, so fixtures are told apart by it. -/
theorem enumerate_lists (proper : FileTree.ProperNames entries) (lists : files.Lists dir entries) :
    ∃ found : List String, enumerate files dir = .ok (found.map (Path.join dir)) ∧
      (found.map Text.toUtf8).Sublist (entries.map Prod.fst) ∧
      (∀ name, name ∈ found ↔ ∃ entry ∈ entries, IsFixture entry name) ∧
      (∀ name ∈ found, Path.fileName? (Path.join dir name) = some name) ∧
      (found.map (Path.join dir)).Nodup ∧
      ∀ context parsers versions coverage overrides suite,
        Suite.register files context dir parsers versions coverage overrides = .ok suite →
        ∀ c ∈ suite.cases, c.fileName ∈ found ∧
          ∀ d ∈ suite.cases, c.options.file ≠ d.options.file → c.fileName ≠ d.fileName := by
  have listed : enumerate files dir = .ok ((entries.filterMap nameIn?).map (Path.join dir)) :=
    enumerate_eq_ok_iff.mpr ⟨entries, lists, rfl⟩
  have ordered := names_sublist entries
  have distinct : (entries.filterMap nameIn?).Nodup := .of_map Text.toUtf8 (proper.distinct.sublist ordered)
  have leads : ∀ name ∈ entries.filterMap nameIn?, Path.fileName? (Path.join dir name) = some name := by
    intro name present
    obtain ⟨entry, member, found⟩ := List.mem_filterMap.mp present
    obtain ⟨slashless, plain⟩ := plain_of_nameIn? proper member found
    exact Path.fileName?_join dir slashless plain
  refine ⟨entries.filterMap nameIn?, listed, ordered, ?_, leads, ?_, ?_⟩
  · intro name
    simp only [List.mem_filterMap, isFixture_iff]
  · -- Two paths of one text lead to one name.
    refine distinct.map_on ?_
    intro name present other presentToo same
    exact Option.some.inj ((leads name present).symm.trans (same ▸ leads other presentToo))
  · intro context parsers versions coverage overrides suite registered c member
    cases parsers with
    | nil => cases registered
    | cons leading alternates =>
        -- A case knows its fixture by the path only, and the path is the directory with the name.
        have caseOf : ∀ c ∈ suite.cases, ∃ name ∈ entries.filterMap nameIn?,
            c.fileName = name ∧ c.options.file = Path.join dir name := by
          intro c member
          obtain ⟨path, present, binding, _, rfl⟩ := (Suite.mem_cases_of_registered listed registered).mp member
          obtain ⟨name, named, rfl⟩ := List.mem_map.mp present
          exact ⟨name, named, by simp [Path.fileName, leads name named], rfl⟩
        obtain ⟨name, named, fileName, path⟩ := caseOf c member
        refine ⟨fileName ▸ named, ?_⟩
        intro d memberToo apart same
        obtain ⟨other, _, otherName, otherPath⟩ := caseOf d memberToo
        apply apart
        rw [path, otherPath, ← fileName, ← otherName, same]

end

def sampleEntries : List (FileName × FileTree) :=
  [([97], .file (.error .denied)), ([46, 98], .file (.ok [])), ([97, 46, 115, 110, 97, 112], .file (.ok [])),
    ([99], .directory [] {}), ([100], .link "a"),
    ([102, 109, 116, 115, 112, 101, 99, 46, 121, 97, 109, 108], .file (.ok [])), ([233], .file (.ok [])),
    ([234], .unknown .denied), ([115, 110, 97, 112, 46], .file (.ok []))]

def sampleFiles : FileSystem := ⟨.directory [([102], .directory sampleEntries {}),
  ([119], .directory [([103], .link "/f")] {})] {}, [[119]]⟩

theorem sample_enumerate_lists : FileTree.ProperNames sampleEntries ∧ sampleFiles.Lists "/f" sampleEntries ∧
    sampleFiles.Lists "../w/g" sampleEntries ∧
    ∃ found : List String, enumerate sampleFiles "/f" = .ok (found.map (Path.join "/f")) ∧
      found = ["a", "snap."] := by
  have proper : FileTree.ProperNames sampleEntries := ⟨by decide, by decide, by decide⟩
  obtain ⟨known, fixtures⟩ := names_map_ok_eq_ok_iff.mp
    (show names (sampleEntries.map .ok) = .ok ["a", "snap."] by decide +kernel)
  have opened : sampleFiles.openDirectory "/f" = .ok (.directory sampleEntries {}) := by
    unfold sampleFiles
    generalize sampleEntries = entries
    cbv
  have openedToo : sampleFiles.openDirectory "../w/g" = .ok (.directory sampleEntries {}) := by
    unfold sampleFiles
    generalize sampleEntries = entries
    cbv
  have lists : sampleFiles.Lists "/f" sampleEntries := ⟨⟨{}, opened, rfl⟩, known⟩
  have listed : enumerate sampleFiles "/f" = .ok (["a", "snap."].map (Path.join "/f")) :=
    enumerate_eq_ok_iff.mpr ⟨sampleEntries, lists, by rw [fixtures]⟩
  obtain ⟨found, paths, _, _, leads, _⟩ := enumerate_lists proper lists
  refine ⟨proper, lists, ⟨⟨{}, openedToo, rfl⟩, known⟩, found, paths, ?_⟩
  have same : found.map (Path.join "/f") = ["a", "snap."].map (Path.join "/f") :=
    Except.ok.inj (paths.symm.trans listed)
  have names : found.map some = (["a", "snap."].map (Path.join "/f")).map Path.fileName? := by
    rw [← same, List.map_map]
    exact (List.map_congr_left leads).symm
  exact List.map_injective_iff.mpr (Option.some_injective String) (names.trans (by decide +kernel))

end FormatAudit.Fixture
