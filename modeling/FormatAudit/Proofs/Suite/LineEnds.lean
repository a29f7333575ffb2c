import FormatAudit.Proofs.Files.Loading
import FormatAudit.Proofs.Suite.Registration
import FormatAudit.Proofs.Text.LineEnds
import FormatAudit.Suite.Run

/-! Two checkouts of a directory, of which one has CRLF for the line feeds of the other. Line ends are made line feeds
when a fixture is loaded, so the two give the same suites, and nothing that is run can tell them apart. -/

namespace FormatAudit

/-- An entry of a directory and the same entry in the other checkout: a file without CRLF may have one there for each
of its line feeds. -/
inductive FileTree.LineEndsApart : FileName × FileTree → FileName × FileTree → Prop
  | same (entry) : LineEndsApart entry entry
  | crlf {name content} : ¬[13, 10] <:+: content →
      LineEndsApart (name, .file (.ok content)) (name, .file (.ok (Text.crlfBytes content)))

namespace FileTree

theorem LineEndsApart.name_eq {entry other : FileName × FileTree} (apart : LineEndsApart entry other) :
    entry.1 = other.1 := by
  cases apart <;> rfl

theorem map_name_of_apart {entries twins : List (FileName × FileTree)}
    (apart : List.Forall₂ LineEndsApart entries twins) :
    entries.map Prod.fst = twins.map Prod.fst := by
  induction apart with
  | nil => rfl
  | cons first _ ih => rw [List.map_cons, List.map_cons, first.name_eq, ih]

theorem exists_apart_of_mem {entries twins : List (FileName × FileTree)}
    (apart : List.Forall₂ LineEndsApart entries twins) {entry : FileName × FileTree} (member : entry ∈ entries) :
    ∃ other ∈ twins, LineEndsApart entry other := by
  induction apart with
  | nil => cases member
  | cons first _ ih =>
      rcases List.mem_cons.mp member with rfl | later
      · exact ⟨_, List.mem_cons_self, first⟩
      · obtain ⟨other, present, pair⟩ := ih later
        exact ⟨other, List.mem_cons_of_mem _ present, pair⟩

theorem ProperNames.of_map_name {entries twins : List (FileName × FileTree)} (names : ProperNames entries)
    (same : entries.map Prod.fst = twins.map Prod.fst) : ProperNames twins := by
  have found {entry : FileName × FileTree} (member : entry ∈ twins) : ∃ other ∈ entries, other.1 = entry.1 := by
    have listed : entry.1 ∈ entries.map Prod.fst := same ▸ List.mem_map_of_mem member
    exact List.mem_map.mp listed
  refine ⟨same ▸ names.distinct, ?_, ?_⟩
  · intro entry member
    obtain ⟨other, present, named⟩ := found member
    exact named ▸ names.nonempty other present
  · intro entry member
    obtain ⟨other, present, named⟩ := found member
    exact named ▸ names.slashless other present

/-- A file of a directory is read whatever its name is, or not read whatever is in it. -/
theorem readNamed_eq (refusals : Refusals) (name : String) :
    (∃ cause, ∀ content, readNamed refusals name content = .error cause) ∨
      ∀ content, readNamed refusals name content = (file content).content := by
  unfold readNamed
  split
  · exact .inl ⟨_, fun _ => rfl⟩
  · split
    · exact .inl ⟨_, fun _ => rfl⟩
    · cases refusals.search with
      | some cause => exact .inl ⟨cause, fun _ => rfl⟩
      | none =>
          simp only
          split
          · exact .inl ⟨_, fun _ => rfl⟩
          · exact .inr fun _ => rfl

end FileTree

namespace Fixture

theorem nameOf?_of_apart {entry other : FileName × FileTree} (apart : FileTree.LineEndsApart entry other) :
    nameOf? entry = nameOf? other := by
  cases apart <;> rfl

theorem nameIn?_of_apart {entry other : FileName × FileTree} (apart : FileTree.LineEndsApart entry other) :
    nameIn? entry = nameIn? other := by
  cases apart with
  | same _ => rfl
  | @crlf name _ _ =>
      unfold nameIn?
      cases Text.ofUtf8 name <;> rfl

theorem names_of_apart {entries twins : List (FileName × FileTree)}
    (apart : List.Forall₂ FileTree.LineEndsApart entries twins)
    (rest : List (Except SystemError (FileName × FileTree))) :
    names (entries.map .ok ++ rest) = names (twins.map .ok ++ rest) := by
  induction apart with
  | nil => rfl
  | cons first _ ih =>
      simp only [List.map_cons, List.cons_append, names, ih, nameOf?_of_apart first, bind, Except.bind]

theorem names_listing_of_apart {entries twins : List (FileName × FileTree)}
    (apart : List.Forall₂ FileTree.LineEndsApart entries twins) (refusals : Refusals) :
    names (FileTree.directory entries refusals).listing = names (FileTree.directory twins refusals).listing := by
  rw [FileTree.listing, FileTree.listing]
  cases refusals.listing with
  | none => simpa using names_of_apart apart []
  | some stop => exact names_of_apart (List.forall₂_take stop.1 apart) [.error stop.2]

theorem ofFile_crlfBytes {content : List UInt8} (plain : ¬[13, 10] <:+: content) (refusals : Refusals)
    (path name : String) :
    ofFile refusals path name (.ok (Text.crlfBytes content)) = ofFile refusals path name (.ok content) := by
  rcases FileTree.readNamed_eq refusals name with ⟨cause, failed⟩ | read
  · rw [ofFile, ofFile, failed, failed]
  · have texts := Text.normalized_crlfBytes plain
    rw [ofFile, ofFile, read, read, FileTree.content, FileTree.content]
    cases before : Text.ofUtf8 content <;> cases after : Text.ofUtf8 (Text.crlfBytes content) <;>
      simp_all [Except.mapError, ofText, Functor.map, Except.map, Except.toOption, bind, Except.bind]

section

variable {files twin : FileSystem} {dir : String} {entries twins : List (FileName × FileTree)} {refusals : Refusals}

theorem enumerate_of_apart (opened : files.openDirectory dir = .ok (.directory entries refusals))
    (openedToo : twin.openDirectory dir = .ok (.directory twins refusals))
    (apart : List.Forall₂ FileTree.LineEndsApart entries twins) : enumerate twin dir = enumerate files dir := by
  have same : namesIn twin dir = namesIn files dir := by
    rw [namesIn, namesIn, opened, openedToo]
    exact (names_listing_of_apart apart refusals).symm
  rw [enumerate, enumerate, same]

theorem load_of_apart (names : FileTree.ProperNames entries)
    (opened : files.openDirectory dir = .ok (.directory entries refusals))
    (openedToo : twin.openDirectory dir = .ok (.directory twins refusals))
    (apart : List.Forall₂ FileTree.LineEndsApart entries twins) {paths : List String}
    (listed : enumerate files dir = .ok paths) {path : String} (present : path ∈ paths) :
    load twin path = load files path := by
  obtain ⟨others, lists, rfl⟩ := enumerate_eq_ok_iff.mp listed
  obtain ⟨_, openedSame, _⟩ := lists.opened
  cases opened.symm.trans openedSame
  obtain ⟨name, named, rfl⟩ := List.mem_map.mp present
  obtain ⟨entry, member, found⟩ := List.mem_filterMap.mp named
  obtain ⟨content, rfl⟩ := exists_content_of_nameIn? found
  have namesToo := names.of_map_name (FileTree.map_name_of_apart apart)
  obtain ⟨other, memberToo, pair⟩ := FileTree.exists_apart_of_mem apart member
  have foundToo : nameIn? other = some name := nameIn?_of_apart pair ▸ found
  rw [load_join names opened member found]
  cases pair with
  | same _ => exact load_join namesToo openedToo memberToo found
  | crlf plain =>
      rw [load_join namesToo openedToo memberToo foundToo]
      exact ofFile_crlfBytes plain _ _ _

end

end Fixture

namespace Suite

section

variable {files twin : FileSystem} {dir : String} {entries twins : List (FileName × FileTree)} {refusals : Refusals}

theorem register_of_apart (names : FileTree.ProperNames entries)
    (opened : files.openDirectory dir = .ok (.directory entries refusals))
    (openedToo : twin.openDirectory dir = .ok (.directory twins refusals))
    (apart : List.Forall₂ FileTree.LineEndsApart entries twins) (context : Context) (parsers : List ParserName)
    (versions : VersionRange) (coverage : Coverage) (overrides : Overrides) :
    register twin context dir parsers versions coverage overrides =
      register files context dir parsers versions coverage overrides := by
  cases parsers with
  | nil => rfl
  | cons leading alternates =>
      have listedToo := Fixture.enumerate_of_apart opened openedToo apart
      cases listed : Fixture.enumerate files dir with
      | error cause => rw [register, register, listedToo, listed]; rfl
      | ok paths =>
          refine (register_eq_ok_iff.mpr ⟨paths, listedToo.trans listed, ?_⟩).trans
            (register_eq_ok_iff.mpr ⟨paths, listed, rfl⟩).symm
          congr 1
          refine List.flatMap_congr fun path present => ?_
          have loaded := Fixture.load_of_apart names opened openedToo apart listed present
          simp only [casesOf, loadFixture, loaded]

/-- The line ends of a checkout change nothing. A directory and one with CRLF for the line feeds of any of its files
give the same suite, or are refused for the same reason: the units have the same names, and each run of them gives the
same outcomes and leaves the same store. -/
theorem run_ignores_line_ends (names : FileTree.ProperNames entries)
    (opened : files.openDirectory dir = .ok (.directory entries refusals))
    (openedToo : twin.openDirectory dir = .ok (.directory twins refusals))
    (apart : List.Forall₂ FileTree.LineEndsApart entries twins) (context : Context) (parsers : List ParserName)
    (versions : VersionRange) (coverage : Coverage) (overrides : Overrides) :
    register twin context dir parsers versions coverage overrides =
      register files context dir parsers versions coverage overrides ∧
    (parsers ≠ [] → files.Lists dir entries → ∃ suite other,
      register files context dir parsers versions coverage overrides = .ok suite ∧
      register twin context dir parsers versions coverage overrides = .ok other ∧
        suite.unitNames = other.unitNames ∧
      ∀ {σ : Type} (formatter : Formatter) (snapshots : SnapshotStore σ) (store : σ),
        (suite.run formatter snapshots store).report.outcomes =
          (other.run formatter snapshots store).report.outcomes ∧
        (suite.run formatter snapshots store).store = (other.run formatter snapshots store).store) := by
  have same := register_of_apart names opened openedToo apart context parsers versions coverage overrides
  refine ⟨same, ?_⟩
  intro nonempty lists
  cases parsers with
  | nil => exact absurd rfl nonempty
  | cons leading alternates =>
      have listed := Fixture.enumerate_eq_ok_iff.mpr ⟨entries, lists, rfl⟩
      obtain ⟨suite, registered⟩ := exists_registered listed context leading alternates versions coverage overrides
      exact ⟨suite, suite, registered, same.trans registered, rfl, fun _ _ _ => ⟨rfl, rfl⟩⟩

end

/-! One file here has a carriage return of its own, one is no text, and one cannot be read. -/

def Sample.feeds : List (FileName × FileTree) :=
  [([97], .file (.ok [120, 13, 121, 10, 10])), ([98], .file (.ok [255, 10])), ([99], .file (.error .denied)),
    ([100], .link "a")]

def Sample.crlfs : List (FileName × FileTree) :=
  [([97], .file (.ok [120, 13, 121, 13, 10, 13, 10])), ([98], .file (.ok [255, 13, 10])),
    ([99], .file (.error .denied)), ([100], .link "a")]

theorem sample_run_ignores_line_ends : ∃ suite other,
    register (Sample.holding Sample.feeds) Sample.context "/fx" [Sample.strict, Sample.lenient] .any .all .none =
      .ok suite ∧
    register (Sample.holding Sample.crlfs) Sample.context "/fx" [Sample.strict, Sample.lenient] .any .all .none =
      .ok other ∧
    suite.unitNames = other.unitNames ∧
    let formatter := Sample.crashing fun options => options.interpreter = Sample.python2
    (suite.run formatter MemoryStore.snapshots ⟨[]⟩).report.outcomes =
      (other.run formatter MemoryStore.snapshots ⟨[]⟩).report.outcomes ∧
    (suite.run formatter MemoryStore.snapshots ⟨[]⟩).store =
      (other.run formatter MemoryStore.snapshots ⟨[]⟩).store := by
  have names : FileTree.ProperNames Sample.feeds := ⟨by decide, by decide, by decide⟩
  have apart : List.Forall₂ FileTree.LineEndsApart Sample.feeds Sample.crlfs :=
    .cons (.crlf (by decide)) (.cons (.crlf (by decide)) (.cons (.same _) (.cons (.same _) .nil)))
  obtain ⟨known, _⟩ := Fixture.names_map_ok_eq_ok_iff.mp
    (show Fixture.names (Sample.feeds.map .ok) = .ok ["a", "b", "c"] by decide +kernel)
  obtain ⟨suite, other, registered, registeredToo, units, runs⟩ := (run_ignores_line_ends names
    (Sample.holding_opened _) (Sample.holding_opened _) apart Sample.context [Sample.strict, Sample.lenient] .any .all
    .none).2 (by simp) ⟨⟨{}, Sample.holding_opened _, rfl⟩, known⟩
  exact ⟨suite, other, registered, registeredToo, units, runs _ _ _⟩

end Suite

end FormatAudit
