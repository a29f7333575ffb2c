import FormatAudit.Proofs.Files.Naming
import FormatAudit.Formatter.Basic
import FormatAudit.Suite.Basic

/-! What a suite that was set up holds: a case for each fixture under each of the chosen interpreters. -/

namespace FormatAudit.Suite

section

variable {files : FileSystem} {context : Context} {dir : String} {leading : ParserName} {alternates : List ParserName}
  {versions : VersionRange} {coverage : Coverage} {overrides : Overrides} {suite : Suite} {paths : List String}

theorem register_eq_ok_iff :
    register files context dir (leading :: alternates) versions coverage overrides = .ok suite ↔
    ∃ paths, Fixture.enumerate files dir = .ok paths ∧
      suite = ⟨dir, (InterpreterSet.build context.interpreters versions coverage).checks,
        paths.flatMap (casesOf files leading (.merged overrides)
          (InterpreterSet.build context.interpreters versions coverage).bindings),
        alternates, context.structural⟩ := by
  simp only [register, bind_eq_ok_iff, pure, Except.pure, Except.ok.injEq, eq_comm (a := suite)]

theorem exists_registered (listed : Fixture.enumerate files dir = .ok paths) (context : Context)
    (leading : ParserName) (alternates : List ParserName) (versions : VersionRange) (coverage : Coverage)
    (overrides : Overrides) :
    ∃ suite, register files context dir (leading :: alternates) versions coverage overrides = .ok suite :=
  ⟨_, register_eq_ok_iff.mpr ⟨paths, listed, rfl⟩⟩

theorem eq_of_registered (listed : Fixture.enumerate files dir = .ok paths)
    (registered : register files context dir (leading :: alternates) versions coverage overrides = .ok suite) :
    suite = ⟨dir, (InterpreterSet.build context.interpreters versions coverage).checks,
      paths.flatMap (casesOf files leading (.merged overrides)
        (InterpreterSet.build context.interpreters versions coverage).bindings),
      alternates, context.structural⟩ := by
  obtain ⟨others, listedToo, form⟩ := register_eq_ok_iff.mp registered
  rw [form, Except.ok.inj (listed.symm.trans listedToo)]

theorem mem_casesOf {base : FormatOptions} {bindings : List Binding} {path : String} {c : Case} :
    c ∈ casesOf files leading base bindings path ↔ ∃ binding ∈ bindings,
      c = ⟨Path.fileName path, loadFixture files path, base.resolve leading binding path⟩ := by
  simp [casesOf, eq_comm]

theorem mem_cases_of_registered (listed : Fixture.enumerate files dir = .ok paths)
    (registered : register files context dir (leading :: alternates) versions coverage overrides = .ok suite)
    {c : Case} : c ∈ suite.cases ↔ ∃ path ∈ paths,
      ∃ binding ∈ (InterpreterSet.build context.interpreters versions coverage).bindings,
        c = ⟨Path.fileName path, loadFixture files path,
          (FormatOptions.merged overrides).resolve leading binding path⟩ := by
  rw [eq_of_registered listed registered]
  simp only [List.mem_flatMap, mem_casesOf]

theorem loadFixture_eq_ok_iff {path : String} {fixture : Fixture} :
    loadFixture files path = .ok fixture ↔ Fixture.load files path = .ok fixture := mapError_eq_ok_iff

end

/-! A small suite: two fixtures, one with a carriage return, under two interpreters. -/

namespace Sample

def holding (entries : List (FileName × FileTree)) : FileSystem :=
  ⟨.directory [([102, 120], .directory entries {}), ([119], .directory [] {})] {}, [[119]]⟩

theorem holding_opened (entries : List (FileName × FileTree)) :
    (holding entries).openDirectory "/fx" = .ok (.directory entries {}) := by cbv

theorem holding_proper {entries : List (FileName × FileTree)} (names : FileTree.ProperNames entries)
    (inside : ∀ entry ∈ entries, entry.2.Proper) : (holding entries).Proper := by
  refine .directory _ ⟨by simp, by simp, by simp⟩ ?_
  have empty : (FileTree.directory [] {}).Proper := .directory _ ⟨by decide, by decide, by decide⟩ (by simp)
  simpa [empty] using FileTree.Proper.directory {} names inside

def files : FileSystem := holding [([97], .file (.ok [120, 13, 10])), ([98], .file (.ok [121]))]

def python2 : Binding := ⟨"python2", ⟨2, 7, 18, [], []⟩⟩

def python3 : Binding := ⟨"python3", ⟨3, 12, 0, [], []⟩⟩

def context : Context := ⟨⟨[⟨"python2", some python2⟩, ⟨"python3", some python3⟩]⟩, true⟩

def strict : ParserName := ⟨"strict", by decide⟩

def lenient : ParserName := ⟨"lenient", by decide⟩

theorem proper : files.Proper :=
  holding_proper ⟨by decide, by decide, by decide⟩ (by simp [FileTree.Proper.file])

theorem listed : Fixture.enumerate files "/fx" = .ok ["/fx/a", "/fx/b"] := by cbv

theorem registered (alternates : List ParserName) :
    ∃ suite, register files context "/fx" (strict :: alternates) .any .all .none = .ok suite :=
  exists_registered listed context strict alternates .any .all .none

/-- A formatter that has one output for everything and crashes under some options. -/
def crashing (under : CallOptions → Bool) : Formatter where
  format _ options := if under options then .error (.crash (.text "out of memory")) else .ok "done"
  parse _ _ := .ok (.clean .null)
  normalizeOptions options := .ok options
  clean _ := Formatter.cleanNothing

end Sample

end FormatAudit.Suite
