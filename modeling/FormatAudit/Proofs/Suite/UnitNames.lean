import FormatAudit.Proofs.Suite.Registration
import FormatAudit.Suite.Run

/-! The units that a suite announces and the units that a run reports. Both are told by the directory, the chosen
interpreters and the parsers alone. -/

namespace FormatAudit

structure UnitKey where
  path : String
  binding : Binding
  parser : ParserName
  check : String

namespace UnitKey

def text (key : UnitKey) : String :=
  Path.fileName key.path ++ " - " ++ key.parser.text ++ "-" ++ key.check ++ " [" ++
    (key.binding.executable ++ " " ++ key.binding.version.text) ++ "]"

/-- The units of a fixture under an interpreter: one for each parser, then one for the structure if structures are
compared. -/
def ofCase (leading : ParserName) (alternates : List ParserName) (structural : Bool) (path : String)
    (binding : Binding) :
    List UnitKey :=
  (leading :: alternates).map (⟨path, binding, ·, "verify"⟩) ++
    if structural then [⟨path, binding, leading, "ast-compare"⟩] else []

def all (leading : ParserName) (alternates : List ParserName) (structural : Bool) (bindings : List Binding)
    (paths : List String) : List UnitKey :=
  paths.flatMap fun path => bindings.flatMap (ofCase leading alternates structural path)

end UnitKey

def InterpreterSet.checkNames (coverage : Coverage) : List String :=
  atLeastOneCheck :: if coverage = .all then [allTracksCheck] else []

theorem InterpreterSet.map_name_checks (resolution : Resolution) (versions : VersionRange) (coverage : Coverage) :
    (build resolution versions coverage).checks.map (·.name) = checkNames coverage := by
  unfold checkNames build
  cases coverage <;> rfl

namespace Suite

theorem caseNames_eq (suite : Suite) (path : String) (fixture : Except UnitFailure Fixture) (options : CallOptions) :
    suite.caseNames ⟨Path.fileName path, fixture, options⟩ =
      (UnitKey.ofCase options.parser suite.alternates suite.structural path options.interpreter).map UnitKey.text := by
  have named (parser : ParserName) (check : String) :
    Case.unitName ⟨Path.fileName path, fixture, options⟩ parser check =
      UnitKey.text ⟨path, options.interpreter, parser, check⟩ := rfl
  unfold caseNames Case.primaryName Case.structureName Case.verifyName UnitKey.ofCase
  cases suite.structural <;> simp [named]

section

variable {files : FileSystem} {context : Context} {dir : String} {leading : ParserName} {alternates : List ParserName}
  {versions : VersionRange} {coverage : Coverage} {overrides : Overrides} {suite : Suite} {paths : List String}

theorem unitNames_of_registered (listed : Fixture.enumerate files dir = .ok paths)
    (registered : register files context dir (leading :: alternates) versions coverage overrides = .ok suite) :
    suite.unitNames = InterpreterSet.checkNames coverage ++ (UnitKey.all leading alternates context.structural
      (InterpreterSet.build context.interpreters versions coverage).bindings paths).map UnitKey.text := by
  rw [eq_of_registered listed registered, unitNames, InterpreterSet.map_name_checks]
  congr 1
  simp only [UnitKey.all, List.map_flatMap, List.flatMap_assoc]
  refine List.flatMap_congr fun path _ => ?_
  simp only [casesOf, List.flatMap_map, caseNames_eq, FormatOptions.resolve]

end

section

variable {σ : Type} (suite : Suite) (formatter : Formatter) (snapshots : SnapshotStore σ)

theorem runCase_names (store : σ) (c : Case) :
    (suite.runCase formatter snapshots store c).outcomes.map (·.name) = suite.caseNames c := by
  have alternate (output) (parser) : (alternateUnit formatter c output parser).2.name = c.verifyName parser := rfl
  have last (output) : (structureUnit formatter c output).2.name = c.structureName := rfl
  unfold runCase caseNames
  cases suite.structural <;> simp [alternate, last, Function.comp_def]

theorem runCases_names (store : σ) (cases : List Case) :
    (suite.runCases formatter snapshots store cases).outcomes.map (·.name) = cases.flatMap suite.caseNames := by
  induction cases generalizing store with
  | nil => rfl
  | cons c rest ih => rw [runCases, List.map_append, runCase_names, ih, List.flatMap_cons]

theorem run_names (store : σ) :
    (suite.run formatter snapshots store).report.outcomes.map (·.name) = suite.unitNames := by
  rw [run, List.map_append, runCases_names, unitNames]
  simp [Function.comp_def]

end

theorem register_of_unlisted {files : FileSystem} {dir : String} (unlisted : ∀ entries, ¬files.Lists dir entries)
    (context : Context) (leading : ParserName) (alternates : List ParserName) (versions : VersionRange)
    (coverage : Coverage) (overrides : Overrides) : ∃ cause,
      register files context dir (leading :: alternates) versions coverage overrides = .error (.io dir cause) := by
  obtain ⟨cause, failed⟩ := Fixture.enumerate_eq_error unlisted
  exact ⟨cause, by rw [register, failed]; rfl⟩

/-- A suite is set up unless there are no parsers, which is told first, or the directory cannot be listed; fixtures
that cannot be read are no obstacle. Its runs report the units that it announces, whatever fails or crashes in them. -/
theorem register_and_run (files : FileSystem) (context : Context) (dir : String) (parsers : List ParserName)
    (versions : VersionRange) (coverage : Coverage) (overrides : Overrides) :
    match parsers with
    | [] => register files context dir [] versions coverage overrides = .error (.noParsers dir)
    | leading :: alternates =>
      (∀ entries, files.Lists dir entries → ∃ paths suite, Fixture.enumerate files dir = .ok paths ∧
        register files context dir (leading :: alternates) versions coverage overrides = .ok suite ∧
        suite.unitNames = InterpreterSet.checkNames coverage ++ (UnitKey.all leading alternates context.structural
          (InterpreterSet.build context.interpreters versions coverage).bindings paths).map UnitKey.text ∧
        ∀ {σ : Type} (formatter : Formatter) (snapshots : SnapshotStore σ) (store : σ),
          (suite.run formatter snapshots store).report.outcomes.map (·.name) = suite.unitNames) ∧
      ((∀ entries, ¬files.Lists dir entries) → ∃ cause,
        register files context dir (leading :: alternates) versions coverage overrides = .error (.io dir cause)) := by
  cases parsers with
  | nil => rfl
  | cons leading alternates =>
      refine ⟨?_, ?_⟩
      · intro entries lists
        have listed := Fixture.enumerate_eq_ok_iff.mpr ⟨entries, lists, rfl⟩
        obtain ⟨suite, registered⟩ :=
          exists_registered listed context leading alternates versions coverage overrides
        exact ⟨_, suite, listed, registered, unitNames_of_registered listed registered, suite.run_names⟩
      · intro unlisted
        exact register_of_unlisted unlisted context leading alternates versions coverage overrides

theorem sample_register_and_run :
    (∃ paths suite, Fixture.enumerate Sample.files "/fx" = .ok paths ∧
      register Sample.files Sample.context "/fx" [Sample.strict] .any .all .none = .ok suite ∧
      suite.unitNames = InterpreterSet.checkNames .all ++ (UnitKey.all Sample.strict [] true
        (InterpreterSet.build Sample.context.interpreters .any .all).bindings paths).map UnitKey.text ∧
      ∀ {σ : Type} (formatter : Formatter) (snapshots : SnapshotStore σ) (store : σ),
        (suite.run formatter snapshots store).report.outcomes.map (·.name) = suite.unitNames) ∧
    ∃ cause, register Sample.files Sample.context "fx" [Sample.strict] .any .all .none = .error (.io "fx" cause) := by
  obtain ⟨entries, lists, _⟩ := Fixture.enumerate_eq_ok_iff.mp Sample.listed
  -- in the current directory there is nothing of that name
  have missing : Sample.files.openDirectory "fx" = .error .notFound := by cbv
  have unlisted : ∀ entries, ¬Sample.files.Lists "fx" entries := by
    rintro entries ⟨⟨_, opened, _⟩, _⟩
    cases missing.symm.trans opened
  exact ⟨(register_and_run Sample.files Sample.context "/fx" [Sample.strict] .any .all .none).1 entries lists,
    (register_and_run Sample.files Sample.context "fx" [Sample.strict] .any .all .none).2 unlisted⟩

end Suite

end FormatAudit
