import FormatAudit.Proofs.Suite.FinalStore

/-! What a successful run says of the fixtures, and that nothing less makes a run succeed. -/

namespace FormatAudit

namespace Report

theorem isSuccess_iff {report : Report} :
    report.isSuccess = true ↔ ∀ outcome ∈ report.outcomes, outcome.passed = true := List.all_eq_true

theorem failures_eq_nil_iff {report : Report} : report.failures = [] ↔ report.isSuccess = true := by
  simp [failures, isSuccess, List.filter_eq_nil_iff]

theorem result_eq_ok_iff {report : Report} : report.result = .ok () ↔ report.isSuccess = true := by
  rw [← failures_eq_nil_iff, ← List.map_eq_nil_iff (f := failureLine)]
  unfold result
  cases report.failures.map failureLine <;> simp

end Report

theorem InterpreterSet.checks_pass_iff {resolution : Resolution} {range : VersionRange} {coverage : Coverage} :
    (∀ found ∈ (build resolution range coverage).checks, found.verdict = .ok ()) ↔
      (build resolution range coverage).bindings ≠ [] ∧ (coverage = .all → resolution.missingTracks = []) := by
  simp only [build]
  generalize choose range [] resolution.bindings = bindings
  generalize resolution.missingTracks = missing
  cases coverage <;> by_cases bindings = [] <;> by_cases missing = [] <;> simp_all

namespace Suite

/-- All units of a case pass when the store at the end holds the case's output, the other parsers give the same one,
and its structure is that of the source where structures are compared. -/
def CasePasses (suite : Suite) (formatter : Formatter) (final : MemoryStore) (c : Case) : Prop :=
  ∃ fixture output, c.fixture = .ok fixture ∧ formatter.format fixture.source c.options = .ok output ∧
    final.get? c.fileName = some (Snapshot.compose fixture.source output) ∧
    (∀ parser ∈ suite.alternates, formatter.format fixture.source (c.options.withParser parser) = .ok output) ∧
    (suite.structural = true → RoundTrips formatter fixture.source output c.options)

theorem casePasses_iff {suite : Suite} {formatter : Formatter} {store : MemoryStore} {c : Case}
    (member : c ∈ suite.cases) :
    suite.CasePasses formatter (suite.run formatter MemoryStore.snapshots store).store c ↔
      ∀ unit ∈ suite.caseUnits c,
        unit.verdict formatter (suite.run formatter MemoryStore.snapshots store).store = .ok () := by
  have first := snapshot_passed_iff suite formatter store member
  constructor
  · rintro ⟨fixture, output, read, formatted, held, others, trips⟩ unit inside
    rcases mem_caseUnits.mp inside with rfl | ⟨parser, listed, rfl⟩ | ⟨structural, rfl⟩
    · exact first.mpr ⟨fixture, output, read, formatted, held⟩
    · exact AuditUnit.alternate_verdict_eq_ok_iff.mpr ⟨fixture, output, read, formatted, others parser listed⟩
    · exact AuditUnit.structural_verdict_eq_ok_iff.mpr ⟨fixture, output, read, formatted, trips structural⟩
  · intro passed
    obtain ⟨fixture, output, read, formatted, held⟩ := first.mp (passed _ (mem_caseUnits.mpr (.inl rfl)))
    -- the units of a case share its fixture and its output
    have shared {P : Fixture → String → Prop} (found : ∃ fixture output, c.fixture = .ok fixture ∧
        formatter.format fixture.source c.options = .ok output ∧ P fixture output) : P fixture output := by
      obtain ⟨other, text, readToo, formattedToo, holds⟩ := found
      obtain rfl := Except.ok.inj (read.symm.trans readToo)
      obtain rfl := Except.ok.inj (formatted.symm.trans formattedToo)
      exact holds
    refine ⟨fixture, output, read, formatted, held, ?_, ?_⟩
    · intro parser listed
      have unit := passed _ (mem_caseUnits.mpr (.inr (.inl ⟨parser, listed, rfl⟩)))
      exact shared (P := fun fixture output =>
        formatter.format fixture.source (c.options.withParser parser) = .ok output)
        (AuditUnit.alternate_verdict_eq_ok_iff.mp unit)
    · intro structural
      have unit := passed _ (mem_caseUnits.mpr (.inr (.inr ⟨structural, rfl⟩)))
      exact shared (P := fun fixture output => RoundTrips formatter fixture.source output c.options)
        (AuditUnit.structural_verdict_eq_ok_iff.mp unit)

theorem run_isSuccess_iff_cases {suite : Suite} {formatter : Formatter} {store : MemoryStore} :
    (suite.run formatter MemoryStore.snapshots store).report.isSuccess = true ↔
      (∀ found ∈ suite.checks, found.verdict = .ok ()) ∧
      ∀ c ∈ suite.cases, suite.CasePasses formatter (suite.run formatter MemoryStore.snapshots store).store c := by
  rw [Report.isSuccess_iff, run_outcomes]
  simp only [List.forall_mem_map, UnitOutcome.passed_iff, AuditUnit.outcome]
  constructor
  · intro passed
    refine ⟨fun found member => passed (.check found) (mem_units.mpr (.inl ⟨found, member, rfl⟩)), ?_⟩
    intro c member
    exact (casePasses_iff member).mpr fun unit inside => passed unit (mem_units.mpr (.inr ⟨c, member, inside⟩))
  · rintro ⟨checks, cases⟩ unit member
    rcases mem_units.mp member with ⟨found, present, rfl⟩ | ⟨c, present, inside⟩
    · exact checks found present
    · exact (casePasses_iff present).mp (cases c present) unit inside

/-- What a suite asks of a formatter and of the snapshots it starts with. A fixture has one output, under
every parser and every interpreter. -/
structure Conforms (files : FileSystem) (context : Context) (leading : ParserName) (alternates : List ParserName)
    (versions : VersionRange) (coverage : Coverage) (overrides : Overrides) (paths : List String)
    (formatter : Formatter) (store : MemoryStore) : Prop where
  selected : (InterpreterSet.build context.interpreters versions coverage).bindings ≠ []
  complete : coverage = .all → context.interpreters.missingTracks = []
  readable : ∀ path ∈ paths, ∃ fixture, Fixture.load files path = .ok fixture
  stable : ∀ path ∈ paths, ∀ fixture, Fixture.load files path = .ok fixture → ∃ output,
    (∀ parser ∈ leading :: alternates,
      ∀ binding ∈ (InterpreterSet.build context.interpreters versions coverage).bindings,
        formatter.format fixture.source ((FormatOptions.merged overrides).resolve parser binding path) = .ok output) ∧
    (∀ stored, store.get? (Path.fileName path) = some stored → stored = Snapshot.compose fixture.source output) ∧
    (context.structural = true →
      ∀ binding ∈ (InterpreterSet.build context.interpreters versions coverage).bindings,
        RoundTrips formatter fixture.source output ((FormatOptions.merged overrides).resolve leading binding path))

theorem conforms_iff_cases {files : FileSystem} {context : Context} {dir : String} {leading : ParserName}
    {alternates : List ParserName} {versions : VersionRange} {coverage : Coverage} {overrides : Overrides}
    {suite : Suite} {paths : List String} (proper : files.Proper) (listed : Fixture.enumerate files dir = .ok paths)
    (registered : register files context dir (leading :: alternates) versions coverage overrides = .ok suite)
    {formatter : Formatter} {store : MemoryStore} :
    Conforms files context leading alternates versions coverage overrides paths formatter store ↔
      (∀ found ∈ suite.checks, found.verdict = .ok ()) ∧
      ∀ c ∈ suite.cases, suite.CasePasses formatter (suite.run formatter MemoryStore.snapshots store).store c := by
  have cases (c : Case) := mem_cases_of_registered listed registered (c := c)
  have form := eq_of_registered listed registered
  have checks : suite.checks = (InterpreterSet.build context.interpreters versions coverage).checks := by rw [form]
  have others : suite.alternates = alternates := by rw [form]
  have structural : suite.structural = context.structural := by rw [form]
  rw [checks, InterpreterSet.checks_pass_iff]
  constructor
  · rintro ⟨selected, complete, readable, stable⟩
    refine ⟨⟨selected, complete⟩, ?_⟩
    intro c member
    obtain ⟨path, present, binding, chosen, rfl⟩ := (cases c).mp member
    obtain ⟨fixture, loaded⟩ := readable path present
    obtain ⟨output, formatted, baseline, trips⟩ := stable path present fixture loaded
    refine ⟨fixture, output, loadFixture_eq_ok_iff.mpr loaded,
      formatted leading (by simp) binding chosen, ?_, ?_, ?_⟩
    · exact (get?_run_eq_some_iff proper listed registered present loaded selected
        fun other found => formatted leading (by simp) other found).mpr baseline
    · intro parser listed
      exact formatted parser (by simp [others ▸ listed]) binding chosen
    · exact fun on => trips (structural ▸ on) binding chosen
  · rintro ⟨⟨selected, complete⟩, passes⟩
    obtain ⟨first, chosenFirst⟩ := List.exists_mem_of_ne_nil _ selected
    have each {path : String} (present : path ∈ paths) {binding : Binding}
        (chosen : binding ∈ (InterpreterSet.build context.interpreters versions coverage).bindings) :=
      passes _ ((cases _).mpr ⟨path, present, binding, chosen, rfl⟩)
    refine ⟨selected, complete, ?_, ?_⟩
    · intro path present
      obtain ⟨fixture, _, read, _⟩ := each present chosenFirst
      exact ⟨fixture, loadFixture_eq_ok_iff.mp read⟩
    · intro path present fixture loaded
      obtain ⟨_, output, read, formatted, stored, _⟩ := each present chosenFirst
      obtain rfl := Except.ok.inj ((loadFixture_eq_ok_iff.mpr loaded).symm.trans read)
      -- the store has one entry for the fixture, so all interpreters agree on the output
      have agreed : ∀ binding ∈ (InterpreterSet.build context.interpreters versions coverage).bindings,
          formatter.format fixture.source
            ((FormatOptions.merged overrides).resolve leading binding path) = .ok output ∧
          (∀ parser ∈ suite.alternates, formatter.format fixture.source
            ((FormatOptions.merged overrides).resolve parser binding path) = .ok output) ∧
          (suite.structural = true → RoundTrips formatter fixture.source output
            ((FormatOptions.merged overrides).resolve leading binding path)) := by
        intro binding chosen
        obtain ⟨_, text, readToo, formattedToo, storedToo, rest⟩ := each present chosen
        obtain rfl := Except.ok.inj (read.symm.trans readToo)
        obtain rfl := Snapshot.compose_output_inj (Option.some.inj (stored.symm.trans storedToo))
        exact ⟨formattedToo, rest⟩
      refine ⟨output, ?_, ?_, ?_⟩
      · intro parser inside binding chosen
        rcases List.mem_cons.mp inside with rfl | other
        · exact (agreed binding chosen).1
        · exact (agreed binding chosen).2.1 parser (others.symm ▸ other)
      · exact (get?_run_eq_some_iff proper listed registered present loaded selected
          fun binding chosen => (agreed binding chosen).1).mp stored
      · exact fun on binding chosen => (agreed binding chosen).2.2 (structural.symm ▸ on)

/-- A suite can be set up for every directory that can be listed, and its run succeeds exactly when the formatter
and the snapshots are as the suite asks; to have no failures and to give no error mean the same. -/
theorem run_isSuccess_iff {files : FileSystem} {dir : String} {paths : List String} (proper : files.Proper)
    (listed : Fixture.enumerate files dir = .ok paths) (context : Context) (leading : ParserName)
    (alternates : List ParserName) (versions : VersionRange) (coverage : Coverage) (overrides : Overrides) :
    ∃ suite, register files context dir (leading :: alternates) versions coverage overrides = .ok suite ∧
      ∀ (formatter : Formatter) (store : MemoryStore),
        let report := (suite.run formatter MemoryStore.snapshots store).report
        (report.isSuccess = true ↔
          Conforms files context leading alternates versions coverage overrides paths formatter store) ∧
        (report.result = .ok () ↔ report.isSuccess = true) ∧
          (report.failures = [] ↔ report.isSuccess = true) := by
  obtain ⟨suite, registered⟩ := exists_registered listed context leading alternates versions coverage overrides
  refine ⟨suite, registered, ?_⟩
  intro formatter store
  refine ⟨?_, Report.result_eq_ok_iff, Report.failures_eq_nil_iff⟩
  rw [conforms_iff_cases proper listed registered]
  exact run_isSuccess_iff_cases

theorem sample_run_isSuccess : ∃ suite,
    register Sample.files Sample.context "/fx" [Sample.strict, Sample.lenient] .any .all .none = .ok suite ∧
    (suite.run (Sample.crashing fun _ => false) MemoryStore.snapshots ⟨[]⟩).report.isSuccess = true := by
  obtain ⟨suite, registered, outcome⟩ := run_isSuccess_iff Sample.proper Sample.listed Sample.context Sample.strict
    [Sample.lenient] .any .all .none
  refine ⟨suite, registered, (outcome _ _).1.mpr ⟨by decide, fun _ => rfl, ?_, ?_⟩⟩
  · intro path member
    simp only [List.mem_cons, List.not_mem_nil, or_false] at member
    rcases member with rfl | rfl
    · exact ⟨⟨"/fx/a", "x\n"⟩, by cbv⟩
    · exact ⟨⟨"/fx/b", "y"⟩, by cbv⟩
  · intro path _ fixture _
    have cleaned (hook : Tree.Hook (Except Crash)) : Tree.normalize hook .null = .ok .null := by
      have stripped : Tree.stripSource .null = .null := by
        simp only [Tree.stripSource, Tree.walk]
        rfl
      simp only [Tree.normalize, Tree.clean, Tree.walk]
      exact congrArg Except.ok stripped
    refine ⟨"done", fun _ _ _ _ => rfl, by simp [MemoryStore.get?], ?_⟩
    intro _ binding _
    exact ⟨_, _, _, _, _, rfl, rfl, rfl, cleaned _, cleaned _, fun _ => rfl⟩

end Suite

end FormatAudit
