import FormatAudit.Proofs.Suite.FinalStore
import FormatAudit.Proofs.VerificationFaults

/-! What a failure is put down to. The leading parser's call is made for all units of a case, so its failure is
theirs; a failure after it belongs to the unit that met it and is named for what failed there. -/

namespace FormatAudit

def Crash.blamed : Crash → UnitFailure
  | .text message => .crashed message
  | .other => .crashed "non-string panic payload"

theorem Crash.blamed_eq (crash : Crash) : crash.blamed = Suite.crashed crash := by
  cases crash <;> rfl

namespace Suite

def attempt (files : FileSystem) (formatter : Formatter) (c : Case) : Except UnitFailure (Fixture × String) :=
  match Fixture.load files c.options.file with
  | .error error => .error (.unreadable c.fileName error.message)
  | .ok fixture =>
    match formatter.format fixture.source c.options with
    | .ok output => .ok (fixture, output)
    | .error (.error error) => .error (.format c.fileName error.message)
    | .error (.crash crash) => .error crash.blamed

end Suite

/-- What a unit can find when the leading parser has an output for its case: that all is well, or a failure named
for the comparison or the call that gave it. -/
inductive AuditUnit.Finding (formatter : Formatter) (final : MemoryStore) (fixture : Fixture) (output : String) :
    AuditUnit → Verdict → Prop
  | snapshotHeld {c : Case} : final.get? c.fileName = some (Snapshot.compose fixture.source output) →
      Finding formatter final fixture output (.snapshot c) (.ok ())
  | snapshotDiffers {c : Case} {stored : String} (message : String) : final.get? c.fileName = some stored →
      stored ≠ Snapshot.compose fixture.source output →
      Finding formatter final fixture output (.snapshot c) (.error (.snapshot c.fileName message))
  | agrees {c : Case} {parser : ParserName} :
      formatter.format fixture.source (c.options.withParser parser) = .ok output →
      Finding formatter final fixture output (.alternate c parser) (.ok ())
  | diverges {c : Case} {parser : ParserName} {actual : String} :
      formatter.format fixture.source (c.options.withParser parser) = .ok actual → actual ≠ output →
      Finding formatter final fixture output (.alternate c parser)
        (.error (.divergence c.fileName c.options.parser.text parser.text output actual))
  | alternateFails {c : Case} {parser : ParserName} {error : FormatterError} :
      formatter.format fixture.source (c.options.withParser parser) = .error (.error error) →
      Finding formatter final fixture output (.alternate c parser) (.error (.format c.fileName error.message))
  | alternateCrashes {c : Case} {parser : ParserName} {crash : Crash} :
      formatter.format fixture.source (c.options.withParser parser) = .error (.crash crash) →
      Finding formatter final fixture output (.alternate c parser) (.error crash.blamed)
  | roundTrips {c : Case} : RoundTrips formatter fixture.source output c.options →
      Finding formatter final fixture output (.structural c) (.ok ())
  | sourceUnparsed {c : Case} {error : FormatterError} :
      formatter.parse fixture.source c.options = .error (.error error) →
      Finding formatter final fixture output (.structural c) (.error (.parse c.fileName error.message))
  | outputUnparsed {c : Case} {error : FormatterError} : formatter.parse output c.options = .error (.error error) →
      Finding formatter final fixture output (.structural c) (.error (.reparse c.fileName error.message))
  | structureChanged {c : Case} {before after : Tree} {errors : List String} :
      formatter.Reads c.options fixture.source [] before → formatter.Reads c.options output errors after →
      after.same before = false →
      Finding formatter final fixture output (.structural c)
        (.error (.structureChanged c.fileName before.written after.written))
  | structureCrashes {c : Case} {crash : Crash} : formatter.CrashesOn fixture.source output c.options crash →
      Finding formatter final fixture output (.structural c) (.error crash.blamed)

namespace Suite

theorem primary_eq_attempt {files : FileSystem} {c : Case}
    (read : c.fixture = (Fixture.load files c.options.file).mapError fun error => .unreadable c.fileName error.message)
    (formatter : Formatter) : (primary formatter c).2 = attempt files formatter c := by
  unfold primary attempt
  rw [read]
  cases Fixture.load files c.options.file with
  | error error => rfl
  | ok fixture =>
      simp only [Except.mapError, Step.result_mapError, Formatter.callFormat]
      rcases formatter.format fixture.source c.options with (error | crash) | output
      · rfl
      · exact congrArg Except.error (Crash.blamed_eq crash).symm
      · rfl

theorem case_of_registered {files : FileSystem} {context : Context} {dir : String} {parsers : List ParserName}
    {versions : VersionRange} {coverage : Coverage} {overrides : Overrides} {suite : Suite}
    (registered : register files context dir parsers versions coverage overrides = .ok suite) {c : Case}
    (member : c ∈ suite.cases) : c.fileName = Path.fileName c.options.file ∧
      c.fixture = (Fixture.load files c.options.file).mapError fun error => .unreadable c.fileName error.message := by
  cases parsers with
  | nil => cases registered
  | cons leading alternates =>
      obtain ⟨paths, listed, _⟩ := register_eq_ok_iff.mp registered
      obtain ⟨path, _, binding, _, rfl⟩ := (mem_cases_of_registered listed registered).mp member
      exact ⟨rfl, rfl⟩

end Suite

theorem Fixture.path_of_load {files : FileSystem} {path : String} {fixture : Fixture}
    (loaded : Fixture.load files path = .ok fixture) : fixture.path = path := by
  simp only [Fixture.load] at loaded
  split at loaded
  · rw [← Except.ok.inj loaded]
    rfl
  · cases loaded

namespace AuditUnit

section

variable {formatter : Formatter} {final : MemoryStore} {c : Case} {fixture : Fixture} {output : String}

theorem verdict_of_error {unit : AuditUnit} (about : unit.case? = some c) {failure : UnitFailure}
    (failed : (Suite.primary formatter c).2 = .error failure) : unit.verdict formatter final = .error failure := by
  cases unit with
  | check found => cases about
  | snapshot reference =>
      obtain rfl := Option.some.inj about
      rw [verdict, failed]
      rfl
  | alternate reference parser =>
      obtain rfl := Option.some.inj about
      simp only [verdict, failed]
      rfl
  | structural reference =>
      obtain rfl := Option.some.inj about
      simp only [verdict, failed]
      rfl

variable (given : (Suite.primary formatter c).2 = .ok (fixture, output)) (named : fixture.fileName = c.fileName)

include given

theorem finding_snapshot (held : ∃ stored, final.get? c.fileName = some stored) :
    Finding formatter final fixture output (.snapshot c) ((snapshot c).verdict formatter final) := by
  obtain ⟨stored, held⟩ := held
  rw [verdict, given, Suite.recordSnapshot_ok, MemoryStore.record_of_some held]
  by_cases same : stored = Snapshot.compose fixture.source output
  · rw [if_pos same]
    exact .snapshotHeld (same ▸ held)
  · rw [if_neg same]
    exact .snapshotDiffers _ held same

include named

theorem finding_alternate (parser : ParserName) :
    Finding formatter final fixture output (.alternate c parser) ((alternate c parser).verdict formatter final) := by
  have found : (alternate c parser).verdict formatter final =
      (verifyAlternate formatter fixture c.options output parser).result.isolate Suite.crashed := by
    simp only [verdict, Suite.alternateUnit, given]
    rfl
  rw [found, result_verifyAlternate, named]
  cases formatted : formatter.format fixture.source (c.options.withParser parser) with
  | ok actual =>
      by_cases same : actual = output
      · simp only [if_pos same]
        exact .agrees (same ▸ formatted)
      · simp only [if_neg same]
        exact .diverges formatted same
  | error fault =>
      cases fault with
      | error error => exact .alternateFails formatted
      | crash crash =>
          show Finding formatter final fixture output (.alternate c parser) (.error (Suite.crashed crash))
          rw [← Crash.blamed_eq]
          exact .alternateCrashes formatted

theorem finding_structural :
    Finding formatter final fixture output (.structural c) ((structural c).verdict formatter final) := by
  have found : (structural c).verdict formatter final = (do
      let trip ← RoundTrip.take formatter fixture c.options output
      Step.ofAttempt (.ofExcept trip.check)).result.isolate Suite.crashed := by
    simp only [verdict, Suite.structureUnit, given]
    rfl
  rw [found]
  cases taken : (RoundTrip.take formatter fixture c.options output).result with
  | error fault =>
      rw [Step.bind_of_error taken]
      cases fault with
      | error failure =>
          obtain ⟨error, unparsed, rfl⟩ := RoundTrip.take_eq_fail taken
          rw [named]
          exact .sourceUnparsed unparsed
      | crash crash =>
          show Finding formatter final fixture output (.structural c) (.error (Suite.crashed crash))
          rw [← Crash.blamed_eq]
          exact .structureCrashes (RoundTrip.take_eq_crash taken)
  | ok trip =>
      rw [Step.bind_of_ok taken, Step.result_ofAttempt, Attempt.isolate_ofExcept]
      cases checked : trip.check with
      | ok passed => exact .roundTrips (RoundTrip.take_check_eq_ok_iff.mp ⟨trip, taken, checked⟩)
      | error failure =>
          obtain ⟨initial, normalized, reparsed, before, parsed, canonical, again, cleaned, rfl⟩ :=
            RoundTrip.take_eq_ok_iff.mp taken
          rcases RoundTrip.check_eq_error checked with
            ⟨diagnostic, rfl, rfl⟩ | ⟨after, rfl, clean, differs, rfl⟩
          · obtain ⟨error, failed, rfl⟩ := RoundTrip.reparse_eq_diagnostic again
            simp only [named]
            exact .outputUnparsed failed
          · obtain ⟨report, parsedAgain, cleanedAgain⟩ := RoundTrip.reparse_eq_ok_iff.mp again
            simp only [named]
            exact .structureChanged ⟨initial, normalized, parsed, clean, canonical, cleaned⟩
              ⟨report, normalized, parsedAgain, rfl, canonical, cleanedAgain⟩ differs

end

end AuditUnit

namespace Suite

/-- A run ends with an outcome for every unit, whatever the formatter does. Where the leading parser has no output
for a case, its failure is the verdict of all units of the case, also of those with other parsers; where it has one,
each unit finds by itself what it can find. -/
theorem run_attributes_failures {files : FileSystem} {context : Context} {dir : String} {parsers : List ParserName}
    {versions : VersionRange} {coverage : Coverage} {overrides : Overrides} {suite : Suite}
    (registered : register files context dir parsers versions coverage overrides = .ok suite) (formatter : Formatter)
    (store : MemoryStore) :
    let run := suite.run formatter MemoryStore.snapshots store
    run.report.outcomes.map (·.name) = suite.unitNames ∧
    ∀ (place : Nat) (unit : AuditUnit) (c : Case), suite.units[place]? = some unit → unit.case? = some c →
      ∃ verdict, run.report.outcomes[place]? = some ⟨unit.name, verdict⟩ ∧
        match attempt files formatter c with
        | .error failure => verdict = .error failure
        | .ok (fixture, output) => AuditUnit.Finding formatter run.store fixture output unit verdict := by
  intro run
  refine ⟨?_, ?_⟩
  · rw [show run.report.outcomes = _ from run_outcomes suite formatter store, ← map_name_units, List.map_map]
    rfl
  intro place unit c found about
  refine ⟨_, run_outcome_getElem? suite formatter store found, ?_⟩
  have member : c ∈ suite.cases := mem_cases_of_mem_units (List.mem_of_getElem? found) about
  obtain ⟨caseName, read⟩ := case_of_registered registered member
  cases attempted : attempt files formatter c with
  | error failure => exact AuditUnit.verdict_of_error about ((primary_eq_attempt read formatter).trans attempted)
  | ok pair =>
      obtain ⟨fixture, output⟩ := pair
      have given := (primary_eq_attempt read formatter).trans attempted
      have loaded : Fixture.load files c.options.file = .ok fixture :=
        mapError_eq_ok_iff.mp (read.symm.trans (primary_eq_ok_iff.mp given).1)
      have named : fixture.fileName = c.fileName := by
        rw [Fixture.fileName, Fixture.path_of_load loaded, caseName]
      cases unit with
      | check found => cases about
      | snapshot reference =>
          obtain rfl := Option.some.inj about
          refine AuditUnit.finding_snapshot given ?_
          have recorded : snapshot? formatter reference = some (Snapshot.compose fixture.source output) := by
            simp [snapshot?, given, Except.toOption]
          rw [show run.store = _ from run_store suite formatter store]
          exact held_after_case member recorded store
      | alternate reference parser =>
          obtain rfl := Option.some.inj about
          exact AuditUnit.finding_alternate given named parser
      | structural reference =>
          obtain rfl := Option.some.inj about
          exact AuditUnit.finding_structural given named

theorem sample_run_attributes_failures : ∃ suite,
    register Sample.files Sample.context "/fx" [Sample.strict, Sample.lenient] .any .all .none = .ok suite ∧
    let formatter := Sample.crashing fun options => options.parser = Sample.strict
    ∃ (place : Nat) (c : Case), suite.units[place]? = some (AuditUnit.alternate c Sample.lenient) ∧
      formatter.format "x\n" (c.options.withParser Sample.lenient) = .ok "done" ∧
      (suite.run formatter MemoryStore.snapshots ⟨[]⟩).report.outcomes[place]? =
        some ⟨(AuditUnit.alternate c Sample.lenient).name, .error (.crashed "out of memory")⟩ := by
  obtain ⟨suite, registered⟩ := Sample.registered [Sample.lenient]
  refine ⟨suite, registered, ?_⟩
  intro formatter
  have member := (mem_cases_of_registered Sample.listed registered).mpr
    ⟨"/fx/a", List.mem_cons_self .., Sample.python2, List.mem_cons_self .., rfl⟩
  have alternates : suite.alternates = [Sample.lenient] := by rw [eq_of_registered Sample.listed registered]
  have inside := mem_units.mpr (.inr ⟨_, member, mem_caseUnits.mpr
    (.inr (.inl ⟨Sample.lenient, alternates ▸ List.mem_singleton_self _, rfl⟩))⟩)
  obtain ⟨place, found⟩ := List.mem_iff_getElem?.mp inside
  refine ⟨place, _, found, rfl, ?_⟩
  obtain ⟨verdict, outcome, explained⟩ :=
    (run_attributes_failures registered formatter ⟨[]⟩).2 place _ _ found rfl
  have loaded : Fixture.load Sample.files "/fx/a" = .ok ⟨"/fx/a", "x\n"⟩ := by cbv
  simp only [attempt, FormatOptions.resolve, loaded] at explained
  have blamed : verdict = .error (.crashed "out of memory") := explained
  rw [outcome, blamed]

end Suite

end FormatAudit
