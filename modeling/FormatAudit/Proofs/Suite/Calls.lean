import FormatAudit.Proofs.Formatter.Steps
import FormatAudit.Proofs.Interpreter.Selection
import FormatAudit.Proofs.Suite.Registration
import FormatAudit.Suite.Run

/-! The calls that a run makes, in order. They follow from what the calls before them in the same case gave; what a
unit makes of its calls, and what the store says, changes none of the calls after it. -/

namespace FormatAudit

/-- The calls made to compare the structure of a source with that of its output. -/
def Formatter.treeCalls (formatter : Formatter) (source output : String) (options : CallOptions) : List Call :=
  ⟨.parse, source, options⟩ ::
    match formatter.parse source options, formatter.normalizeOptions options with
    | .ok _, .ok _ => [⟨.parse, output, options⟩]
    | _, _ => []

/-- The calls made for a source: one with the leading parser, and if that has an output, one with each other parser
and those that compare the structure. -/
def Formatter.caseCalls (formatter : Formatter) (leading : ParserName) (alternates : List ParserName)
    (structural : Bool)
    (source : String) (optionsFor : ParserName → CallOptions) : List Call :=
  ⟨.format, source, optionsFor leading⟩ ::
    match formatter.format source (optionsFor leading) with
    | .ok output =>
      alternates.map (fun parser => ⟨.format, source, optionsFor parser⟩) ++
        if structural then formatter.treeCalls source output (optionsFor leading) else []
    | .error _ => []

namespace Formatter

variable (formatter : Formatter) (leading : ParserName) (alternates : List ParserName) (structural : Bool)
    (source : String)
  (optionsFor : ParserName → CallOptions)

theorem options_of_mem_caseCalls {call : Call}
    (made : call ∈ formatter.caseCalls leading alternates structural source optionsFor) :
    ∃ parser, call.options = optionsFor parser := by
  rcases List.mem_cons.mp made with rfl | later
  · exact ⟨leading, rfl⟩
  · split at later
    · rename_i output _
      rcases List.mem_append.mp later with alternate | tree
      · obtain ⟨parser, _, rfl⟩ := List.mem_map.mp alternate
        exact ⟨parser, rfl⟩
      · split at tree
        · refine ⟨leading, ?_⟩
          rcases List.mem_cons.mp tree with rfl | again
          · rfl
          · split at again <;> simp_all
        · simp at tree
    · simp at later

theorem filter_format_treeCalls (output : String) (options : CallOptions) :
    (formatter.treeCalls source output options).filter (·.kind = .format) = [] := by
  unfold treeCalls
  split <;> rfl

theorem filter_format_caseCalls :
    (formatter.caseCalls leading alternates structural source optionsFor).filter (·.kind = .format) =
      ⟨.format, source, optionsFor leading⟩ :: match formatter.format source (optionsFor leading) with
        | .ok _ => alternates.map fun parser => ⟨.format, source, optionsFor parser⟩
        | .error _ => [] := by
  unfold caseCalls
  split
  · cases structural <;> simp [filter_format_treeCalls, List.filter_map, Function.comp_def]
  · rfl

end Formatter

theorem calls_verifyAlternate (formatter : Formatter) (fixture : Fixture) (reference : CallOptions) (output : String)
    (parser : ParserName) : (verifyAlternate formatter fixture reference output parser).calls =
      [⟨.format, fixture.source, reference.withParser parser⟩] := by
  refine Step.calls_bind_of_silent _ ?_
  intro found
  split <;> rfl

theorem RoundTrip.calls_take (formatter : Formatter) (fixture : Fixture) (options : CallOptions) (formatted : String) :
    (take formatter fixture options formatted).calls = formatter.treeCalls fixture.source formatted options := by
  unfold take Formatter.treeCalls
  cases parsed : formatter.parse fixture.source options with
  | error fault =>
      have failed : ∃ other, ((formatter.callParse fixture.source options).mapError fun error =>
          UnitFailure.parse fixture.fileName error.message).result = .error other := by
        rw [Step.result_mapError, Formatter.callParse, parsed]
        cases fault <;> exact ⟨_, rfl⟩
      obtain ⟨other, failed⟩ := failed
      rw [Step.bind_of_error failed]
      rfl
  | ok report =>
      rw [Step.bind_of_ok (a := report) (by rw [Step.result_mapError, Formatter.callParse, parsed]; rfl)]
      refine congrArg (List.cons _) ?_
      cases canonical : formatter.normalizeOptions options with
      | error crash => rfl
      | ok normalized =>
          rw [Step.bind_of_ok (a := normalized) rfl]
          refine Step.calls_bind_of_silent _ ?_
          intro reparsed
          exact Step.calls_bind_of_silent _ fun _ => rfl

namespace Suite

section

variable {σ : Type} (suite : Suite) (formatter : Formatter) (snapshots : SnapshotStore σ) (c : Case)

theorem calls_alternateUnit (fixture : Fixture) (output : String) (parser : ParserName) :
    (alternateUnit formatter c (.ok (fixture, output)) parser).1 =
      [⟨.format, fixture.source, c.options.withParser parser⟩] :=
  calls_verifyAlternate formatter fixture c.options output parser

theorem calls_structureUnit (fixture : Fixture) (output : String) :
    (structureUnit formatter c (.ok (fixture, output))).1 = formatter.treeCalls fixture.source output c.options := by
  rw [← RoundTrip.calls_take]
  exact Step.calls_bind_of_silent _ fun _ => rfl

theorem calls_runCase_eq_append (store : σ) : (suite.runCase formatter snapshots store c).calls =
    (primary formatter c).1 ++
      ((suite.alternates.flatMap fun parser => (alternateUnit formatter c (primary formatter c).2 parser).1) ++
        if suite.structural then (structureUnit formatter c (primary formatter c).2).1 else []) := by
  unfold runCase
  cases suite.structural <;> simp [List.flatMap_map]

theorem primary_of_error {fixture : Fixture} (read : c.fixture = .ok fixture) {fault : Fault FormatterError}
    (failed : formatter.format fixture.source c.options = .error fault) :
    ∃ failure, primary formatter c = ([⟨.format, fixture.source, c.options⟩], .error failure) := by
  rw [primary, read]
  simp only [Step.mapError, Formatter.callFormat, failed]
  cases fault <;> exact ⟨_, rfl⟩

theorem primary_of_ok {fixture : Fixture} (read : c.fixture = .ok fixture) {output : String}
    (formatted : formatter.format fixture.source c.options = .ok output) :
    primary formatter c = ([⟨.format, fixture.source, c.options⟩], .ok (fixture, output)) := by
  rw [primary, read]
  simp only [Step.mapError, Formatter.callFormat, formatted]
  rfl

theorem calls_runCase (store : σ) : (suite.runCase formatter snapshots store c).calls =
    match c.fixture with
    | .ok fixture => formatter.caseCalls c.options.parser suite.alternates suite.structural fixture.source
        c.options.withParser
    | .error _ => [] := by
  have withoutOutput (failure : UnitFailure) :
      ((suite.alternates.flatMap fun parser => (alternateUnit formatter c (.error failure) parser).1) ++
        if suite.structural then (structureUnit formatter c (.error failure)).1 else []) = [] := by
    have none (parser : ParserName) : (alternateUnit formatter c (.error failure) parser).1 = [] := rfl
    have noneToo : (structureUnit formatter c (.error failure)).1 = [] := rfl
    simp [none, noneToo]
  rw [calls_runCase_eq_append]
  cases read : c.fixture with
  | error failure =>
      have unread : primary formatter c = ([], .error failure) := by rw [primary, read]
      rw [unread, withoutOutput, List.append_nil]
  | ok fixture =>
      have same : c.options.withParser c.options.parser = c.options := rfl
      simp only [Formatter.caseCalls, same]
      cases formatted : formatter.format fixture.source c.options with
      | error fault =>
          obtain ⟨failure, failed⟩ := primary_of_error formatter c read formatted
          rw [failed, withoutOutput, List.append_nil]
      | ok output =>
          rw [primary_of_ok formatter c read formatted]
          simp only [calls_alternateUnit, calls_structureUnit]
          rw [← List.map_eq_flatMap, List.singleton_append]

theorem calls_runCases (store : σ) (cases : List Case) : (suite.runCases formatter snapshots store cases).calls =
    cases.flatMap fun c => match c.fixture with
      | .ok fixture =>
        formatter.caseCalls c.options.parser suite.alternates suite.structural fixture.source c.options.withParser
      | .error _ => [] := by
  induction cases generalizing store with
  | nil => rfl
  | cons c rest ih => rw [runCases, calls_runCase, ih, List.flatMap_cons]

end

theorem flatMap_of_mem {α β : Type} {items : List α} {item : α} {f : α → List β} (distinct : items.Nodup)
    (member : item ∈ items) (others : ∀ other ∈ items, other ≠ item → f other = []) :
      items.flatMap f = f item := by
  obtain ⟨before, after, rfl⟩ := List.append_of_mem member
  have absent := (List.nodup_cons.mp (List.nodup_middle.mp distinct)).1
  have nothing {part : List α} (inside : part ⊆ before ++ after) : part.flatMap f = [] := by
    refine List.flatMap_eq_nil_iff.mpr ?_
    intro other present
    refine others other ?_ ?_
    · rcases List.mem_append.mp (inside present) with earlier | later
      · simp [earlier]
      · simp [later]
    · rintro rfl
      exact absent (inside present)
  rw [List.flatMap_append, List.flatMap_cons, nothing (List.subset_append_left _ _),
    nothing (List.subset_append_right _ _), List.nil_append, List.append_nil]

section

variable {files : FileSystem} {context : Context} {dir : String} {leading : ParserName} {alternates : List ParserName}
  {versions : VersionRange} {coverage : Coverage} {overrides : Overrides} {suite : Suite} {paths : List String}

theorem calls_of_registered (listed : Fixture.enumerate files dir = .ok paths)
    (registered : register files context dir (leading :: alternates) versions coverage overrides = .ok suite)
    (formatter : Formatter) {σ : Type} (snapshots : SnapshotStore σ) (store : σ) :
    (suite.run formatter snapshots store).calls = paths.flatMap fun path =>
      (InterpreterSet.build context.interpreters versions coverage).bindings.flatMap fun binding =>
        match Fixture.load files path with
        | .ok fixture => formatter.caseCalls leading alternates context.structural fixture.source
            fun parser => (FormatOptions.merged overrides).resolve parser binding path
        | .error _ => [] := by
  rw [eq_of_registered listed registered, run, calls_runCases, List.flatMap_assoc]
  refine List.flatMap_congr fun path _ => ?_
  rw [casesOf, List.flatMap_map]
  refine List.flatMap_congr fun binding _ => ?_
  cases loaded : Fixture.load files path with
  | error failure => simp only [loadFixture, loaded, Except.mapError]
  | ok fixture =>
      simp only [loadFixture, loaded, Except.mapError]
      rfl

/-- The calls of a run, fixture by fixture and interpreter by interpreter: none for a fixture that cannot be read,
else one with the leading parser, and if that gives an output, one with each other parser and those on the structure. So
the leading parser's output is asked for once, and each other parser's no more than once. -/
theorem run_calls (listed : Fixture.enumerate files dir = .ok paths)
    (registered : register files context dir (leading :: alternates) versions coverage overrides = .ok suite)
    (formatter : Formatter) {σ : Type} (snapshots : SnapshotStore σ) (store : σ) :
    let calls := (suite.run formatter snapshots store).calls
    let bindings := (InterpreterSet.build context.interpreters versions coverage).bindings
    let optionsFor (path : String) (binding : Binding) (parser : ParserName) : CallOptions :=
      (FormatOptions.merged overrides).resolve parser binding path
    (calls = paths.flatMap fun path => bindings.flatMap fun binding =>
      match Fixture.load files path with
      | .ok fixture =>
        formatter.caseCalls leading alternates context.structural fixture.source (optionsFor path binding)
      | .error _ => []) ∧
    (files.Proper → ∀ path ∈ paths, ∀ binding ∈ bindings, ∀ fixture,
      Fixture.load files path = .ok fixture →
      calls.filter (fun call => call.kind = .format ∧ call.options.file = path ∧
        call.options.interpreter = binding) =
        ⟨.format, fixture.source, optionsFor path binding leading⟩ ::
          match formatter.format fixture.source (optionsFor path binding leading) with
          | .ok _ => alternates.map fun parser => ⟨.format, fixture.source, optionsFor path binding parser⟩
          | .error _ => []) := by
  intro calls bindings optionsFor
  have trace := calls_of_registered listed registered formatter snapshots store
  refine ⟨trace, ?_⟩
  intro proper path present binding chosen fixture loaded
  have distinct : paths.Nodup := (Fixture.nodup_fileNames proper listed).of_map
  -- a call tells its fixture and its interpreter by its options
  have about (other : String) (under : Binding) (source : String) : ∀ call ∈ formatter.caseCalls leading alternates
      context.structural source (optionsFor other under), call.options.file = other ∧
        call.options.interpreter = under := by
    intro call made
    obtain ⟨parser, options⟩ := Formatter.options_of_mem_caseCalls _ _ _ _ _ _ made
    rw [options]
    exact ⟨rfl, rfl⟩
  rw [show calls = _ from trace, List.filter_flatMap, flatMap_of_mem distinct present, List.filter_flatMap,
    flatMap_of_mem (InterpreterSet.nodup_bindings _ _ _) chosen]
  · rw [loaded, ← Formatter.filter_format_caseCalls _ _ _ context.structural]
    refine List.filter_congr ?_
    intro call made
    simp [about path binding fixture.source call made]
  · intro under _ different
    rw [loaded]
    refine List.filter_eq_nil_iff.mpr ?_
    intro call made
    simp [about path under fixture.source call made, different]
  · intro other _ different
    rw [List.filter_flatMap]
    refine List.flatMap_eq_nil_iff.mpr ?_
    intro under _
    split
    · rename_i found _
      refine List.filter_eq_nil_iff.mpr ?_
      intro call made
      simp [about other under found.source call made, different]
    · rfl

end

theorem sample_run_calls : ∃ suite,
    register Sample.files Sample.context "/fx" [Sample.strict, Sample.lenient] .any .all .none = .ok suite ∧
    let run := suite.run (Sample.crashing fun options => options.file = "/fx/a" ∧
      options.interpreter = Sample.python2)
      MemoryStore.snapshots ⟨[]⟩
    run.calls.map (·.kind) = .format :: (List.replicate 3 [.format, .format, .parse, .parse]).flatten ∧
    (run.calls.filter fun call => call.kind = .format ∧ call.options.file = "/fx/a" ∧
      call.options.interpreter = Sample.python2).length = 1 := by
  obtain ⟨suite, registered⟩ := Sample.registered [Sample.lenient]
  refine ⟨suite, registered, ?_⟩
  obtain ⟨trace, once⟩ := run_calls Sample.listed registered
    (Sample.crashing fun options => options.file = "/fx/a" ∧ options.interpreter = Sample.python2)
    MemoryStore.snapshots ⟨[]⟩
  have loaded : Fixture.load Sample.files "/fx/a" = .ok ⟨"/fx/a", "x\n"⟩ := by cbv
  have chosen : Sample.python2 ∈ (InterpreterSet.build Sample.context.interpreters .any .all).bindings := by decide
  intro run
  refine ⟨?_, ?_⟩
  · rw [show run.calls = _ from trace]
    cbv
  · rw [once Sample.proper "/fx/a" (by decide) Sample.python2 chosen _ loaded]
    rfl

end Suite

end FormatAudit
