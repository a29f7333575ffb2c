import FormatAudit.Proofs.Verification

/-! Why the two verifications of an output fail: each failure is named for the call, or the comparison, that gave it,
and a crash is one of the formatter. -/

namespace FormatAudit

theorem result_verifyAlternate (formatter : Formatter) (fixture : Fixture) (reference : CallOptions) (output : String)
    (parser : ParserName) : (verifyAlternate formatter fixture reference output parser).result =
      match formatter.format fixture.source (reference.withParser parser) with
      | .ok found =>
        if found = output then .ok ()
        else .fail (.divergence fixture.fileName reference.parser.text parser.text output found)
      | .error (.error error) => .fail (.format fixture.fileName error.message)
      | .error (.crash crash) => .error (.crash crash) := by
  unfold verifyAlternate
  have called : ((formatter.callFormat fixture.source (reference.withParser parser)).mapError
      fun error => UnitFailure.format fixture.fileName error.message).result =
        Attempt.mapError (fun error => .format fixture.fileName error.message)
          (formatter.format fixture.source (reference.withParser parser)) :=
    Step.result_mapError _ _
  cases formatted : formatter.format fixture.source (reference.withParser parser) with
  | ok found =>
      rw [formatted] at called
      rw [Step.bind_of_ok called]
      by_cases same : found = output
      · simp [same]
      · simp [same]
  | error fault =>
      rw [formatted] at called
      cases fault with
      | error error =>
          rw [Step.bind_of_error called]
          rfl
      | crash crash => rw [Step.bind_of_error called]

/-- The formatter crashes when it is asked about the structure of a source and of its output. -/
inductive Formatter.CrashesOn (formatter : Formatter) (source output : String) (options : CallOptions) : Crash → Prop
  | source {crash : Crash} : formatter.parse source options = .error (.crash crash) →
      CrashesOn formatter source output options crash
  | output {crash : Crash} : formatter.parse output options = .error (.crash crash) →
      CrashesOn formatter source output options crash
  | options {crash : Crash} : formatter.normalizeOptions options = .error crash →
      CrashesOn formatter source output options crash
  | tree {normalized : CallOptions} {tree : Tree} {crash : Crash} :
      formatter.normalizeOptions options = .ok normalized →
      Tree.normalize (formatter.clean normalized) tree = .error crash →
        CrashesOn formatter source output options crash

/-- The formatter parses a text with the given errors, and the given tree is what is left of its structure. -/
def Formatter.Reads (formatter : Formatter) (options : CallOptions) (text : String) (errors : List String)
    (tree : Tree) :
    Prop :=
  ∃ report normalized, formatter.parse text options = .ok report ∧ report.errors = errors ∧
    formatter.normalizeOptions options = .ok normalized ∧
    Tree.normalize (formatter.clean normalized) report.tree = .ok tree

namespace RoundTrip

variable {formatter : Formatter} {fixture : Fixture} {options normalized : CallOptions} {formatted : String}

theorem check_eq_error {trip : RoundTrip} {failure : UnitFailure} (failed : trip.check = .error failure) :
    (∃ diagnostic, trip.reparsed = .error diagnostic ∧ failure = .reparse trip.fixture diagnostic) ∨
      ∃ tree, trip.reparsed = .ok tree ∧ trip.initialErrors = [] ∧ tree.same trip.initial = false ∧
        failure = .structureChanged trip.fixture trip.initial.written tree.written := by
  unfold check at failed
  cases reparsed : trip.reparsed with
  | error diagnostic =>
      rw [reparsed] at failed
      exact .inl ⟨diagnostic, rfl, (Except.error.inj failed).symm⟩
  | ok tree =>
      rw [reparsed] at failed
      simp only at failed
      split at failed
      · cases failed
      · rename_i differs
        simp only [ne_eq, decide_not, Bool.or_eq_true, Bool.not_eq_true', decide_eq_false_iff_not, not_or,
          not_not, Bool.not_eq_true] at differs
        exact .inr ⟨tree, rfl, differs.1, differs.2, (Except.error.inj failed).symm⟩

theorem reparse_eq_diagnostic {diagnostic : String}
    (reparsed : (reparse formatter formatted options normalized).result = .ok (.error diagnostic)) :
    ∃ error, formatter.parse formatted options = .error (.error error) ∧ diagnostic = error.message := by
  unfold reparse Formatter.callParse at reparsed
  rcases parsed : formatter.parse formatted options with (error | crash) | report
  · simp only [parsed, Except.ok.injEq, Except.error.injEq] at reparsed
    exact ⟨error, rfl, reparsed.symm⟩
  · simp [parsed] at reparsed
  · simp [parsed, Attempt.ofCrash_eq_ok_iff, map_eq_ok_iff] at reparsed

theorem reparse_ne_fail {failure : UnitFailure} :
    (reparse formatter formatted options normalized).result ≠ .error (.error failure) := by
  unfold reparse Formatter.callParse
  rcases formatter.parse formatted options with (error | crash) | report
  · simp
  · simp
  · exact Attempt.ofCrash_ne_fail

theorem crashesOn_of_reparse (source : String) (canonical : formatter.normalizeOptions options = .ok normalized)
    {crash : Crash} (crashed : (reparse formatter formatted options normalized).result = .error (.crash crash)) :
    formatter.CrashesOn source formatted options crash := by
  unfold reparse Formatter.callParse at crashed
  rcases parsed : formatter.parse formatted options with (error | found) | report
  · simp [parsed] at crashed
  · simp only [parsed, Except.error.injEq, Fault.crash.injEq] at crashed
    exact .output (crashed ▸ parsed)
  · simp only [parsed, Attempt.ofCrash_eq_crash_iff] at crashed
    cases cleaned : Tree.normalize (formatter.clean normalized) report.tree with
    | error found =>
        rw [cleaned] at crashed
        exact .tree canonical (Except.error.inj crashed ▸ cleaned)
    | ok tree =>
        rw [cleaned] at crashed
        cases crashed

theorem take_eq_fail {failure : UnitFailure}
    (failed : (take formatter fixture options formatted).result = .error (.error failure)) :
    ∃ error, formatter.parse fixture.source options = .error (.error error) ∧
      failure = .parse fixture.fileName error.message := by
  unfold take at failed
  rcases Step.result_bind_eq_error_iff.mp failed with unparsed | ⟨initial, _, failed⟩
  · obtain ⟨error, parsed, same⟩ := Attempt.mapError_eq_fail_iff.mp unparsed
    exact ⟨error, parsed, same.symm⟩
  rcases Step.result_bind_eq_error_iff.mp failed with impossible | ⟨normalized, _, failed⟩
  · exact absurd impossible Attempt.ofCrash_ne_fail
  rcases Step.result_bind_eq_error_iff.mp failed with impossible | ⟨reparsed, _, failed⟩
  · exact absurd impossible reparse_ne_fail
  rcases Step.result_bind_eq_error_iff.mp failed with impossible | ⟨tree, _, failed⟩
  · exact absurd impossible Attempt.ofCrash_ne_fail
  · cases failed

theorem take_eq_crash {crash : Crash}
    (crashed : (take formatter fixture options formatted).result = .error (.crash crash)) :
    formatter.CrashesOn fixture.source formatted options crash := by
  unfold take at crashed
  rcases Step.result_bind_eq_error_iff.mp crashed with initial | ⟨initial, _, crashed⟩
  · exact .source (Attempt.mapError_eq_crash_iff.mp initial)
  rcases Step.result_bind_eq_error_iff.mp crashed with options | ⟨normalized, canonical, crashed⟩
  · exact .options (Attempt.ofCrash_eq_crash_iff.mp options)
  have canonical := Attempt.ofCrash_eq_ok_iff.mp canonical
  rcases Step.result_bind_eq_error_iff.mp crashed with again | ⟨reparsed, _, crashed⟩
  · exact crashesOn_of_reparse fixture.source canonical again
  rcases Step.result_bind_eq_error_iff.mp crashed with cleaning | ⟨tree, _, crashed⟩
  · exact .tree canonical (Attempt.ofCrash_eq_crash_iff.mp cleaning)
  · cases crashed

end RoundTrip

end FormatAudit
