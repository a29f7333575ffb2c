import FormatAudit.Proofs.Formatter.Steps
import FormatAudit.Proofs.Results
import FormatAudit.Verification

/-! When the two verifications of an output succeed. -/

namespace FormatAudit

theorem verifyAlternate_eq_ok_iff {formatter : Formatter} {fixture : Fixture} {reference : CallOptions}
    {output : String} {parser : ParserName} :
    (verifyAlternate formatter fixture reference output parser).result = .ok () ↔
      formatter.format fixture.source (reference.withParser parser) = .ok output := by
  simp only [verifyAlternate, Step.result_bind_eq_ok_iff, Step.result_mapError, Attempt.mapError_eq_ok_iff,
    Formatter.callFormat]
  constructor
  · rintro ⟨found, formatted, compared⟩
    split at compared
    · rename_i same
      rw [formatted, same]
    · cases compared
  · intro formatted
    exact ⟨output, formatted, by simp⟩

/-- A source and its output both parse and nothing crashes on the way; the trees are the same after cleaning,
unless the source had errors of its own. -/
def RoundTrips (formatter : Formatter) (source output : String) (options : CallOptions) : Prop :=
  ∃ before after normalized treeBefore treeAfter,
    formatter.parse source options = .ok before ∧ formatter.parse output options = .ok after ∧
    formatter.normalizeOptions options = .ok normalized ∧
    Tree.normalize (formatter.clean normalized) before.tree = .ok treeBefore ∧
    Tree.normalize (formatter.clean normalized) after.tree = .ok treeAfter ∧
    (before.errors = [] → treeAfter.same treeBefore = true)

namespace RoundTrip

theorem check_eq_ok_iff {trip : RoundTrip} : trip.check = .ok () ↔
    ∃ tree, trip.reparsed = .ok tree ∧ (trip.initialErrors = [] → tree.same trip.initial = true) := by
  unfold check
  cases trip.reparsed with
  | error diagnostic => simp
  | ok tree =>
      by_cases clean : trip.initialErrors = []
      · cases same : tree.same trip.initial <;> simp [clean, same]
      · simp [clean]

theorem reparse_eq_ok_iff {formatter : Formatter} {formatted : String} {options normalized : CallOptions}
    {tree : Tree} : (reparse formatter formatted options normalized).result = .ok (.ok tree) ↔
      ∃ report, formatter.parse formatted options = .ok report ∧
        Tree.normalize (formatter.clean normalized) report.tree = .ok tree := by
  unfold reparse Formatter.callParse
  rcases formatter.parse formatted options with (error | crash) | report
  · simp
  · simp
  · simp [Attempt.ofCrash_eq_ok_iff, map_eq_ok_iff]

theorem take_eq_ok_iff {formatter : Formatter} {fixture : Fixture} {options : CallOptions} {formatted : String}
    {trip : RoundTrip} : (take formatter fixture options formatted).result = .ok trip ↔
      ∃ before normalized reparsed treeBefore, formatter.parse fixture.source options = .ok before ∧
        formatter.normalizeOptions options = .ok normalized ∧
        (reparse formatter formatted options normalized).result = .ok reparsed ∧
        Tree.normalize (formatter.clean normalized) before.tree = .ok treeBefore ∧
        trip = ⟨fixture.fileName, before.errors, treeBefore, reparsed⟩ := by
  simp only [take, Step.result_bind_eq_ok_iff, Step.result_mapError, Attempt.mapError_eq_ok_iff,
    Step.result_ofAttempt, Attempt.ofCrash_eq_ok_iff, Formatter.callParse, Step.result_pure, Except.ok.injEq]
  constructor
  · rintro ⟨before, parsed, normalized, canonical, reparsed, again, tree, cleaned, rfl⟩
    exact ⟨before, normalized, reparsed, tree, parsed, canonical, again, cleaned, rfl⟩
  · rintro ⟨before, normalized, reparsed, tree, parsed, canonical, again, cleaned, rfl⟩
    exact ⟨before, parsed, normalized, canonical, reparsed, again, tree, cleaned, rfl⟩

theorem take_check_eq_ok_iff {formatter : Formatter} {fixture : Fixture} {options : CallOptions} {formatted : String} :
    (∃ trip, (take formatter fixture options formatted).result = .ok trip ∧ trip.check = .ok ()) ↔
      RoundTrips formatter fixture.source formatted options := by
  constructor
  · rintro ⟨trip, taken, checked⟩
    obtain ⟨before, normalized, reparsed, treeBefore, parsed, canonical, again, cleaned, rfl⟩ :=
      take_eq_ok_iff.mp taken
    obtain ⟨treeAfter, rfl, same⟩ := check_eq_ok_iff.mp checked
    obtain ⟨after, parsedAgain, cleanedAgain⟩ := reparse_eq_ok_iff.mp again
    exact ⟨before, after, normalized, treeBefore, treeAfter, parsed, parsedAgain, canonical, cleaned,
      cleanedAgain, same⟩
  · rintro ⟨before, after, normalized, treeBefore, treeAfter, parsed, parsedAgain, canonical, cleaned,
      cleanedAgain, same⟩
    have again := reparse_eq_ok_iff.mpr ⟨after, parsedAgain, cleanedAgain⟩
    exact ⟨_, take_eq_ok_iff.mpr ⟨before, normalized, _, treeBefore, parsed, canonical, again, cleaned, rfl⟩,
      check_eq_ok_iff.mpr ⟨treeAfter, rfl, same⟩⟩

end RoundTrip

end FormatAudit
