import FormatAudit.Proofs.Suite.Units
import FormatAudit.Proofs.Verification

/-! When the units of a case pass. Each of them needs the output of the leading parser; those after the first
need nothing else of what ran before them. -/

namespace FormatAudit

namespace Suite

theorem primary_eq_ok_iff {formatter : Formatter} {c : Case} {fixture : Fixture} {output : String} :
    (primary formatter c).2 = .ok (fixture, output) ↔
      c.fixture = .ok fixture ∧ formatter.format fixture.source c.options = .ok output := by
  unfold primary
  cases read : c.fixture with
  | error failure => simp
  | ok found =>
      simp only [Attempt.isolate_eq_ok_iff, map_eq_ok_iff, Step.result_mapError, Attempt.mapError_eq_ok_iff,
        Formatter.callFormat, Prod.mk.injEq, Except.ok.injEq]
      constructor
      · rintro ⟨_, formatted, rfl, rfl⟩
        exact ⟨rfl, formatted⟩
      · rintro ⟨rfl, formatted⟩
        exact ⟨output, formatted, rfl, rfl⟩

theorem dependent_eq_ok_iff {primary : Except UnitFailure (Fixture × String)}
    {unit : Fixture → String → Step UnitFailure Unit} : (dependent primary unit).2 = .ok () ↔
      ∃ fixture output, primary = .ok (fixture, output) ∧ (unit fixture output).result = .ok () := by
  rcases primary with failure | ⟨fixture, output⟩
  · simp [dependent]
  · simp only [dependent, Attempt.isolate_eq_ok_iff, Except.ok.injEq, Prod.mk.injEq]
    constructor
    · exact fun passed => ⟨fixture, output, ⟨rfl, rfl⟩, passed⟩
    · rintro ⟨_, _, ⟨rfl, rfl⟩, passed⟩
      exact passed

end Suite

namespace AuditUnit

theorem alternate_verdict_eq_ok_iff {formatter : Formatter} {store : MemoryStore} {c : Case} {parser : ParserName} :
    (alternate c parser).verdict formatter store = .ok () ↔ ∃ fixture output, c.fixture = .ok fixture ∧
      formatter.format fixture.source c.options = .ok output ∧
      formatter.format fixture.source (c.options.withParser parser) = .ok output := by
  change (Suite.dependent (Suite.primary formatter c).2 fun fixture output =>
    verifyAlternate formatter fixture c.options output parser).2 = .ok () ↔ _
  simp only [Suite.dependent_eq_ok_iff, Suite.primary_eq_ok_iff, verifyAlternate_eq_ok_iff, and_assoc]

theorem structural_verdict_eq_ok_iff {formatter : Formatter} {store : MemoryStore} {c : Case} :
    (structural c).verdict formatter store = .ok () ↔ ∃ fixture output, c.fixture = .ok fixture ∧
      formatter.format fixture.source c.options = .ok output ∧
      RoundTrips formatter fixture.source output c.options := by
  change (Suite.dependent (Suite.primary formatter c).2 fun fixture output => do
    let trip ← RoundTrip.take formatter fixture c.options output
    Step.ofAttempt (.ofExcept trip.check)).2 = .ok () ↔ _
  simp only [Suite.dependent_eq_ok_iff, Suite.primary_eq_ok_iff, Step.result_bind_eq_ok_iff, Step.result_ofAttempt,
    Attempt.ofExcept_eq_ok_iff, RoundTrip.take_check_eq_ok_iff, and_assoc]

end AuditUnit

end FormatAudit
