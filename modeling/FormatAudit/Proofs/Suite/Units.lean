import FormatAudit.Proofs.Formatter.Steps
import FormatAudit.Proofs.Snapshot.Store
import FormatAudit.Suite.Run

/-! The units of a suite as data. A run with snapshots in memory gives each unit the outcome that the unit has
by itself in the store at the end of the run. -/

namespace FormatAudit

theorem UnitOutcome.passed_iff {outcome : UnitOutcome} : outcome.passed = true ↔ outcome.verdict = .ok () := by
  unfold passed
  cases outcome.verdict <;> simp [Except.isOk, Except.toBool]

/-- A check on the choice of interpreters, or one of the things that are verified of a case. -/
inductive AuditUnit
  | check (found : SetCheck)
  | snapshot (c : Case)
  | alternate (c : Case) (parser : ParserName)
  | structural (c : Case)

namespace AuditUnit

def name : AuditUnit → String
  | .check found => found.name
  | .snapshot c => c.primaryName
  | .alternate c parser => c.verifyName parser
  | .structural c => c.structureName

/-- The case that a unit is about, unless it is about the choice of interpreters. -/
def case? : AuditUnit → Option Case
  | .check _ => none
  | .snapshot c | .alternate c _ | .structural c => some c

/-- What a unit finds by itself when snapshots are compared with a store. -/
def verdict (formatter : Formatter) (store : MemoryStore) : AuditUnit → Verdict
  | .check found => found.verdict
  | .snapshot c => (Suite.recordSnapshot MemoryStore.snapshots c (Suite.primary formatter c).2 store).1
  | .alternate c parser => (Suite.alternateUnit formatter c (Suite.primary formatter c).2 parser).2.verdict
  | .structural c => (Suite.structureUnit formatter c (Suite.primary formatter c).2).2.verdict

def outcome (formatter : Formatter) (store : MemoryStore) (unit : AuditUnit) : UnitOutcome :=
  ⟨unit.name, unit.verdict formatter store⟩

end AuditUnit

namespace Suite

def caseUnits (suite : Suite) (c : Case) : List AuditUnit :=
  .snapshot c :: suite.alternates.map (.alternate c) ++ if suite.structural then [.structural c] else []

def units (suite : Suite) : List AuditUnit :=
  suite.checks.map .check ++ suite.cases.flatMap suite.caseUnits

theorem map_name_units (suite : Suite) : suite.units.map AuditUnit.name = suite.unitNames := by
  have ofCase (c : Case) : (suite.caseUnits c).map AuditUnit.name = suite.caseNames c := by
    unfold caseUnits caseNames
    cases suite.structural <;> simp [AuditUnit.name, Function.comp_def]
  simp [units, unitNames, List.map_flatMap, ofCase, AuditUnit.name, Function.comp_def]

theorem mem_caseUnits {suite : Suite} {c : Case} {unit : AuditUnit} : unit ∈ suite.caseUnits c ↔
    unit = .snapshot c ∨ (∃ parser ∈ suite.alternates, unit = .alternate c parser) ∨
      suite.structural = true ∧ unit = .structural c := by
  unfold caseUnits
  cases suite.structural <;> simp [eq_comm]

theorem mem_units {suite : Suite} {unit : AuditUnit} : unit ∈ suite.units ↔
    (∃ found ∈ suite.checks, unit = .check found) ∨ ∃ c ∈ suite.cases, unit ∈ suite.caseUnits c := by
  simp [units, eq_comm]

theorem mem_cases_of_mem_units {suite : Suite} {unit : AuditUnit} {c : Case} (member : unit ∈ suite.units)
    (about : unit.case? = some c) : c ∈ suite.cases := by
  rcases mem_units.mp member with ⟨found, _, rfl⟩ | ⟨other, present, inside⟩
  · simp [AuditUnit.case?] at about
  · rcases mem_caseUnits.mp inside with rfl | ⟨parser, _, rfl⟩ | ⟨_, rfl⟩ <;>
      exact Option.some.inj about ▸ present

theorem recordSnapshot_error (c : Case) (failure : UnitFailure) (store : MemoryStore) :
    recordSnapshot MemoryStore.snapshots c (.error failure) store = (.error failure, store) := rfl

theorem recordSnapshot_ok (c : Case) (fixture : Fixture) (output : String) (store : MemoryStore) :
    recordSnapshot MemoryStore.snapshots c (.ok (fixture, output)) store =
      store.record c.fileName (Snapshot.compose fixture.source output) := by
  simp only [recordSnapshot, MemoryStore.snapshots, Attempt.isolate_ofExcept]

theorem recordSnapshot_verdict_of_prefix (c : Case) (output : Except UnitFailure (Fixture × String))
    {store later : MemoryStore}
    (grown : (recordSnapshot MemoryStore.snapshots c output store).2.entries <+: later.entries) :
    (recordSnapshot MemoryStore.snapshots c output later).1 =
      (recordSnapshot MemoryStore.snapshots c output store).1 := by
  rcases output with failure | ⟨fixture, text⟩
  · rfl
  · rw [recordSnapshot_ok] at grown ⊢
    rw [recordSnapshot_ok]
    exact MemoryStore.record_verdict_of_prefix grown

def recordCase (formatter : Formatter) (store : MemoryStore) (c : Case) : MemoryStore :=
  (recordSnapshot MemoryStore.snapshots c (primary formatter c).2 store).2

theorem recordCase_grows (formatter : Formatter) (store : MemoryStore) (c : Case) :
    store.entries <+: (recordCase formatter store c).entries := by
  unfold recordCase
  rcases (primary formatter c).2 with failure | ⟨fixture, text⟩
  · exact List.prefix_refl _
  · rw [recordSnapshot_ok]
    exact MemoryStore.record_grows _ _ _

theorem foldl_recordCase_grows (formatter : Formatter) (cases : List Case) (store : MemoryStore) :
    store.entries <+: (cases.foldl (recordCase formatter) store).entries := by
  induction cases generalizing store with
  | nil => exact List.prefix_refl _
  | cons c rest ih => exact (recordCase_grows formatter store c).trans (ih _)

theorem runCases_store (suite : Suite) (formatter : Formatter) (cases : List Case) (store : MemoryStore) :
    (suite.runCases formatter MemoryStore.snapshots store cases).store = cases.foldl (recordCase formatter) store := by
  induction cases generalizing store with
  | nil => rfl
  | cons c rest ih => exact ih (recordCase formatter store c)

theorem run_store (suite : Suite) (formatter : Formatter) (store : MemoryStore) :
    (suite.run formatter MemoryStore.snapshots store).store = suite.cases.foldl (recordCase formatter) store :=
  suite.runCases_store formatter suite.cases store

theorem runCase_outcomes (suite : Suite) (formatter : Formatter) (c : Case) {store later : MemoryStore}
    (grown : (recordCase formatter store c).entries <+: later.entries) :
    (suite.runCase formatter MemoryStore.snapshots store c).outcomes =
      (suite.caseUnits c).map (AuditUnit.outcome formatter later) := by
  have first : (⟨c.primaryName,
    (recordSnapshot MemoryStore.snapshots c (primary formatter c).2 store).1⟩ : UnitOutcome) =
      AuditUnit.outcome formatter later (.snapshot c) := by
    rw [AuditUnit.outcome, AuditUnit.verdict, recordSnapshot_verdict_of_prefix c (primary formatter c).2 grown]
    rfl
  have others (parser : ParserName) : (alternateUnit formatter c (primary formatter c).2 parser).2 =
      AuditUnit.outcome formatter later (.alternate c parser) := rfl
  have last : (structureUnit formatter c (primary formatter c).2).2 =
      AuditUnit.outcome formatter later (.structural c) := rfl
  unfold caseUnits runCase
  cases suite.structural <;> simp [first, others, last, Function.comp_def]

theorem runCases_outcomes (suite : Suite) (formatter : Formatter) (cases : List Case) {store later : MemoryStore}
    (grown : (cases.foldl (recordCase formatter) store).entries <+: later.entries) :
    (suite.runCases formatter MemoryStore.snapshots store cases).outcomes =
      (cases.flatMap suite.caseUnits).map (AuditUnit.outcome formatter later) := by
  induction cases generalizing store with
  | nil => rfl
  | cons c rest ih =>
      have afterFirst := (foldl_recordCase_grows formatter rest _).trans grown
      rw [List.flatMap_cons, List.map_append, ← suite.runCase_outcomes formatter c afterFirst, ← ih grown]
      rfl

theorem run_outcomes (suite : Suite) (formatter : Formatter) (store : MemoryStore) :
    (suite.run formatter MemoryStore.snapshots store).report.outcomes =
      suite.units.map (AuditUnit.outcome formatter (suite.run formatter MemoryStore.snapshots store).store) := by
  have cases := suite.runCases_outcomes formatter suite.cases
    (List.prefix_refl (suite.cases.foldl (recordCase formatter) store).entries)
  rw [run_store]
  simp only [run, units, List.map_append, cases]
  simp [AuditUnit.outcome, AuditUnit.name, AuditUnit.verdict, Function.comp_def]

theorem run_outcome_getElem? (suite : Suite) (formatter : Formatter) (store : MemoryStore) {place : Nat}
    {unit : AuditUnit} (found : suite.units[place]? = some unit) :
    (suite.run formatter MemoryStore.snapshots store).report.outcomes[place]? =
      some (unit.outcome formatter (suite.run formatter MemoryStore.snapshots store).store) := by
  rw [run_outcomes, List.getElem?_map, found, Option.map_some]

end Suite

end FormatAudit
