import FormatAudit.Proofs.Formatter.Agreement
import FormatAudit.Proofs.Suite.FinalStore

/-! Two runs under formatters that agree in part. A unit sees nothing of what a formatter does to other fixtures or
with other parsers; only through the entry of its own fixture does it see other interpreters. -/

namespace FormatAudit

namespace Suite

theorem primary_congr {first second : Formatter} {c : Case}
    (agree : ∀ source, first.format source c.options = second.format source c.options) :
    primary first c = primary second c := by
  unfold primary
  cases c.fixture with
  | error failure => rfl
  | ok fixture => simp only [Formatter.callFormat_congr (agree fixture.source)]

theorem recordSnapshot_verdict_congr (c : Case) (output : Except UnitFailure (Fixture × String))
    {store other : MemoryStore} (same : store.get? c.fileName = other.get? c.fileName) :
    (recordSnapshot MemoryStore.snapshots c output store).1 =
      (recordSnapshot MemoryStore.snapshots c output other).1 := by
  rcases output with failure | ⟨fixture, text⟩
  · rfl
  · rw [recordSnapshot_ok, recordSnapshot_ok]
    cases held : store.get? c.fileName with
    | some stored => rw [MemoryStore.record_of_some held, MemoryStore.record_of_some (same.symm.trans held)]
    | none => rw [MemoryStore.record_of_none held, MemoryStore.record_of_none (same.symm.trans held)]

end Suite

namespace AuditUnit

def file? (unit : AuditUnit) : Option String := unit.case?.map (·.options.file)

theorem alternate_verdict_congr {first second : Formatter} {c : Case} {parser : ParserName}
    (agree : ∀ source, first.format source c.options = second.format source c.options)
    (agreeToo : ∀ source, first.format source (c.options.withParser parser) =
      second.format source (c.options.withParser parser)) (store other : MemoryStore) :
    (alternate c parser).verdict first store = (alternate c parser).verdict second other := by
  simp only [verdict, Suite.alternateUnit, Suite.primary_congr agree, verifyAlternate_congr (agreeToo _)]

theorem structural_verdict_congr {first second : Formatter} {c : Case} (agree : first.AgreesAt second c.options)
    (cleaned : ∀ normalized, first.normalizeOptions c.options = .ok normalized →
      first.clean normalized = second.clean normalized) (store other : MemoryStore) :
    (structural c).verdict first store = (structural c).verdict second other := by
  simp only [verdict, Suite.structureUnit, Suite.primary_congr agree.format, RoundTrip.take_congr agree cleaned]

theorem snapshot_verdict_congr {first second : Formatter} {c : Case}
    (agree : ∀ source, first.format source c.options = second.format source c.options) {store other : MemoryStore}
    (same : store.get? c.fileName = other.get? c.fileName) :
    (snapshot c).verdict first store = (snapshot c).verdict second other := by
  rw [verdict, verdict, Suite.primary_congr agree, Suite.recordSnapshot_verdict_congr c _ same]

theorem verdict_congr_later {first second : Formatter} {unit : AuditUnit} {c : Case} (about : unit.case? = some c)
    (later : unit ≠ .snapshot c) (agree : ∀ parser, first.AgreesAt second (c.options.withParser parser))
    (cleaned : unit = .structural c → ∀ normalized, first.normalizeOptions c.options = .ok normalized →
      first.clean normalized = second.clean normalized) (store other : MemoryStore) :
    unit.verdict first store = unit.verdict second other := by
  have agreeToo : first.AgreesAt second c.options := agree c.options.parser
  cases unit with
  | check found => rfl
  | snapshot primary => exact absurd (congrArg snapshot (Option.some.inj about)) later
  | alternate reference parser =>
      obtain rfl := Option.some.inj about
      exact alternate_verdict_congr agreeToo.format (agree parser).format store other
  | structural reference =>
      obtain rfl := Option.some.inj about
      exact structural_verdict_congr agreeToo (cleaned rfl) store other

end AuditUnit

namespace Suite

theorem same_outcome {one other : Suite} {first second : Formatter} {store : MemoryStore} {place spot : Nat}
    {unit : AuditUnit} (found : one.units[place]? = some unit) (foundToo : other.units[spot]? = some unit)
    (same : unit.verdict first (one.run first MemoryStore.snapshots store).store =
      unit.verdict second (other.run second MemoryStore.snapshots store).store) :
    ∃ outcome, (one.run first MemoryStore.snapshots store).report.outcomes[place]? = some outcome ∧
      (other.run second MemoryStore.snapshots store).report.outcomes[spot]? = some outcome := by
  refine ⟨_, run_outcome_getElem? one first store found, ?_⟩
  rw [run_outcome_getElem? other second store foundToo, AuditUnit.outcome, AuditUnit.outcome, same]

theorem newSnapshot?_congr_formatter {files : FileSystem} {first second : Formatter} {store : MemoryStore}
    {path : String}
    {calls : List CallOptions}
    (agree : ∀ options ∈ calls, ∀ source, first.format source options = second.format source options) :
    newSnapshot? files first store path calls = newSnapshot? files second store path calls := by
  have outputs (source : String) : (calls.findSome? fun options => (first.format source options).toOption) =
      calls.findSome? fun options => (second.format source options).toOption := by
    induction calls with
    | nil => rfl
    | cons options rest ih =>
        rw [List.findSome?_cons, List.findSome?_cons, agree options (by simp),
          ih fun other member => agree other (by simp [member])]
  simp only [newSnapshot?, outputs]

theorem erase_newSnapshots {files : FileSystem} {first second : Formatter} {store : MemoryStore}
    {calls : String → List CallOptions} {paths : List String} {path : String}
    (agree : ∀ other ∈ paths, other ≠ path → ∀ options ∈ calls other, ∀ source,
      first.format source options = second.format source options) :
    Fields.erase (paths.filterMap fun other => newSnapshot? files first store other (calls other))
        (Path.fileName path) =
      Fields.erase (paths.filterMap fun other => newSnapshot? files second store other (calls other))
        (Path.fileName path) := by
  -- an entry under the fixture's own name is gone whatever it holds
  have gone (formatter : Formatter) : (newSnapshot? files formatter store path (calls path)).filter
      (fun entry => entry.1 ≠ Path.fileName path) = none := by
    cases made : newSnapshot? files formatter store path (calls path) with
    | none => rfl
    | some entry => simp [fst_of_newSnapshot? made]
  unfold Fields.erase
  rw [List.filter_filterMap, List.filter_filterMap]
  refine List.filterMap_congr ?_
  intro other member
  by_cases same : other = path
  · rw [same, gone, gone]
  · rw [newSnapshot?_congr_formatter (agree other member same)]

/-- What a formatter does to one fixture changes nothing for the others. The checks, the units of the other fixtures
and their entries stay as they are; what it does under one interpreter changes for the others no more than the
verdicts on the fixture's snapshots. Trees are cleaned under normalised options, and these can name the fixture even
where the options do not: a structure is compared alike only if it is cleaned alike under them. -/
theorem run_isolates_fixture {files : FileSystem} {context : Context} {dir : String} {leading : ParserName}
    {alternates : List ParserName} {versions : VersionRange} {coverage : Coverage} {overrides : Overrides}
    {suite : Suite} {paths : List String} (proper : files.Proper) (listed : Fixture.enumerate files dir = .ok paths)
    (registered : register files context dir (leading :: alternates) versions coverage overrides = .ok suite)
    {path : String} (present : path ∈ paths) {first second : Formatter}
    (agree : ∀ options, options.file ≠ path →
      first.AgreesAt second options ∧ first.clean options = second.clean options) (store : MemoryStore) :
    let one := suite.run first MemoryStore.snapshots store
    let other := suite.run second MemoryStore.snapshots store
    (∀ (place : Nat) (unit : AuditUnit), suite.units[place]? = some unit → unit.file? ≠ some path →
      (∀ c normalized, unit = .structural c → first.normalizeOptions c.options = .ok normalized →
        normalized.file = path → first.clean normalized = second.clean normalized) →
      ∃ outcome, one.report.outcomes[place]? = some outcome ∧ other.report.outcomes[place]? = some outcome) ∧
    one.store.entries.erase (Path.fileName path) = other.store.entries.erase (Path.fileName path) ∧
    ∀ binding, (∀ options, ¬(options.file = path ∧ options.interpreter = binding) →
        first.AgreesAt second options ∧ first.clean options = second.clean options) →
      ∀ (place : Nat) (unit : AuditUnit) (c : Case), suite.units[place]? = some unit → unit.case? = some c →
        unit ≠ .snapshot c → c.options.interpreter ≠ binding →
        (∀ normalized, unit = .structural c → first.normalizeOptions c.options = .ok normalized →
          normalized.file = path ∧ normalized.interpreter = binding →
          first.clean normalized = second.clean normalized) →
        ∃ outcome, one.report.outcomes[place]? = some outcome ∧ other.report.outcomes[place]? = some outcome := by
  intro one other
  have entries : one.store.entries.erase (Path.fileName path) = other.store.entries.erase (Path.fileName path) := by
    rw [run_entries proper listed registered, run_entries proper listed registered, Fields.erase, Fields.erase,
      List.filter_append, List.filter_append]
    congr 1
    refine erase_newSnapshots ?_
    intro fixture _ different options called source
    obtain ⟨binding, _, rfl⟩ := List.mem_map.mp called
    exact (agree _ different).1.format source
  refine ⟨?_, entries, ?_⟩
  · intro place unit found elsewhere cleaned
    refine same_outcome found found ?_
    cases about : unit.case? with
    | none =>
        cases unit with
        | check found => rfl
        | _ => cases about
    | some c =>
        have different : c.options.file ≠ path := by
          rintro same
          exact elsewhere (by rw [AuditUnit.file?, about, Option.map_some, same])
        by_cases primary : unit = .snapshot c
        · subst primary
          refine AuditUnit.snapshot_verdict_congr (agree _ different).1.format ?_
          have member : c ∈ suite.cases := mem_cases_of_mem_units (List.mem_of_getElem? found) rfl
          obtain ⟨fixture, presentToo, binding, _, rfl⟩ := (mem_cases_of_registered listed registered).mp member
          have names : Path.fileName fixture ≠ Path.fileName path := by
            intro same
            exact different (List.inj_on_of_nodup_map (Fixture.nodup_fileNames proper listed) presentToo present same)
          rw [MemoryStore.get?, MemoryStore.get?, ← Fields.get?_erase names, entries, Fields.get?_erase names]
        · refine AuditUnit.verdict_congr_later about primary
            (fun parser => (agree (c.options.withParser parser) different).1) ?_ _ _
          intro structural normalized canonical
          by_cases renamed : normalized.file = path
          · exact cleaned c normalized structural canonical renamed
          · exact (agree normalized renamed).2
  · intro binding agreeToo place unit c found about later under cleaned
    refine same_outcome found found (AuditUnit.verdict_congr_later about later ?_ ?_ _ _)
    · intro parser
      exact (agreeToo (c.options.withParser parser) fun same => under same.2).1
    · intro structural normalized canonical
      by_cases renamed : normalized.file = path ∧ normalized.interpreter = binding
      · exact cleaned normalized structural canonical renamed
      · exact (agreeToo normalized renamed).2

theorem Sample.crashing_agreesAt {under elsewhere : CallOptions → Bool} {options : CallOptions}
    (same : under options = elsewhere options) : (crashing under).AgreesAt (crashing elsewhere) options := by
  refine ⟨?_, fun _ => rfl, rfl⟩
  intro source
  simp [crashing, same]

theorem sample_run_isolates_fixture : ∃ suite,
    register Sample.files Sample.context "/fx" [Sample.strict, Sample.lenient] .any .all .none = .ok suite ∧
    let one := suite.run (Sample.crashing fun _ => false) MemoryStore.snapshots ⟨[]⟩
    let other := suite.run (Sample.crashing fun options => options.file = "/fx/a" ∧
      options.interpreter = Sample.python2)
      MemoryStore.snapshots ⟨[]⟩
    (∀ (place : Nat) (unit : AuditUnit), suite.units[place]? = some unit → unit.file? ≠ some "/fx/a" →
      ∃ outcome, one.report.outcomes[place]? = some outcome ∧ other.report.outcomes[place]? = some outcome) ∧
    one.store.entries.erase "a" = other.store.entries.erase "a" ∧
    ∀ (place : Nat) (unit : AuditUnit) (c : Case), suite.units[place]? = some unit → unit.case? = some c →
      unit ≠ .snapshot c → c.options.interpreter ≠ Sample.python2 →
      ∃ outcome, one.report.outcomes[place]? = some outcome ∧ other.report.outcomes[place]? = some outcome := by
  obtain ⟨suite, registered⟩ := Sample.registered [Sample.lenient]
  let first := Sample.crashing fun _ => false
  let second := Sample.crashing fun options => options.file = "/fx/a" ∧ options.interpreter = Sample.python2
  have agree : ∀ options, options.file ≠ "/fx/a" →
      first.AgreesAt second options ∧ first.clean options = second.clean options := by
    intro options elsewhere
    exact ⟨Sample.crashing_agreesAt (by simp [elsewhere]), rfl⟩
  obtain ⟨outcomes, entries, later⟩ :=
    run_isolates_fixture Sample.proper Sample.listed registered (show "/fx/a" ∈ _ by decide) agree ⟨[]⟩
  have name : Path.fileName "/fx/a" = "a" := by cbv
  refine ⟨suite, registered, ?_, name ▸ entries, ?_⟩
  · intro place unit found elsewhere
    exact outcomes place unit found elsewhere fun _ _ _ _ _ => rfl
  · intro place unit c found about after under
    refine later Sample.python2 ?_ place unit c found about after under fun _ _ _ _ => rfl
    intro options apart
    exact ⟨Sample.crashing_agreesAt (by simpa using apart), rfl⟩

def Sample.redirecting (crashes : Bool) : Formatter where
  format _ _ := .ok "done"
  parse _ _ := .ok (.clean (.mapping []))
  normalizeOptions options := .ok { options with file := "/fx/a" }
  clean options := if crashes && options.file = "/fx/a" then fun _ _ => .error (.text "stop") else
    Formatter.cleanNothing

theorem Sample.normalize_bare : Tree.normalize Formatter.cleanNothing (.mapping []) = .ok (.mapping []) := by
  have walked {m : Type → Type} [Monad m] [LawfulMonad m] {visit : (fields : Fields Tree) → m (Tree.Reduced fields)}
      (kept : visit [] = pure (Tree.Reduced.without [] [])) : Tree.walk visit (.mapping []) = pure (.mapping []) := by
    rw [Tree.walk, kept, pure_bind, show (Tree.Reduced.without [] []).1 = [] from rfl, Tree.walkFields, map_pure]
  have stripped : Tree.stripSource (.mapping []) = .mapping [] := by
    rw [Tree.stripSource, walked rfl]
    rfl
  rw [Tree.normalize, Tree.clean, walked rfl, map_pure, stripped]
  rfl

theorem Sample.redirecting_passes_iff {crashes : Bool} {c : Case} {fixture : Fixture} (read : c.fixture = .ok fixture)
    (store : MemoryStore) :
    (AuditUnit.structural c).verdict (Sample.redirecting crashes) store = .ok () ↔ crashes = false := by
  rw [AuditUnit.structural_verdict_eq_ok_iff]
  cases crashes with
  | false =>
      have trip : RoundTrips (Sample.redirecting false) fixture.source "done" c.options :=
        ⟨_, _, _, _, _, rfl, rfl, rfl, normalize_bare, normalize_bare, fun _ => rfl⟩
      exact iff_of_true ⟨fixture, "done", read, rfl, trip⟩ rfl
  | true =>
      refine iff_of_false ?_ (by simp)
      rintro ⟨_, _, _, _, before, _, normalized, tree, _, parsed, _, canonical, cleaned, _⟩
      cases parsed
      cases canonical
      rw [Tree.normalize, Tree.clean, ParseReport.clean, Tree.walk] at cleaned
      simp [Sample.redirecting, Tree.cleanFields] at cleaned
      cases cleaned

/-- Formatters that differ only in how they clean trees under the options of `/fx/a` give `/fx/b` different verdicts if
they normalise its options to those of `/fx/a`. -/
theorem cleaning_reaches_other_fixture : Fixture.enumerate Sample.files "/fx" = .ok ["/fx/a", "/fx/b"] ∧ ∃ suite,
    register Sample.files Sample.context "/fx" [Sample.strict] .any .all .none = .ok suite ∧
    (∀ options, options.file ≠ "/fx/a" → (Sample.redirecting false).AgreesAt (Sample.redirecting true) options ∧
      (Sample.redirecting false).clean options = (Sample.redirecting true).clean options) ∧
    suite.units[7]?.bind AuditUnit.file? = some "/fx/b" ∧
    (suite.run (Sample.redirecting false) MemoryStore.snapshots ⟨[]⟩).report.outcomes[7]?.map (·.passed) =
      some true ∧
    (suite.run (Sample.redirecting true) MemoryStore.snapshots ⟨[]⟩).report.outcomes[7]?.map (·.passed) =
      some false := by
  obtain ⟨suite, registered⟩ := Sample.registered []
  have agree : ∀ options : CallOptions, options.file ≠ "/fx/a" →
      (Sample.redirecting false).AgreesAt (Sample.redirecting true) options ∧
      (Sample.redirecting false).clean options = (Sample.redirecting true).clean options := by
    intro options elsewhere
    exact ⟨⟨fun _ => rfl, fun _ => rfl, rfl⟩, by simp [Sample.redirecting, elsewhere]⟩
  obtain ⟨c, place, file, read⟩ : ∃ c, suite.units[7]? = some (.structural c) ∧ c.options.file = "/fx/b" ∧
      c.fixture = .ok ⟨"/fx/b", "y"⟩ := by
    rw [eq_of_registered Sample.listed registered]
    refine ⟨_, rfl, rfl, ?_⟩
    cbv
  have passed (crashes : Bool) :
      (suite.run (Sample.redirecting crashes) MemoryStore.snapshots ⟨[]⟩).report.outcomes[7]?.map (·.passed) =
        some !crashes := by
    rw [run_outcome_getElem? suite _ _ place, Option.map_some, Option.some_inj, Bool.eq_iff_iff,
      UnitOutcome.passed_iff, AuditUnit.outcome, Sample.redirecting_passes_iff read, Bool.not_eq_true']
  refine ⟨Sample.listed, suite, registered, agree, ?_, passed false, passed true⟩
  simp [place, AuditUnit.file?, AuditUnit.case?, file]

end Suite

end FormatAudit
