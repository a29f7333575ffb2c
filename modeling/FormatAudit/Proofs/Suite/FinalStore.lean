import FormatAudit.Proofs.Suite.Registration
import FormatAudit.Proofs.Suite.Verdicts

/-! The store at the end of a run: the entries that it started with, and for each fixture without one the
snapshot of the first interpreter under which the leading parser gave an output. -/

namespace FormatAudit

namespace Suite

/-- The snapshot of a case, if the leading parser gives an output for it. -/
def snapshot? (formatter : Formatter) (c : Case) : Option String :=
  (primary formatter c).2.toOption.map fun (fixture, output) => Snapshot.compose fixture.source output

theorem recordCase_of_some {store : MemoryStore} {c : Case} {stored : String}
    (found : store.get? c.fileName = some stored) (formatter : Formatter) :
    recordCase formatter store c = store := by
  unfold recordCase
  rcases (primary formatter c).2 with failure | ⟨fixture, output⟩
  · rfl
  · rw [recordSnapshot_ok, MemoryStore.record_of_some found]

theorem recordCase_of_none {store : MemoryStore} {c : Case} (absent : store.get? c.fileName = none)
    (formatter : Formatter) : recordCase formatter store c =
      ⟨store.entries ++ ((snapshot? formatter c).map (c.fileName, ·)).toList⟩ := by
  unfold recordCase snapshot?
  rcases (primary formatter c).2 with failure | ⟨fixture, output⟩
  · simp [recordSnapshot_error, Except.toOption]
  · simp [recordSnapshot_ok, MemoryStore.record_of_none absent, Except.toOption]

theorem foldl_recordCase {name : String} {cases : List Case} (named : ∀ c ∈ cases, c.fileName = name)
    (formatter : Formatter) (store : MemoryStore) : cases.foldl (recordCase formatter) store =
      ⟨store.entries ++ (if store.get? name = none then
        (cases.findSome? (snapshot? formatter)).map (name, ·) else none).toList⟩ := by
  induction cases generalizing store with
  | nil => simp
  | cons c rest ih =>
      have here : c.fileName = name := named c (by simp)
      have later := ih fun other member => named other (by simp [member])
      rw [List.foldl_cons]
      cases held : store.get? name with
      | some stored => simp [recordCase_of_some (here ▸ held), later, held]
      | none =>
          rw [recordCase_of_none (here ▸ held), here, List.findSome?_cons]
          cases recorded : snapshot? formatter c with
          | none => simp [later, held]
          | some content =>
              rw [later]
              simp [MemoryStore.get?, Fields.get?_append, show store.entries.get? name = none from held,
                Fields.get?_cons]

/-- The entry that a run adds for a fixture: a snapshot of the output of the first call that gives one, unless
the store has an entry under the fixture's file name. -/
def newSnapshot? (files : FileSystem) (formatter : Formatter) (store : MemoryStore) (path : String)
    (calls : List CallOptions) : Option (String × String) :=
  match Fixture.load files path, store.get? (Path.fileName path) with
  | .ok fixture, none =>
    (calls.findSome? fun options => (formatter.format fixture.source options).toOption).map fun output =>
      (Path.fileName path, Snapshot.compose fixture.source output)
  | _, _ => none

theorem snapshot?_of_ok {c : Case} {fixture : Fixture} (read : c.fixture = .ok fixture) (formatter : Formatter) :
    snapshot? formatter c =
      (formatter.format fixture.source c.options).toOption.map (Snapshot.compose fixture.source) := by
  unfold snapshot?
  cases formatted : formatter.format fixture.source c.options with
  | ok output => rw [primary_eq_ok_iff.mpr ⟨read, formatted⟩]; rfl
  | error fault =>
      cases result : (primary formatter c).2 with
      | error failure => rfl
      | ok pair =>
          have parts := primary_eq_ok_iff.mp result
          rw [read] at parts
          obtain ⟨same, impossible⟩ := parts
          rw [← Except.ok.inj same, formatted] at impossible
          cases impossible

theorem snapshot?_of_error {c : Case} {failure : UnitFailure} (unread : c.fixture = .error failure)
    (formatter : Formatter) : snapshot? formatter c = none := by
  simp [snapshot?, primary, unread, Except.toOption]

theorem newSnapshot?_eq (files : FileSystem) (formatter : Formatter) (store : MemoryStore) (leading : ParserName)
    (base : FormatOptions) (bindings : List Binding) (path : String) :
    newSnapshot? files formatter store path (bindings.map fun binding => base.resolve leading binding path) =
      if store.get? (Path.fileName path) = none then
        ((casesOf files leading base bindings path).findSome? (snapshot? formatter)).map (Path.fileName path, ·)
      else none := by
  unfold newSnapshot?
  cases held : store.get? (Path.fileName path) with
  | some stored => cases Fixture.load files path <;> rfl
  | none =>
      rw [if_pos rfl]
      cases loaded : Fixture.load files path with
      | error failure =>
          have unread : loadFixture files path = .error (.unreadable (Path.fileName path) failure.message) := by
            simp [loadFixture, loaded, Except.mapError]
          have nothing : ∀ c ∈ casesOf files leading base bindings path, snapshot? formatter c = none := by
            intro c member
            obtain ⟨binding, _, rfl⟩ := mem_casesOf.mp member
            exact snapshot?_of_error unread formatter
          rw [List.findSome?_eq_none_iff.mpr nothing]
          rfl
      | ok fixture =>
          have read : loadFixture files path = .ok fixture := loadFixture_eq_ok_iff.mpr loaded
          simp only [casesOf, List.findSome?_map, List.map_findSome?, Function.comp_def]
          congr 1
          funext binding
          have recorded := snapshot?_of_ok
            (c := ⟨Path.fileName path, loadFixture files path, base.resolve leading binding path⟩) read formatter
          rw [recorded]
          cases formatter.format fixture.source (base.resolve leading binding path) <;> rfl

theorem newSnapshot?_congr {files : FileSystem} {formatter : Formatter} {store other : MemoryStore} {path : String}
    (same : other.get? (Path.fileName path) = store.get? (Path.fileName path)) (calls : List CallOptions) :
    newSnapshot? files formatter other path calls = newSnapshot? files formatter store path calls := by
  simp only [newSnapshot?, same]

theorem fst_of_newSnapshot? {files : FileSystem} {formatter : Formatter} {store : MemoryStore} {path : String}
    {calls : List CallOptions} {entry : String × String}
    (added : newSnapshot? files formatter store path calls = some entry) : entry.1 = Path.fileName path := by
  unfold newSnapshot? at added
  split at added
  · obtain ⟨output, _, rfl⟩ := Option.map_eq_some_iff.mp added
    rfl
  · simp at added

theorem newSnapshot?_of_formatted {files : FileSystem} {formatter : Formatter} {store : MemoryStore} {path : String}
    {fixture : Fixture} (loaded : Fixture.load files path = .ok fixture)
    (absent : store.get? (Path.fileName path) = none) {calls : List CallOptions}
      (called : calls ≠ []) {output : String}
    (given : ∀ options ∈ calls, formatter.format fixture.source options = .ok output) :
    newSnapshot? files formatter store path calls =
      some (Path.fileName path, Snapshot.compose fixture.source output) := by
  obtain ⟨options, rest, rfl⟩ := List.exists_cons_of_ne_nil called
  simp [newSnapshot?, loaded, absent, given options (by simp), Except.toOption]

theorem foldl_flatMap_casesOf (files : FileSystem) (leading : ParserName) (base : FormatOptions)
    (bindings : List Binding) (formatter : Formatter) {paths : List String} (distinct : (paths.map Path.fileName).Nodup)
    (store : MemoryStore) :
    (paths.flatMap (casesOf files leading base bindings)).foldl (recordCase formatter) store =
      ⟨store.entries ++ paths.filterMap fun path =>
        newSnapshot? files formatter store path (bindings.map fun binding => base.resolve leading binding path)⟩ := by
  induction paths generalizing store with
  | nil => simp
  | cons path rest ih =>
      rw [List.map_cons, List.nodup_cons] at distinct
      have named : ∀ c ∈ casesOf files leading base bindings path, c.fileName = Path.fileName path := by
        intro c member
        obtain ⟨binding, _, rfl⟩ := mem_casesOf.mp member
        rfl
      rw [List.flatMap_cons, List.foldl_append, foldl_recordCase named, ← newSnapshot?_eq, ih distinct.2]
      -- what the first fixture adds is under its own name, so the others meet the store as it was
      have others : ∀ other ∈ rest, ∀ calls, newSnapshot? files formatter
          ⟨store.entries ++ (newSnapshot? files formatter store path
            (bindings.map fun binding => base.resolve leading binding path)).toList⟩ other calls =
          newSnapshot? files formatter store other calls := by
        intro other member calls
        refine newSnapshot?_congr (Fields.get?_append_of_absent ?_) calls
        intro present
        obtain ⟨entry, added, same⟩ := List.mem_map.mp present
        rw [fst_of_newSnapshot? (Option.mem_toList.mp added)] at same
        exact distinct.1 (same ▸ List.mem_map_of_mem member)
      rw [List.filterMap_congr fun other member => others other member _, List.filterMap_cons]
      cases newSnapshot? files formatter store path (bindings.map fun binding => base.resolve leading binding path) <;>
        simp

section

variable {files : FileSystem} {context : Context} {dir : String} {leading : ParserName} {alternates : List ParserName}
  {versions : VersionRange} {coverage : Coverage} {overrides : Overrides} {suite : Suite} {paths : List String}

theorem run_entries (proper : files.Proper) (listed : Fixture.enumerate files dir = .ok paths)
    (registered : register files context dir (leading :: alternates) versions coverage overrides = .ok suite)
    (formatter : Formatter) (store : MemoryStore) :
    (suite.run formatter MemoryStore.snapshots store).store.entries =
      store.entries ++ paths.filterMap fun path => newSnapshot? files formatter store path
        ((InterpreterSet.build context.interpreters versions coverage).bindings.map fun binding =>
          (FormatOptions.merged overrides).resolve leading binding path) := by
  rw [eq_of_registered listed registered, run_store,
    foldl_flatMap_casesOf _ _ _ _ _ (Fixture.nodup_fileNames proper listed)]

theorem held_after_case {formatter : Formatter} {cases : List Case} {c : Case} (member : c ∈ cases)
    {content : String} (recorded : snapshot? formatter c = some content) (store : MemoryStore) :
    ∃ stored, (cases.foldl (recordCase formatter) store).get? c.fileName = some stored := by
  obtain ⟨before, after, rfl⟩ := List.append_of_mem member
  rw [List.foldl_append, List.foldl_cons]
  generalize before.foldl (recordCase formatter) store = reached
  have held : ∃ stored, (recordCase formatter reached c).get? c.fileName = some stored := by
    cases found : reached.get? c.fileName with
    | some stored => exact ⟨stored, by rw [recordCase_of_some found, found]⟩
    | none =>
        refine ⟨content, ?_⟩
        rw [recordCase_of_none found, recorded, MemoryStore.get?, Fields.get?_append,
          show reached.entries.get? c.fileName = none from found]
        simp [Fields.get?_cons]
  obtain ⟨stored, found⟩ := held
  exact ⟨stored, Fields.get?_of_prefix (foldl_recordCase_grows formatter after _) found⟩

theorem get?_run_eq_some_iff (proper : files.Proper) (listed : Fixture.enumerate files dir = .ok paths)
    (registered : register files context dir (leading :: alternates) versions coverage overrides = .ok suite)
    {formatter : Formatter} {store : MemoryStore} {path : String} (present : path ∈ paths) {fixture : Fixture}
    (loaded : Fixture.load files path = .ok fixture) {output : String}
    (selected : (InterpreterSet.build context.interpreters versions coverage).bindings ≠ [])
    (formatted : ∀ binding ∈ (InterpreterSet.build context.interpreters versions coverage).bindings,
      formatter.format fixture.source ((FormatOptions.merged overrides).resolve leading binding path) = .ok output) :
    (suite.run formatter MemoryStore.snapshots store).store.get? (Path.fileName path) =
        some (Snapshot.compose fixture.source output) ↔
      ∀ stored, store.get? (Path.fileName path) = some stored →
        stored = Snapshot.compose fixture.source output := by
  have entries := run_entries proper listed registered formatter store
  cases before : store.get? (Path.fileName path) with
  | some stored =>
      have grown : store.entries <+: (suite.run formatter MemoryStore.snapshots store).store.entries :=
        ⟨_, entries.symm⟩
      rw [show (suite.run formatter MemoryStore.snapshots store).store.get? (Path.fileName path) = some stored from
        Fields.get?_of_prefix grown before]
      simp
  | none =>
      simp only [reduceCtorEq, false_implies, implies_true, iff_true]
      have given : ∀ options ∈ (InterpreterSet.build context.interpreters versions coverage).bindings.map
          fun binding => (FormatOptions.merged overrides).resolve leading binding path,
          formatter.format fixture.source options = .ok output := List.forall_mem_map.mpr formatted
      rw [MemoryStore.get?, entries, Fields.get?_append, show store.entries.get? (Path.fileName path) =
        none from before,
        Fields.get?_filterMap (fun _ _ => fst_of_newSnapshot?) (Fixture.nodup_fileNames proper listed) present,
        newSnapshot?_of_formatted loaded before (by simpa using selected) given]
      rfl

theorem snapshot_passed_iff (suite : Suite) (formatter : Formatter) (store : MemoryStore) {c : Case}
    (member : c ∈ suite.cases) :
    (AuditUnit.snapshot c).verdict formatter (suite.run formatter MemoryStore.snapshots store).store = .ok () ↔
      ∃ fixture output, c.fixture = .ok fixture ∧ formatter.format fixture.source c.options = .ok output ∧
        (suite.run formatter MemoryStore.snapshots store).store.get? c.fileName =
          some (Snapshot.compose fixture.source output) := by
  rw [run_store, AuditUnit.verdict]
  cases result : (primary formatter c).2 with
  | error failure =>
      rw [recordSnapshot_error]
      constructor
      · intro impossible
        cases impossible
      · rintro ⟨fixture, output, read, formatted, _⟩
        rw [primary_eq_ok_iff.mpr ⟨read, formatted⟩] at result
        cases result
  | ok pair =>
      obtain ⟨fixture, output⟩ := pair
      obtain ⟨read, formatted⟩ := primary_eq_ok_iff.mp result
      have recorded : snapshot? formatter c = some (Snapshot.compose fixture.source output) := by
        simp [snapshot?, result, Except.toOption]
      obtain ⟨stored, held⟩ := held_after_case member recorded store
      rw [recordSnapshot_ok, MemoryStore.record_of_some held, held]
      constructor
      · intro passed
        have same : stored = Snapshot.compose fixture.source output := by
          by_contra different
          rw [if_neg different] at passed
          cases passed
        exact ⟨fixture, output, read, formatted, by rw [same]⟩
      · rintro ⟨other, text, readToo, formattedToo, same⟩
        obtain rfl := Except.ok.inj (read.symm.trans readToo)
        obtain rfl := Except.ok.inj (formatted.symm.trans formattedToo)
        rw [if_pos (Option.some.inj same)]

/-- The store after a run with snapshots in memory: the entries it had stay where they are, each fixture without
one gets the snapshot of the first interpreter that the leading parser has an output for, and a primary unit
passes exactly if its own output is in the entry of its fixture. -/
theorem store_after_run (proper : files.Proper) (listed : Fixture.enumerate files dir = .ok paths)
    (registered : register files context dir (leading :: alternates) versions coverage overrides = .ok suite)
    (formatter : Formatter) (store : MemoryStore) :
    let run := suite.run formatter MemoryStore.snapshots store
    let bindings := (InterpreterSet.build context.interpreters versions coverage).bindings
    run.store.entries = store.entries ++ (paths.filterMap fun path => newSnapshot? files formatter store path
      (bindings.map fun binding => (FormatOptions.merged overrides).resolve leading binding path)) ∧
    ∀ (place : Nat) (c : Case), suite.units[place]? = some (.snapshot c) →
      ∃ outcome, run.report.outcomes[place]? = some outcome ∧
      outcome.name = c.primaryName ∧
      (outcome.passed = true ↔ ∃ fixture output, c.fixture = .ok fixture ∧
        formatter.format fixture.source c.options = .ok output ∧
        run.store.get? c.fileName = some (Snapshot.compose fixture.source output)) := by
  refine ⟨run_entries proper listed registered formatter store, ?_⟩
  intro place c found
  have member : c ∈ suite.cases := mem_cases_of_mem_units (List.mem_of_getElem? found) rfl
  refine ⟨_, run_outcome_getElem? suite formatter store found, rfl, ?_⟩
  rw [← snapshot_passed_iff suite formatter store member]
  exact UnitOutcome.passed_iff

end

theorem store_after_sample_run : ∃ suite,
    register Sample.files Sample.context "/fx" [Sample.strict] .any .all .none = .ok suite ∧
    (suite.run (Sample.crashing fun options => options.interpreter = Sample.python2) MemoryStore.snapshots
      ⟨[("b", "old")]⟩).store.entries = [("b", "old"), ("a", Snapshot.compose "x\n" "done")] := by
  obtain ⟨suite, registered⟩ := Sample.registered []
  refine ⟨suite, registered, ?_⟩
  exact (store_after_run Sample.proper Sample.listed registered _ _).1.trans (by cbv)

end Suite

end FormatAudit
