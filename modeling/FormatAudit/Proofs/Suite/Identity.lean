import FormatAudit.Proofs.Interpreter.Selection
import FormatAudit.Proofs.Suite.UnitNames

/-! Names tell the units of a suite apart, whatever its files are called: a name is read from its end, where the
characters of versions and of parser names leave each separator in only one place. -/

namespace FormatAudit

/-- A list is cut in only one way at the last place of a mark. -/
theorem append_cons_inj_of_notMem_right {α : Type u} {mark : α} {front other back rest : List α}
    (last : mark ∉ back)
    (lastToo : mark ∉ rest) (same : front ++ mark :: back = other ++ mark :: rest) : front = other ∧
      back = rest := by
  rcases List.append_eq_append_iff.mp same with ⟨between, rfl, rests⟩ | ⟨between, rfl, rests⟩
  · cases between with
    | nil => simp_all
    | cons c more =>
        simp only [List.cons_append, List.cons.injEq] at rests
        exact absurd (rests.2 ▸ List.mem_append_right more List.mem_cons_self) last
  · cases between with
    | nil => simp_all
    | cons c more =>
        simp only [List.cons_append, List.cons.injEq] at rests
        exact absurd (rests.2 ▸ List.mem_append_right more List.mem_cons_self) lastToo

def Version.isTextChar (c : Char) : Bool := c.isAlphanum || c = '.' || c = '-' || c = '+'

theorem ParserName.space_notMem (parser : ParserName) : ' ' ∉ parser.text.toList := by
  intro space
  have valid := parser.valid
  simp only [isValid, Bool.and_eq_true, List.all_eq_true] at valid
  exact absurd (valid.2 ' ' space) (by decide)

theorem ParserName.text_inj {parser other : ParserName} (same : parser.text = other.text) : parser = other := by
  cases parser
  cases other
  simp_all

namespace UnitKey

def label (key : UnitKey) : List Char :=
  ((Path.fileName key.path).toList ++ [' ', '-']) ++ ' ' :: (key.parser.text.toList ++ '-' :: key.check.toList)

theorem toList_text (key : UnitKey) : key.text.toList = (key.label ++ [' ']) ++
    '[' :: (key.binding.executable.toList ++ ' ' :: (key.binding.version.text.toList ++ [']'])) := by
  simp [text, label]

theorem getLast?_text (key : UnitKey) : key.text.toList.getLast? = some ']' := by
  rw [text, String.toList_append]
  exact List.getLast?_concat

/-- A unit verifies that parsers agree, or compares structures. -/
def IsCheck (check : String) : Prop := check = "verify" ∨ check = "ast-compare"

theorem getLast?_check {check : String} (known : IsCheck check) :
    ('-' :: check.toList).getLast? = some (if check = "verify" then 'y' else 'e') := by
  rcases known with rfl | rfl <;> rfl

theorem label_inj {key other : UnitKey} (check : IsCheck key.check) (checkToo : IsCheck other.check)
    (same : key.label = other.label) : Path.fileName key.path = Path.fileName other.path ∧
      key.parser = other.parser ∧ key.check = other.check := by
  have spaceless (key : UnitKey) (check : IsCheck key.check) :
      ' ' ∉ key.parser.text.toList ++ '-' :: key.check.toList := by
    have parser := key.parser.space_notMem
    rcases check with check | check <;> simp [check, parser]
  obtain ⟨files, parts⟩ := append_cons_inj_of_notMem_right (spaceless key check) (spaceless other checkToo) same
  -- the two checks end in different letters
  have checks : key.check = other.check := by
    have last := congrArg List.getLast? parts
    rw [List.getLast?_append_cons, List.getLast?_append_cons, getLast?_check check, getLast?_check checkToo] at last
    rcases check with check | check <;> rcases checkToo with checkToo | checkToo <;> simp_all
  rw [checks] at parts
  have parsers := String.toList_inj.mp (List.append_cancel_right parts)
  exact ⟨String.toList_inj.mp (List.append_cancel_right files), ParserName.text_inj parsers, checks⟩

theorem text_inj {key other : UnitKey} (check : IsCheck key.check) (checkToo : IsCheck other.check)
    (unbracketed : ∀ each ∈ [key, other], '[' ∉ each.binding.executable.toList)
    (written : ∀ each ∈ [key, other], ∀ c ∈ each.binding.version.text.toList, Version.isTextChar c)
    (same : key.text = other.text) : Path.fileName key.path = Path.fileName other.path ∧
      key.binding.executable = other.binding.executable ∧ key.parser = other.parser ∧ key.check = other.check := by
  have characters := congrArg String.toList same
  rw [toList_text, toList_text] at characters
  have unmarked (mark : Char) (foreign : Version.isTextChar mark = false) (different : mark ≠ ']') :
      ∀ each ∈ [key, other], mark ∉ each.binding.version.text.toList ++ [']'] := by
    intro each member inside
    rcases List.mem_append.mp inside with inVersion | atEnd
    · exact absurd (written each member mark inVersion) (by simp [foreign])
    · exact different (List.mem_singleton.mp atEnd)
  have noBracket : ∀ each ∈ [key, other],
      '[' ∉ each.binding.executable.toList ++ ' ' :: (each.binding.version.text.toList ++ [']']) := by
    intro each member inside
    rcases List.mem_append.mp inside with inExecutable | later
    · exact unbracketed each member inExecutable
    · rcases List.mem_cons.mp later with space | inVersion
      · exact absurd space (by decide)
      · exact unmarked '[' (by decide) (by decide) each member inVersion
  obtain ⟨labels, interpreters⟩ :=
    append_cons_inj_of_notMem_right (noBracket key (by simp)) (noBracket other (by simp)) characters
  have noSpace := unmarked ' ' (by decide) (by decide)
  obtain ⟨executables, _⟩ :=
    append_cons_inj_of_notMem_right (noSpace key (by simp)) (noSpace other (by simp)) interpreters
  obtain ⟨files, parsers, checks⟩ := label_inj check checkToo (List.append_cancel_right labels)
  exact ⟨files, String.toList_inj.mp executables, parsers, checks⟩

section

variable {leading : ParserName} {alternates : List ParserName} {structural : Bool} {bindings : List Binding}
  {paths : List String}

theorem mem_ofCase {path : String} {binding : Binding} {key : UnitKey}
    (member : key ∈ ofCase leading alternates structural path binding) :
    key.path = path ∧ key.binding = binding ∧ IsCheck key.check := by
  unfold ofCase at member
  rcases List.mem_append.mp member with verify | compared
  · obtain ⟨parser, _, rfl⟩ := List.mem_map.mp verify
    exact ⟨rfl, rfl, .inl rfl⟩
  · split at compared
    · obtain rfl := List.mem_singleton.mp compared
      exact ⟨rfl, rfl, .inr rfl⟩
    · simp at compared

theorem mem_all {key : UnitKey} (member : key ∈ all leading alternates structural bindings paths) :
    key.path ∈ paths ∧ key.binding ∈ bindings ∧ IsCheck key.check := by
  obtain ⟨path, present, inside⟩ := List.mem_flatMap.mp member
  obtain ⟨binding, chosen, unit⟩ := List.mem_flatMap.mp inside
  obtain ⟨rfl, rfl, check⟩ := mem_ofCase unit
  exact ⟨present, chosen, check⟩

theorem nodup_ofCase (path : String) (binding : Binding) (distinct : (leading :: alternates).Nodup) :
    (ofCase leading alternates structural path binding).Nodup := by
  unfold ofCase
  rw [List.nodup_append]
  refine ⟨?_, by split <;> simp, ?_⟩
  · exact distinct.map fun _ _ same => congrArg UnitKey.parser same
  · rintro key verify other compared rfl
    obtain ⟨parser, _, rfl⟩ := List.mem_map.mp verify
    split at compared <;> simp at compared

theorem nodup_all (files : paths.Nodup) (interpreters : bindings.Nodup) (distinct : (leading :: alternates).Nodup) :
    (all leading alternates structural bindings paths).Nodup := by
  refine List.nodup_flatMap.mpr ⟨?_, ?_⟩
  · intro path _
    refine List.nodup_flatMap.mpr ⟨fun binding _ => nodup_ofCase path binding distinct, ?_⟩
    refine interpreters.imp ?_
    intro binding other different key inside insideToo
    exact different ((mem_ofCase inside).2.1.symm.trans (mem_ofCase insideToo).2.1)
  · refine files.imp ?_
    intro path other different key inside insideToo
    obtain ⟨binding, _, unit⟩ := List.mem_flatMap.mp inside
    obtain ⟨under, _, unitToo⟩ := List.mem_flatMap.mp insideToo
    exact different ((mem_ofCase unit).1.symm.trans (mem_ofCase unitToo).1)

theorem nodup_parsers_of_all {path : String} (present : path ∈ paths) {binding : Binding}
    (chosen : binding ∈ bindings)
    (distinct : (all leading alternates structural bindings paths).Nodup) : (leading :: alternates).Nodup := by
  have ofPath := (List.nodup_flatMap.mp distinct).1 path present
  have ofBinding := (List.nodup_flatMap.mp ofPath).1 binding chosen
  exact (List.nodup_append.mp ofBinding).1.of_map _

theorem nodup_map_text (files : (paths.map Path.fileName).Nodup) (interpreters : (bindings.map (·.executable)).Nodup)
    (unbracketed : ∀ binding ∈ bindings, '[' ∉ binding.executable.toList)
    (written : ∀ binding ∈ bindings, ∀ c ∈ binding.version.text.toList, Version.isTextChar c)
    (distinct : (all leading alternates structural bindings paths).Nodup) :
    ((all leading alternates structural bindings paths).map text).Nodup := by
  refine distinct.map_on ?_
  intro key member other memberToo same
  obtain ⟨present, chosen, check⟩ := mem_all member
  obtain ⟨presentToo, chosenToo, checkToo⟩ := mem_all memberToo
  obtain ⟨names, executables, parsers, checks⟩ := text_inj check checkToo
    (by simp [unbracketed _ chosen, unbracketed _ chosenToo])
    (by simpa using ⟨written _ chosen, written _ chosenToo⟩) same
  have paths := List.inj_on_of_nodup_map files present presentToo names
  have bindings := List.inj_on_of_nodup_map interpreters chosen chosenToo executables
  cases key
  cases other
  simp_all

end

end UnitKey

theorem InterpreterSet.nodup_checkNames (coverage : Coverage) : (checkNames coverage).Nodup := by
  cases coverage <;> decide

theorem InterpreterSet.getLast?_checkNames {coverage : Coverage} {name : String}
    (member : name ∈ checkNames coverage) :
    name.toList.getLast? ≠ some ']' := by
  revert name
  cases coverage <;> decide

theorem Report.outcome?_of_getElem? {report : Report} (distinct : (report.outcomes.map (·.name)).Nodup) {place : Nat}
    {outcome : UnitOutcome} (found : report.outcomes[place]? = some outcome) :
    report.outcome? outcome.name = some outcome := by
  obtain ⟨inside, rfl⟩ := List.getElem?_eq_some_iff.mp found
  refine List.find?_eq_some_iff_getElem.mpr ⟨by simp, place, inside, rfl, ?_⟩
  intro earlier before
  have different := List.pairwise_iff_getElem.mp distinct earlier place (by simp; omega) (by simpa using inside) before
  simpa using different

namespace Suite

section

variable {files : FileSystem} {context : Context} {dir : String} {leading : ParserName} {alternates : List ParserName}
  {versions : VersionRange} {coverage : Coverage} {overrides : Overrides} {suite : Suite} {paths : List String}

theorem cases_eq_nil_iff (listed : Fixture.enumerate files dir = .ok paths)
    (registered : register files context dir (leading :: alternates) versions coverage overrides = .ok suite) :
    suite.cases = [] ↔ ∀ path ∈ paths, ∀ binding,
      binding ∉ (InterpreterSet.build context.interpreters versions coverage).bindings := by
  simp only [List.eq_nil_iff_forall_not_mem, mem_cases_of_registered listed registered]
  constructor
  · intro none path present binding chosen
    exact none _ ⟨path, present, binding, chosen, rfl⟩
  · rintro none c ⟨path, present, binding, chosen, _⟩
    exact none path present binding chosen

theorem nodup_unitNames_of_registered (proper : files.Proper) (listed : Fixture.enumerate files dir = .ok paths)
    (registered : register files context dir (leading :: alternates) versions coverage overrides = .ok suite)
    (unbracketed : ∀ binding ∈ (InterpreterSet.build context.interpreters versions coverage).bindings,
      '[' ∉ binding.executable.toList)
    (written : ∀ binding ∈ (InterpreterSet.build context.interpreters versions coverage).bindings,
      ∀ c ∈ binding.version.text.toList, Version.isTextChar c) :
    suite.unitNames.Nodup ↔ (leading :: alternates).Nodup ∨ suite.cases = [] := by
  have names := Fixture.nodup_fileNames proper listed
  have executables := InterpreterSet.nodup_executables context.interpreters versions coverage
  rw [unitNames_of_registered listed registered, cases_eq_nil_iff listed registered, List.nodup_append]
  constructor
  · rintro ⟨_, texts, _⟩
    by_contra! neither
    obtain ⟨repeated, path, present, binding, chosen⟩ := neither
    exact repeated (UnitKey.nodup_parsers_of_all present chosen texts.of_map)
  · intro either
    have units : (UnitKey.all leading alternates context.structural
        (InterpreterSet.build context.interpreters versions coverage).bindings paths).Nodup := by
      rcases either with distinct | none
      · exact UnitKey.nodup_all names.of_map executables.of_map distinct
      · rw [List.eq_nil_iff_forall_not_mem.mpr fun key member =>
          none _ (UnitKey.mem_all member).1 _ (UnitKey.mem_all member).2.1]
        exact List.nodup_nil
    refine ⟨InterpreterSet.nodup_checkNames coverage,
      UnitKey.nodup_map_text names executables unbracketed written units, ?_⟩
    rintro check member text unit rfl
    obtain ⟨key, _, rfl⟩ := List.mem_map.mp unit
    exact InterpreterSet.getLast?_checkNames member key.getLast?_text

end

/-- The names of the units of a suite are distinct exactly if its parsers are, or there is nothing for them to do. With
distinct parsers the name of a unit leads to the outcome of that unit in each run. -/
theorem nodup_unitNames_iff {files : FileSystem} {context : Context} {dir : String} {parsers : List ParserName}
    {versions : VersionRange} {coverage : Coverage} {overrides : Overrides} {suite : Suite} (proper : files.Proper)
    (registered : register files context dir parsers versions coverage overrides = .ok suite)
    (unbracketed : ∀ binding ∈ (InterpreterSet.build context.interpreters versions coverage).bindings,
      '[' ∉ binding.executable.toList)
    (written : ∀ binding ∈ (InterpreterSet.build context.interpreters versions coverage).bindings,
      ∀ c ∈ binding.version.text.toList, Version.isTextChar c) :
    (suite.unitNames.Nodup ↔ parsers.Nodup ∨ suite.cases = []) ∧
    (parsers.Nodup → ∀ {σ : Type} (formatter : Formatter) (snapshots : SnapshotStore σ) (store : σ) (place : Nat)
      (name : String), suite.unitNames[place]? = some name → ∃ outcome,
        (suite.run formatter snapshots store).report.outcomes[place]? = some outcome ∧ outcome.name = name ∧
        (suite.run formatter snapshots store).report.outcome? name = some outcome) := by
  cases parsers with
  | nil => cases registered
  | cons leading alternates =>
      obtain ⟨paths, listed, _⟩ := register_eq_ok_iff.mp registered
      have distinctNames := nodup_unitNames_of_registered proper listed registered unbracketed written
      refine ⟨distinctNames, ?_⟩
      intro distinct σ formatter snapshots store place name found
      have names := suite.run_names formatter snapshots store
      rw [← names, List.getElem?_map] at found
      obtain ⟨outcome, present, rfl⟩ := Option.map_eq_some_iff.mp found
      exact ⟨outcome, present, rfl,
        Report.outcome?_of_getElem? (names.symm ▸ distinctNames.mpr (.inl distinct)) present⟩

/-! One of the two fixtures here is called like a unit of the other. -/

def Sample.misleading : List (FileName × FileTree) :=
  [(Text.toUtf8 "a", .file (.ok [120])), (Text.toUtf8 "a - strict-verify [python3 3.12.0]", .file (.ok [121]))]

theorem Sample.misleading_listed : Fixture.enumerate (holding misleading) "/fx" =
    .ok ["/fx/a", "/fx/a - strict-verify [python3 3.12.0]"] := by
  have names : Fixture.names (misleading.map .ok) = .ok ["a", "a - strict-verify [python3 3.12.0]"] := by cbv
  obtain ⟨known, found⟩ := Fixture.names_map_ok_eq_ok_iff.mp names
  refine Fixture.enumerate_eq_ok_iff.mpr ⟨misleading, ⟨⟨{}, holding_opened _, rfl⟩, known⟩, ?_⟩
  rw [found]
  decide +kernel

theorem sample_nodup_unitNames : ∃ suite, register (Sample.holding Sample.misleading) Sample.context "/fx"
      [Sample.strict, Sample.lenient] .any .all .none = .ok suite ∧ suite.unitNames.Nodup ∧
    let broken := Sample.crashing fun options => options.file = "/fx/a"
    let report := (suite.run broken MemoryStore.snapshots ⟨[]⟩).report
    ∃ outcome, report.outcomes[9]? = some outcome ∧
      report.outcome? "a - strict-verify [python3 3.12.0] - lenient-verify [python2 2.7.18]" = some outcome := by
  obtain ⟨suite, registered⟩ : ∃ suite, register (Sample.holding Sample.misleading) Sample.context "/fx"
      [Sample.strict, Sample.lenient] .any .all .none = .ok suite :=
    exists_registered Sample.misleading_listed ..
  have written : ∀ binding ∈ (InterpreterSet.build Sample.context.interpreters .any .all).bindings,
      ∀ c ∈ binding.version.text.toList, Version.isTextChar c := by
    have chosen : (InterpreterSet.build Sample.context.interpreters .any .all).bindings =
      [Sample.python2, Sample.python3] := rfl
    have texts : Sample.python2.version.text = "2.7.18" ∧ Sample.python3.version.text = "3.12.0" := by cbv
    simp only [chosen, List.forall_mem_cons, texts, ← List.all_eq_true]
    decide
  have proper : (Sample.holding Sample.misleading).Proper :=
    Sample.holding_proper ⟨by decide, by decide, by decide⟩ (by simp [Sample.misleading, FileTree.Proper.file])
  obtain ⟨distinct, found⟩ := nodup_unitNames_iff proper registered (by decide) written
  refine ⟨suite, registered, distinct.mpr (.inl (by decide)), ?_⟩
  have place : suite.unitNames[9]? = some "a - strict-verify [python3 3.12.0] - lenient-verify [python2 2.7.18]" := by
    rw [unitNames_of_registered Sample.misleading_listed registered]
    decide +kernel
  obtain ⟨outcome, present, _, outcomeOf⟩ :=
    found (by decide) (Sample.crashing fun options => options.file = "/fx/a")
    MemoryStore.snapshots ⟨[]⟩ 9 _ place
  exact ⟨outcome, present, outcomeOf⟩

end Suite

end FormatAudit
