import FormatAudit.Formatter.Scripted
import FormatAudit.Proofs.Tree.Order
import FormatAudit.Proofs.Tree.Pruning
import FormatAudit.Proofs.Verification

/-! What a round trip finds, for formatters that do not crash and that say by the kind of a node and the name of a
field what is cosmetic. -/

namespace FormatAudit

/-- The formatter parses, normalises options and calls fields cosmetic by the given functions, without a crash. No
name comes twice in a node of its trees. -/
structure Formatter.Declares (formatter : Formatter)
    (parse : String → CallOptions → Except FormatterError ParseReport) (canonical : CallOptions → CallOptions)
    (cosmetic : CallOptions → Option String → String → Bool) : Prop where
  parsing : ∀ source options, formatter.parse source options = .ofExcept (parse source options)
  normalizing : ∀ options, formatter.normalizeOptions options = .ok (canonical options)
  cleaning : ∀ options kind fields,
    formatter.clean options kind fields = .ok (.filter fields fun field => !cosmetic options kind field.1)
  keyed : ∀ source options report, parse source options = .ok report → report.tree.WellKeyed

namespace Scripted

theorem wellKeyed_lineTree (number : Nat) (line : List Char) : (lineTree number line).WellKeyed := by
  simp [lineTree, Tree.ofFields, Fields.ofList, Fields.insert, Tree.WellKeyed, Tree.WellKeyed.keyedFields,
    Fields.Distinct, Fields.keys]

theorem wellKeyed_lineReport (source : String) : (lineReport source).tree.WellKeyed := by
  refine Tree.keyedItems_iff.mpr ?_
  intro item member
  obtain ⟨⟨line, number⟩, _, rfl⟩ := List.mem_map.mp member
  exact wellKeyed_lineTree number line

def looseLines : Script where
  format := []
  parse := [⟨⟨none, none, none, none, none⟩, .lines⟩]
  clean := [⟨.exactly (some "Line"), some "loose", ["spaces"]⟩]
  enable := ["loose"]

theorem looseLines_declares : looseLines.formatter.Declares (fun source _ => .ok (lineReport source))
    (enableAll ["loose"])
    fun options kind name => looseLines.clean.any (·.drops options kind name) where
  parsing _ _ := rfl
  normalizing _ := rfl
  cleaning _ _ _ := rfl
  keyed source _ _ parsed := Except.ok.inj parsed ▸ wellKeyed_lineReport source

def sampleOptions : CallOptions :=
  ⟨.merged .none, ⟨"lines", by decide⟩, ⟨"python3", ⟨3, 12, 0, [], []⟩⟩, "a"⟩

end Scripted

namespace RoundTrip

theorem check_of_error {trip : RoundTrip} {diagnostic : String} (failed : trip.reparsed = .error diagnostic) :
    trip.check = .error (.reparse trip.fixture diagnostic) := by
  rw [check, failed]

theorem check_of_ok {trip : RoundTrip} {tree : Tree} (reparsed : trip.reparsed = .ok tree) :
    trip.check = if trip.initialErrors ≠ [] || tree.same trip.initial then .ok ()
      else .error (.structureChanged trip.fixture trip.initial.written tree.written) := by
  rw [check, reparsed]

section

variable {formatter : Formatter} {parse : String → CallOptions → Except FormatterError ParseReport}
  {canonical : CallOptions → CallOptions} {cosmetic : CallOptions → Option String → String → Bool}
  (declares : formatter.Declares parse canonical cosmetic) {fixture : Fixture} {options : CallOptions}
  {formatted : String}

include declares

theorem normalize_of_declares (tree : Tree) : Tree.normalize (formatter.clean (canonical options)) tree =
    .ok (tree.erase (cosmetic (canonical options))) :=
  Tree.normalize_eq_erase (declares.cleaning (canonical options)) tree

theorem reparse_of_declares : (reparse formatter formatted options (canonical options)).result =
    .ok (match parse formatted options with
      | .ok report => .ok (report.tree.erase (cosmetic (canonical options)))
      | .error error => .error error.message) := by
  rw [reparse, Formatter.callParse, declares.parsing]
  cases parse formatted options with
  | error error => rfl
  | ok report =>
      simp only [Attempt.ofExcept, normalize_of_declares declares]
      rfl

theorem take_of_error {error : FormatterError} (failed : parse fixture.source options = .error error) :
    (take formatter fixture options formatted).result = .error (.error (.parse fixture.fileName error.message)) := by
  have first : ((formatter.callParse fixture.source options).mapError fun error =>
      UnitFailure.parse fixture.fileName error.message).result =
      .error (.error (.parse fixture.fileName error.message)) := by
    rw [Step.result_mapError, Formatter.callParse, declares.parsing, failed]
    rfl
  rw [take, Step.bind_of_error first]

theorem take_of_ok {report : ParseReport} (parsed : parse fixture.source options = .ok report) :
    (take formatter fixture options formatted).result = .ok ⟨fixture.fileName, report.errors,
      report.tree.erase (cosmetic (canonical options)), match parse formatted options with
        | .ok report => .ok (report.tree.erase (cosmetic (canonical options)))
        | .error error => .error error.message⟩ := by
  refine take_eq_ok_iff.mpr ⟨report, canonical options, _, _, ?_, declares.normalizing options,
    reparse_of_declares declares, normalize_of_declares declares report.tree, rfl⟩
  rw [declares.parsing, parsed]
  rfl

/-- The verdict on a round trip, told from the two parses. -/
theorem verdict_of_parses (fixture : Fixture) (options : CallOptions) (formatted : String) :
    let verdict := (do
      let trip ← take formatter fixture options formatted
      Step.ofAttempt (.ofExcept trip.check)).result
    let erase := Tree.erase (cosmetic (canonical options))
    match parse fixture.source options, parse formatted options with
    | .error error, _ => verdict = .fail (.parse fixture.fileName error.message)
    | .ok _, .error error => verdict = .fail (.reparse fixture.fileName error.message)
    | .ok before, .ok after =>
        (verdict = .ok () ↔ before.errors ≠ [] ∨ Tree.SameUpToOrder (erase after.tree) (erase before.tree)) ∧
        (verdict = .ok () ∨ verdict = .fail
          (.structureChanged fixture.fileName (erase before.tree).written (erase after.tree).written)) := by
  intro verdict erase
  cases parsed : parse fixture.source options with
  | error error => exact congrArg Step.result (Step.bind_of_error (take_of_error declares parsed) _)
  | ok before =>
      have taken : (take formatter fixture options formatted).result = _ := take_of_ok declares parsed
      have ended : verdict = .ofExcept (check _) := congrArg Step.result (Step.bind_of_ok taken _)
      cases reparsed : parse formatted options with
      | error error =>
          simp only
          rw [ended, check_of_error (by rw [reparsed])]
          rfl
      | ok after =>
          have same : (erase after.tree).same (erase before.tree) = true ↔
              Tree.SameUpToOrder (erase after.tree) (erase before.tree) :=
            Tree.same_iff _ _ (Tree.wellKeyed_prune _ (declares.keyed _ _ _ reparsed))
              (Tree.wellKeyed_prune _ (declares.keyed _ _ _ parsed))
          simp only
          rw [ended, check_of_ok (by rw [reparsed]), ← same]
          by_cases passes : (before.errors ≠ [] || (erase after.tree).same (erase before.tree)) = true
          · rw [if_pos passes]
            exact ⟨iff_of_true rfl (by simpa using passes), .inl rfl⟩
          · rw [if_neg passes]
            exact ⟨iff_of_false (by rintro ⟨_⟩) (by simpa using passes), .inr rfl⟩

end

theorem sample_verdict_of_parses :
    (do
      let trip ← take Scripted.looseLines.formatter ⟨"a", "a b\n"⟩ Scripted.sampleOptions "ab\n"
      Step.ofAttempt (.ofExcept trip.check)).result = .ok () := by
  have outcome := verdict_of_parses Scripted.looseLines_declares ⟨"a", "a b\n"⟩ Scripted.sampleOptions "ab\n"
  refine outcome.1.mpr (.inr ((Tree.same_iff _ _ ?_ ?_).mp (by cbv)))
  · exact Tree.wellKeyed_prune _ (Scripted.wellKeyed_lineReport _)
  · exact Tree.wellKeyed_prune _ (Scripted.wellKeyed_lineReport _)

end RoundTrip

end FormatAudit
