import FormatAudit.Proofs.RoundTrip
import FormatAudit.Proofs.Tree.Reordering

/-! The order in which a parser gives the fields of a node is no matter to the comparison of trees, and so none to a
round trip. -/

namespace FormatAudit

/-- No float of the tree is a NaN. -/
def Tree.NaNFree (tree : Tree) : Prop := ∀ x, (Tree.float x).PartOf tree → x.isNaN = false

/-- How two parses ended that are the same but for the order of fields. -/
inductive ParsedAlike : Attempt FormatterError ParseReport → Attempt FormatterError ParseReport → Prop
  | error (fault) : ParsedAlike (.error fault) (.error fault)
  | ok {tree other errors} : tree.Reordered other → ParsedAlike (.ok ⟨tree, errors⟩) (.ok ⟨other, errors⟩)

def UnitFailure.withoutTrees : UnitFailure → UnitFailure
  | .structureChanged fixture _ _ => .structureChanged fixture "" ""
  | failure => failure

namespace Tree

variable {a b c d : Tree}

theorem same_equivalence :
    Equivalence fun a b : {tree : Tree // tree.WellKeyed ∧ tree.NaNFree} => a.1.same b.1 = true where
  refl tree := by
    obtain ⟨keyed, numbers⟩ := tree.2
    exact (same_iff_upToOrder keyed keyed).mpr (upToOrder_refl fun x part => Binary64.equal_self (numbers x part))
  symm {first second} alike := by
    rw [same_iff_upToOrder first.2.1 second.2.1] at alike
    rw [same_iff_upToOrder second.2.1 first.2.1]
    refine alike.symm ?_
    intro x y equal
    rw [Binary64.equal_comm]
    exact equal
  trans {first second third} alike alikeToo := by
    rw [same_iff_upToOrder first.2.1 second.2.1] at alike
    rw [same_iff_upToOrder second.2.1 third.2.1] at alikeToo
    rw [same_iff_upToOrder first.2.1 third.2.1]
    refine alike.trans ?_ alikeToo
    intro x y z
    exact Binary64.equal_trans

theorem same_congr (keyed : a.WellKeyed) (keyedToo : b.WellKeyed) (moved : a.Reordered c) (movedToo : b.Reordered d) :
    a.same b = c.same d := by
  rw [Bool.eq_iff_iff, same_iff_upToOrder keyed keyedToo,
    same_iff_upToOrder (moved.wellKeyed keyed) (movedToo.wellKeyed keyedToo)]
  constructor
  · intro alike
    have left : UpToOrder (fun x y => x.equal y = true) c b :=
      (moved.symm fun _ _ => Eq.symm).trans (by rintro x _ z rfl equal; exact equal) alike
    exact left.trans (by rintro x y _ equal rfl; exact equal) movedToo
  · intro alike
    have left : UpToOrder (fun x y => x.equal y = true) a d :=
      moved.trans (by rintro x _ z rfl equal; exact equal) alike
    exact left.trans (by rintro x y _ equal rfl; exact equal) (movedToo.symm fun _ _ => Eq.symm)

theorem same_of_reordered (keyed : a.WellKeyed) (numbers : a.NaNFree) (moved : a.Reordered b) : a.same b = true := by
  rw [← same_congr keyed keyed (upToOrder_refl fun _ _ => rfl) moved]
  exact same_equivalence.refl ⟨a, keyed, numbers⟩

theorem same_erase (cosmetic : Option String → String → Bool) (keyed : a.WellKeyed) (keyedToo : b.WellKeyed)
    (alike : a.same b = true) : (a.erase cosmetic).same (b.erase cosmetic) = true := by
  have related := (same_iff_upToOrder keyed keyedToo).mp alike
  refine (same_iff_upToOrder (wellKeyed_prune a keyed) (wellKeyed_prune b keyedToo)).mpr ?_
  exact related.prune _ keyed

end Tree

theorem Attempt.mapError_ofExcept {ε ε' α : Type} (f : ε → ε') (result : Except ε α) :
    (ofExcept result).mapError f = ofExcept (result.mapError f) := by
  cases result <;> rfl

namespace RoundTrip

def outcome (formatter : Formatter) (fixture : Fixture) (options : CallOptions) (formatted : String) :
    Attempt UnitFailure Unit :=
  (do
    let trip ← take formatter fixture options formatted
    Step.ofAttempt (.ofExcept trip.check)).result

theorem check_congr {fixture : String} {errors : List String} {a b c d : Tree} (keyed : a.WellKeyed)
    (keyedToo : b.WellKeyed) (moved : a.Reordered c) (movedToo : b.Reordered d) :
    (check ⟨fixture, errors, a, .ok b⟩).mapError UnitFailure.withoutTrees =
      (check ⟨fixture, errors, c, .ok d⟩).mapError UnitFailure.withoutTrees := by
  rw [check_of_ok rfl, check_of_ok rfl]
  simp only [Tree.same_congr keyedToo keyed movedToo moved]
  split <;> rfl

section

variable (cosmetic : CallOptions → Option String → String → Bool)

/-- How a round trip ends, told from how the two parses and the normalising of options did. -/
def ending (fixture : String) (canonical : Except Crash CallOptions)
    (before after : Attempt FormatterError ParseReport) : Attempt UnitFailure Unit := do
  let before ← before.mapError fun error => .parse fixture error.message
  let options ← Attempt.ofCrash canonical
  match after with
  | .ok after =>
    .ofExcept (check ⟨fixture, before.errors, before.tree.erase (cosmetic options),
      .ok (after.tree.erase (cosmetic options))⟩)
  | .error (.error error) => .fail (.reparse fixture error.message)
  | .error (.crash crash) => .error (.crash crash)

theorem ending_of_ok (fixture : String) (options : CallOptions) (before after : ParseReport) :
    ending cosmetic fixture (.ok options) (.ok before) (.ok after) =
      .ofExcept (check ⟨fixture, before.errors, before.tree.erase (cosmetic options),
        .ok (after.tree.erase (cosmetic options))⟩) := rfl

theorem ending_congr {before beforeToo after afterToo : Attempt FormatterError ParseReport}
    (first : ParsedAlike before beforeToo) (second : ParsedAlike after afterToo)
    (keyed : ∀ report, before = .ok report → report.tree.WellKeyed)
    (keyedToo : ∀ report, after = .ok report → report.tree.WellKeyed)
    (fixture : String) (canonical : Except Crash CallOptions) :
    (ending cosmetic fixture canonical before after).mapError UnitFailure.withoutTrees =
      (ending cosmetic fixture canonical beforeToo afterToo).mapError UnitFailure.withoutTrees := by
  cases first with
  | error fault => cases fault <;> rfl
  | ok moved =>
      cases canonical with
      | error crash => rfl
      | ok options =>
          cases second with
          | error fault => cases fault <;> rfl
          | ok movedToo =>
              rw [ending_of_ok, ending_of_ok, Attempt.mapError_ofExcept, Attempt.mapError_ofExcept]
              refine congrArg Attempt.ofExcept (check_congr ?_ ?_ ?_ ?_)
              · exact Tree.wellKeyed_prune _ (keyed _ rfl)
              · exact Tree.wellKeyed_prune _ (keyedToo _ rfl)
              · exact moved.prune _ (keyed _ rfl)
              · exact movedToo.prune _ (keyedToo _ rfl)

variable {cosmetic} in
theorem outcome_eq_ending (formatter : Formatter)
    (cleaning : ∀ options kind fields,
      formatter.clean options kind fields = .ok (.filter fields fun field => !cosmetic options kind field.1))
    (fixture : Fixture) (options : CallOptions) (formatted : String) :
    outcome formatter fixture options formatted =
      ending cosmetic fixture.fileName (formatter.normalizeOptions options) (formatter.parse fixture.source options)
        (formatter.parse formatted options) := by
  have erased := fun options => Tree.normalize_eq_erase (cleaning options)
  unfold outcome take reparse Formatter.callParse
  rcases formatter.parse fixture.source options with (error | crash) | before
  · rfl
  · rfl
  · cases formatter.normalizeOptions options with
    | error crash => rfl
    | ok normalized =>
        rcases formatter.parse formatted options with (error | crash) | after
        · simp only [bind, Step.andThen, Step.ofAttempt, Step.mapError, Attempt.mapError, Attempt.ofCrash, erased]
          rfl
        · rfl
        · simp only [bind, Step.andThen, Step.ofAttempt, Step.mapError, Attempt.mapError, Attempt.ofCrash, erased]
          rfl

end

/-- Trees without a NaN are compared by an equivalence that does not see the order of fields, and cleaning respects it.
So a round trip ends alike when the parser gives the same fields in another order. -/
theorem field_order_is_no_matter {formatter : Formatter} {cosmetic : CallOptions → Option String → String → Bool}
    {parse : String → CallOptions → Attempt FormatterError ParseReport}
    (cleaning : ∀ options kind fields,
      formatter.clean options kind fields = .ok (.filter fields fun field => !cosmetic options kind field.1))
    (keyed : ∀ source options report, formatter.parse source options = .ok report → report.tree.WellKeyed)
    (alike : ∀ source options, ParsedAlike (formatter.parse source options) (parse source options)) :
    Equivalence (fun a b : {tree : Tree // tree.WellKeyed ∧ tree.NaNFree} => a.1.same b.1 = true) ∧
    (∀ a b : Tree, a.WellKeyed → a.NaNFree → a.Reordered b → a.same b = true) ∧
    (∀ (hook : Tree.Hook (Except Crash)) (drop : Option String → String → Bool),
      (∀ kind fields, hook kind fields = .ok (.filter fields fun field => !drop kind field.1)) →
      ∀ a b : Tree, a.WellKeyed → b.WellKeyed → a.same b = true →
        ∃ c d, Tree.normalize hook a = .ok c ∧ Tree.normalize hook b = .ok d ∧ c.same d = true) ∧
    (∀ fixture options formatted,
      (outcome formatter fixture options formatted).mapError UnitFailure.withoutTrees =
        (outcome { formatter with parse := parse } fixture options formatted).mapError UnitFailure.withoutTrees) := by
  refine ⟨Tree.same_equivalence, fun a b => Tree.same_of_reordered, ?_, ?_⟩
  · intro hook drop picks a b keyed keyedToo same
    exact ⟨_, _, Tree.normalize_eq_erase picks a, Tree.normalize_eq_erase picks b,
      Tree.same_erase drop keyed keyedToo same⟩
  · intro fixture options formatted
    have congr := ending_congr cosmetic (alike fixture.source options) (alike formatted options) (keyed _ _) (keyed _ _)
    rw [outcome_eq_ending formatter cleaning, outcome_eq_ending { formatter with parse := parse } cleaning]
    exact congr fixture.fileName (formatter.normalizeOptions options)

end RoundTrip

def Tree.reversed : Tree → Tree
  | .sequence items => .sequence (items.map fun
    | .mapping fields => .mapping fields.reverse
    | item => item)
  | tree => tree

theorem Tree.reordered_reversed (tree : Tree) : tree.Reordered tree.reversed := by
  cases tree with
  | sequence items =>
      refine .sequence (List.forall₂_map_right_iff.mpr (List.forall₂_same.mpr ?_))
      intro item _
      cases item with
      | mapping fields =>
          refine upToOrder_mapping_iff.mpr ⟨fields, List.forall₂_same.mpr ?_, (List.reverse_perm fields).symm⟩
          exact fun field _ => ⟨rfl, upToOrder_refl fun _ _ => rfl⟩
      | _ => exact upToOrder_refl fun _ _ => rfl
  | _ => exact upToOrder_refl fun _ _ => rfl

namespace Scripted

def reversedReport (source : String) : ParseReport :=
  ⟨(lineReport source).tree.reversed, (lineReport source).errors⟩

def reversedLines : Formatter :=
  { looseLines.formatter with parse := fun source _ => .ok (reversedReport source) }

def looseSpaces (options : CallOptions) (kind : Option String) (name : String) : Bool :=
  looseLines.clean.any (·.drops options kind name)

theorem sample_field_order :
    (RoundTrip.outcome reversedLines ⟨"a", "a\nb\n"⟩ sampleOptions "a\n").mapError UnitFailure.withoutTrees =
      .fail (.structureChanged "a" "" "") := by
  have cleaning : ∀ options kind fields, looseLines.formatter.clean options kind fields =
      .ok (.filter fields fun field => !looseSpaces options kind field.1) := fun _ _ _ => rfl
  have keyed : ∀ source options report, looseLines.formatter.parse source options = .ok report →
      report.tree.WellKeyed := by
    intro source _ report parsed
    cases parsed
    exact wellKeyed_lineReport source
  have alike : ∀ source options,
      ParsedAlike (looseLines.formatter.parse source options) (.ok (reversedReport source)) :=
    fun source _ => .ok (Tree.reordered_reversed (lineReport source).tree)
  obtain ⟨_, _, _, ends⟩ := RoundTrip.field_order_is_no_matter cleaning keyed alike
  have normalized : looseLines.formatter.normalizeOptions sampleOptions = .ok (enableAll ["loose"] sampleOptions) := rfl
  have parsed : ∀ source, looseLines.formatter.parse source sampleOptions = .ok (lineReport source) := fun _ => rfl
  have proper : (lineReport "a\nb\n").errors = [] := by cbv
  have lost : ((lineReport "a\n").tree.erase (looseSpaces (enableAll ["loose"] sampleOptions))).same
      ((lineReport "a\nb\n").tree.erase (looseSpaces (enableAll ["loose"] sampleOptions))) = false := by
    cbv
  rw [reversedLines, ← ends, RoundTrip.outcome_eq_ending _ cleaning, normalized, parsed, parsed,
    RoundTrip.ending_of_ok,
    Attempt.mapError_ofExcept, RoundTrip.check_of_ok rfl, if_neg (by simp [proper, lost])]
  rfl

end Scripted

end FormatAudit
