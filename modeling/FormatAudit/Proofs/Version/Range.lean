import FormatAudit.Proofs.Text.Blank
import FormatAudit.Proofs.Version.Requirement
import FormatAudit.Version.Range

/-! Ranges are read back from their texts, but for the lone wildcards that are not a star. Such a wildcard is read as a
requirement without comparators, whose text is the star that stands for every version. -/

namespace FormatAudit

theorem Version.not_blank_of_identifier {c : Char} (identifier : isIdentifierChar c = true) :
    Text.isBlank c = false := by
  refine Bool.eq_false_iff.mpr fun blank => ?_
  simp only [isIdentifierChar, Char.isAlphanum, Char.isAlpha, Char.isUpper, Char.isLower, Char.isDigit, Bool.or_eq_true,
    Bool.and_eq_true, decide_eq_true_eq, ge_iff_le, UInt32.le_iff_toNat_le] at identifier
  change (((65 ≤ c.toNat ∧ c.toNat ≤ 90) ∨ (97 ≤ c.toNat ∧ c.toNat ≤ 122)) ∨
    (48 ≤ c.toNat ∧ c.toNat ≤ 57)) ∨ c = '-'
    at identifier
  simp only [Text.isBlank, Bool.or_eq_true, Bool.and_eq_true, decide_eq_true_eq, beq_iff_eq] at blank
  rcases identifier with bounds | rfl
  · omega
  · revert blank
    decide

theorem Version.not_blank_of_dotted {segments : List String} {part : VersionPart}
    (proper : ∀ segment ∈ segments, IsSegment part segment) {c : Char} (member : c ∈ (dotted segments).toList) :
    Text.isBlank c = false := by
  induction segments with
  | nil => simp [dotted] at member
  | cons segment others ih =>
      have own : c ∈ segment.toList → Text.isBlank c = false :=
        fun inside => not_blank_of_identifier ((proper segment (by simp)).identifier c inside)
      by_cases last : others = []
      · rw [last, toList_dotted_singleton] at member
        exact own member
      · rw [toList_dotted_cons segment last, List.mem_append, List.mem_cons] at member
        rcases member with inside | rfl | later
        · exact own inside
        · decide
        · exact ih (fun other inside => proper other (by simp [inside])) later

theorem Operator.not_blank_of_symbol {operator : Operator} {c : Char} (member : c ∈ operator.symbol.toList) :
    Text.isBlank c = false := by
  have visible : operator.symbol.toList.all (!Text.isBlank ·) = true := by cases operator <;> decide
  simpa using List.all_eq_true.mp visible c member

theorem Comparator.not_blank_of_text {comparator : Comparator} (wellFormed : comparator.WellFormed) {c : Char}
    (member : c ∈ comparator.text.toList) : Text.isBlank c = false := by
  have digits {n : Nat} (inside : c ∈ Nat.toDigits 10 n) : Text.isBlank c = false := by
    have digit := Nat.isDigit_of_mem_toDigits (by decide) (by decide) inside
    exact Version.not_blank_of_identifier (by simp [Version.isIdentifierChar, Char.isAlphanum, digit])
  have star (inside : c ∈ if comparator.operator = .wildcard then ['.', '*'] else []) : Text.isBlank c = false := by
    split at inside
    · simp only [List.mem_cons, List.not_mem_nil, or_false] at inside
      rcases inside with rfl | rfl <;> decide
    · cases inside
  have release (inside : c ∈ if comparator.pre = [] then [] else '-' :: (Version.dotted comparator.pre).toList) :
      Text.isBlank c = false := by
    split at inside
    · cases inside
    · rcases List.mem_cons.mp inside with rfl | later
      · decide
      · exact Version.not_blank_of_dotted wellFormed.segments later
  rw [Requirement.toList_text, List.mem_append, List.mem_append] at member
  rcases member with (symbol | major) | member
  · exact Operator.not_blank_of_symbol symbol
  · exact digits major
  · split at member
    · exact star member
    · rw [List.cons_append, List.mem_cons, List.mem_append] at member
      rcases member with rfl | minor | member
      · decide
      · exact digits minor
      · split at member
        · exact star member
        · rw [List.cons_append, List.mem_cons, List.mem_append] at member
          rcases member with rfl | patch | member
          · decide
          · exact digits patch
          · exact release member

theorem Requirement.exists_last_text {cs : List Comparator} (some : cs ≠ []) :
    ∃ front, ∃ c ∈ cs, (Requirement.mk cs).text.toList = front ++ c.text.toList := by
  induction cs with
  | nil => exact absurd rfl some
  | cons c others ih =>
      by_cases last : others = []
      · exact ⟨[], c, by simp, by rw [last, toList_text_singleton]; rfl⟩
      · obtain ⟨front, other, member, shape⟩ := ih last
        exact ⟨c.text.toList ++ ',' :: ' ' :: front, other, by simp [member], by
          rw [toList_text_cons c last, shape]
          simp⟩

theorem Requirement.trim_text {r : Requirement} (wellFormed : r.WellFormed) : Text.trim r.text = r.text := by
  obtain ⟨cs⟩ := r
  obtain ⟨c, others, rfl⟩ := List.exists_cons_of_ne_nil wellFormed.nonempty
  obtain ⟨rest, starts⟩ := exists_first_text c others
  obtain ⟨front, last, member, ends⟩ := exists_last_text wellFormed.nonempty
  have nonempty (comparator : Comparator) : comparator.text.toList ≠ [] := by
    obtain ⟨first, left, shape, _⟩ := exists_text comparator
    simp [shape]
  have visible : ∀ char ∈ c.text.toList ++ last.text.toList, Text.isBlank char = false := by
    intro char inside
    rcases List.mem_append.mp inside with first | second
    · exact Comparator.not_blank_of_text (wellFormed.comparators c (by simp)) first
    · exact Comparator.not_blank_of_text (wellFormed.comparators last member) second
  rw [Text.trim, Text.trimChars_of_words starts ends (nonempty c) (nonempty last) visible, String.ofList_toList]

theorem Requirement.lone_wildcard {s : String} {c : Char} {rest : List Char}
    (wild : readWildcard (skipSpaces (Text.trim s).toList) = some (c, rest)) (alone : skipSpaces rest = []) :
    Text.trim s = "*" ∨ Text.trim s = "x" ∨ Text.trim s = "X" := by
  have trimmed : (Text.trim s).toList = Text.trimChars s.toList := String.toList_ofList
  have start : skipSpaces (Text.trim s).toList = (Text.trim s).toList := by
    rw [skipSpaces, trimmed]
    cases shape : Text.trimChars s.toList with
    | nil => rfl
    | cons first tail =>
        have visible := Text.not_blank_of_trimChars (s := s.toList) (.inl (by rw [shape]; rfl : first ∈ _))
        have other : first ≠ ' ' := by
          rintro rfl
          cases visible
        simp [other]
  obtain ⟨shape, kinds⟩ : (Text.trim s).toList = c :: rest ∧ (c = '*' ∨ c = 'x' ∨ c = 'X') := by
    rw [start] at wild
    cases whole : (Text.trim s).toList with
    | nil => simp [whole, readWildcard] at wild
    | cons first tail =>
        rw [whole, readWildcard] at wild
        split at wild
        · rename_i kinds
          obtain ⟨rfl, rfl⟩ := Prod.mk.inj (Option.some.inj wild)
          exact ⟨rfl, kinds⟩
        · cases wild
  have last : rest = [] := by
    by_contra more
    have spaces : ∀ char ∈ rest, char = ' ' := by simpa [skipSpaces, List.dropWhile_eq_nil_iff] using alone
    have visible := Text.not_blank_of_trimChars (s := s.toList) (c := rest.getLast more) (.inr (by
      rw [← trimmed, shape, List.getLast?_cons_of_ne_nil more, List.getLast?_eq_some_getLast more]
      rfl))
    rw [spaces _ (List.getLast_mem more)] at visible
    cases visible
  rw [last] at shape
  rcases kinds with rfl | rfl | rfl
  · exact .inl (String.toList_inj.mp shape)
  · exact .inr (.inl (String.toList_inj.mp shape))
  · exact .inr (.inr (String.toList_inj.mp shape))

namespace VersionRange

theorem parse_text_of_wellFormed {r : Requirement} (wellFormed : r.WellFormed) :
    parse (requirement r).text = .ok (requirement r) := by
  have noWildcard := (Requirement.starts_text wellFormed.nonempty).2
  have other : ¬(r.text = "" ∨ r.text = wildcard) := by
    rintro (empty | star)
    · obtain ⟨cs⟩ := r
      obtain ⟨c, others, rfl⟩ := List.exists_cons_of_ne_nil wellFormed.nonempty
      obtain ⟨rest, whole⟩ := Requirement.exists_first_text c others
      obtain ⟨first, left, shape, _⟩ := Requirement.exists_text c
      rw [empty, shape] at whole
      cases whole
    · rw [show Requirement.mk r.comparators = r from rfl, star] at noWildcard
      cases noWildcard
  rw [parse, text, Requirement.trim_text wellFormed, if_neg other, Requirement.parse_text wellFormed]

/-- A lone wildcard that is not a star is read as something else the second time: as every version, and not as every
release. All other ranges are read back from their texts. -/
theorem parse_text_of_parse {s : String} {range : VersionRange} (read : parse s = .ok range) :
    ∃ again, parse range.text = .ok again ∧ (again = range ↔ Text.trim s ≠ "x" ∧ Text.trim s ≠ "X") ∧
      (again ≠ range → ∀ v, again.admits v = range.admits v ↔ v.pre = []) := by
  simp only [parse] at read
  split at read
  · rename_i every
    obtain rfl := Except.ok.inj read
    refine ⟨any, by cbv, ?_, fun different => absurd rfl different⟩
    have other : Text.trim s ≠ "x" ∧ Text.trim s ≠ "X" := by
      rcases every with same | same <;> rw [same] <;> decide
    exact ⟨fun _ => other, fun _ => rfl⟩
  · rename_i other
    split at read
    · rename_i r readRequirement
      obtain rfl := Except.ok.inj read
      rcases Requirement.wellFormed_of_parse readRequirement with wellFormed | ⟨rfl, ⟨c, rest⟩, wild, alone⟩
      · refine ⟨_, parse_text_of_wellFormed wellFormed, ⟨fun _ => ⟨?_, ?_⟩, fun _ => rfl⟩,
          fun different => absurd rfl different⟩
        all_goals
          intro same
          rw [same] at readRequirement
          exact absurd (congrArg Requirement.comparators (Except.ok.inj readRequirement)).symm wellFormed.nonempty
      · refine ⟨any, by cbv, ?_, ?_⟩
        · have spelled := (Requirement.lone_wildcard wild alone).resolve_left fun star => other (.inr star)
          constructor
          · intro same
            cases same
          · intro unspelled
            exact (spelled.elim unspelled.1 unspelled.2).elim
        · intro _ v
          simp [admits, Requirement.admits]
    · cases read

def sample : VersionRange :=
  requirement ⟨[⟨.tilde, 3, some 6, none, []⟩, ⟨.wildcard, 3, none, none, []⟩,
    ⟨.less, 4, none, none, []⟩]⟩

theorem sample_parse_text : parse " ~3.6, 3.x,<4 " = .ok sample ∧ sample.text = "~3.6, 3.*, <4" ∧
    ∃ again, parse sample.text = .ok again ∧ again = sample := by
  have read : parse " ~3.6, 3.x,<4 " = .ok sample := rfl
  have trimmed : Text.trim " ~3.6, 3.x,<4 " = "~3.6, 3.x,<4" := rfl
  obtain ⟨again, readAgain, same, _⟩ := parse_text_of_parse read
  rw [trimmed] at same
  exact ⟨read, rfl, again, readAgain, same.mpr (by decide)⟩

/-- The text of a lone wildcard stands for more versions than the wildcard. -/
theorem not_parse_text_of_wildcard :
    parse "x" = .ok (requirement ⟨[]⟩) ∧ parse (requirement ⟨[]⟩).text = .ok any ∧
      any ≠ requirement ⟨[]⟩ ∧
      any.admits ⟨3, 13, 0, ["rc2"], []⟩ ≠ (requirement ⟨[]⟩).admits ⟨3, 13, 0, ["rc2"], []⟩ :=
  ⟨by cbv, by cbv, by decide, by decide⟩

end VersionRange

end FormatAudit
