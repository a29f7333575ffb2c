import FormatAudit.Proofs.Version.Reading
import FormatAudit.Version.Requirement

/-! Requirements are read back from their texts. What a reader accepts has the form that its text keeps: an operator
that is implied in the source is written out, and a number left out stays left out. -/

namespace FormatAudit

structure Comparator.WellFormed (c : Comparator) : Prop where
  major : c.major ≤ Version.maxNumber
  minor : ∀ n ∈ c.minor, n ≤ Version.maxNumber
  patch : ∀ n ∈ c.patch, n ≤ Version.maxNumber
  ordered : c.minor = none → c.patch = none
  wildcard : c.operator = .wildcard → c.patch = none
  complete : c.patch = none → c.pre = []
  segments : ∀ segment ∈ c.pre, Version.IsSegment .pre segment

namespace Requirement

def Ends (rest : List Char) : Prop := ∀ c ∈ rest.head?, c = ','

theorem Ends.head_ne {rest : List Char} (ends : Ends rest) {c other : Char} (first : c ∈ rest.head?)
    (different : ',' ≠ other) :
    c ≠ other := ends c first ▸ different

theorem skipSpaces_of_ends {rest : List Char} (ends : Ends rest) : skipSpaces rest = rest := by
  cases rest with
  | nil => rfl
  | cons c rest => simp [skipSpaces, ends c rfl]

theorem skipSpaces_of_digit {c : Char} (digit : c.isDigit = true) (rest : List Char) : skipSpaces
    (c :: rest) = c :: rest := by
  have other : c ≠ ' ' := by
    rintro rfl
    cases digit
  simp [skipSpaces, other]

theorem readOperator_of_digit {c : Char} (digit : c.isDigit = true) (rest : List Char) :
    readOperator (c :: rest) = (none, c :: rest) := by
  have others : c ≠ '=' ∧ c ≠ '>' ∧ c ≠ '<' ∧ c ≠ '~' ∧ c ≠ '^' := by
    refine ⟨?_, ?_, ?_, ?_, ?_⟩ <;> (rintro rfl; cases digit)
  rw [readOperator.eq_def]
  split <;> simp_all

theorem readOperator_symbol (operator : Operator) {c : Char} (digit : c.isDigit = true) (rest : List Char) :
    readOperator (operator.symbol.toList ++ c :: rest) =
      (if operator = .wildcard then none else some operator, c :: rest) := by
  have notEqual : c ≠ '=' := by
    rintro rfl
    cases digit
  cases operator
  case wildcard => exact readOperator_of_digit digit rest
  case greater => simp [Operator.symbol, readOperator, notEqual]
  case less => simp [Operator.symbol, readOperator, notEqual]
  all_goals rfl

theorem readWildcard_of_digit {c : Char} (digit : c.isDigit = true) (rest : List Char) : readWildcard
    (c :: rest) = none := by
  have others : ¬(c = '*' ∨ c = 'x' ∨ c = 'X') := by
    rintro (rfl | rfl | rfl) <;> cases digit
  rw [readWildcard, if_neg others]

theorem readPlace_absent (part : VersionPart) (wildcardOnly : Bool) {rest : List Char}
    (other : ∀ c ∈ rest.head?, c ≠ '.') :
    readPlace part wildcardOnly rest = .ok (.absent, rest) := by
  rw [readPlace.eq_def]
  split
  · exact absurd rfl (other '.' rfl)
  · rfl

theorem readPlace_wildcard (part : VersionPart) (wildcardOnly : Bool) (rest : List Char) :
    readPlace part wildcardOnly ('.' :: '*' :: rest) = .ok (.wildcard, rest) := rfl

theorem readPlace_number (part : VersionPart) {n : Nat} (small : n ≤ Version.maxNumber) {rest : List Char}
    (ends : ∀ c ∈ rest.head?, c.isDigit = false) :
    readPlace part false ('.' :: (Nat.toDigits 10 n ++ rest)) = .ok (.number n, rest) := by
  have number := Version.readNumber_toDigits part small ends
  obtain ⟨c, digits, shape, digit⟩ := Version.exists_toDigits n
  rw [shape] at number ⊢
  rw [readPlace, List.cons_append, readWildcard_of_digit digit]
  simp only [Bool.false_eq_true, ↓reduceIte]
  rw [← List.cons_append, number]
  rfl

theorem toList_text (c : Comparator) : c.text.toList = c.operator.symbol.toList ++ Nat.toDigits 10 c.major ++
    match c.minor with
    | none => if c.operator = .wildcard then ['.', '*'] else []
    | some minor => '.' :: Nat.toDigits 10 minor ++
      match c.patch with
      | none => if c.operator = .wildcard then ['.', '*'] else []
      | some patch => '.' :: Nat.toDigits 10 patch ++ if c.pre = [] then [] else '-' ::
          (Version.dotted c.pre).toList := by
  obtain ⟨operator, major, minor, patch, pre⟩ := c
  have dot : (toString ".").toList = ['.'] := rfl
  rcases minor with _ | minor
  · by_cases wild : operator = .wildcard <;> simp [Comparator.text, wild]
  · rcases patch with _ | patch
    · by_cases wild : operator = .wildcard <;> simp [Comparator.text, wild, dot]
    · by_cases release : pre = [] <;> simp [Comparator.text, release, dot]

theorem readComparator_eq_ok_iff {s rest : List Char} {c : Comparator} {part : VersionPart} :
    readComparator s = .ok (c, part, rest) ↔
      ∃ major minor patch pre build afterMajor afterMinor afterPatch afterPre left,
      Version.readNumber .major (skipSpaces (readOperator s).2) = .ok (major, afterMajor) ∧
      readPlace .minor false afterMajor = .ok (minor, afterMinor) ∧
      readPlace .patch (minor = .wildcard) afterMinor = .ok (patch, afterPatch) ∧
      (if patch.number?.isSome then Version.readMarked '-' .pre afterPatch else .ok (none, afterPatch)) =
        .ok (pre, afterPre) ∧
      (if patch.number?.isSome then Version.readMarked '+' .build afterPre else .ok (none, afterPre)) =
        .ok (build, left) ∧
      c = ⟨(readOperator s).1.getD (if minor = .wildcard ∨ patch = .wildcard then .wildcard else .caret), major,
        minor.number?, patch.number?, pre.getD []⟩ ∧
      part = lastPart minor patch pre build ∧ rest = skipSpaces left := by
  have join {α β : Type} (p : Prop) [Decidable p] (one other : Except VersionError α) (next : α →
    Except VersionError β) :
      (if p then one >>= next else other >>= next) = (if p then one else other) >>= next := by
    split <;> rfl
  simp only [readComparator, pure, Except.pure, join, bind_eq_ok_iff, Prod.exists, Except.ok.injEq, Prod.mk.injEq]
  constructor
  · rintro ⟨major, afterMajor, readMajor, minor, afterMinor, readMinor, patch, afterPatch, readPatch, pre,
      afterPre, readPre,
      build, left, readBuild, rfl, rfl, rfl⟩
    exact ⟨major, minor, patch, pre, build, afterMajor, afterMinor, afterPatch, afterPre, left, readMajor, readMinor,
      readPatch, readPre, readBuild, rfl, rfl, rfl⟩
  · rintro ⟨major, minor, patch, pre, build, afterMajor, afterMinor, afterPatch, afterPre, left,
      readMajor, readMinor,
      readPatch, readPre, readBuild, rfl, rfl, rfl⟩
    exact ⟨major, afterMajor, readMajor, minor, afterMinor, readMinor, patch, afterPatch, readPatch, pre,
      afterPre, readPre,
      build, left, readBuild, rfl, rfl, rfl⟩

theorem readPlace_number_le {part : VersionPart} {wildcardOnly : Bool} {s rest : List Char} {place : Place}
    (read : readPlace part wildcardOnly s = .ok (place, rest)) :
    (∀ n ∈ place.number?, n ≤ Version.maxNumber) ∧ (wildcardOnly = true → place.number? = none) := by
  rw [readPlace.eq_def] at read
  split at read
  · split at read
    · obtain ⟨rfl, rfl⟩ := Prod.mk.inj (Except.ok.inj read)
      exact ⟨by simp [Place.number?], fun _ => rfl⟩
    · split at read
      · cases read
      · rename_i others
        obtain ⟨⟨n, left⟩, readNumber, same⟩ := map_eq_ok_iff.mp read
        obtain ⟨rfl, rfl⟩ := Prod.mk.inj same
        refine ⟨?_, fun only => absurd only others⟩
        rintro m member
        obtain rfl : n = m := Option.some.inj member
        exact Version.le_of_readNumber readNumber
  · obtain ⟨rfl, rfl⟩ := Prod.mk.inj (Except.ok.inj read)
    exact ⟨by simp [Place.number?], fun _ => rfl⟩

theorem readPlace_of_absent {part : VersionPart} {wildcardOnly : Bool} {s rest : List Char}
    (read : readPlace part wildcardOnly s = .ok (.absent, rest)) (other : VersionPart) (only : Bool) :
    readPlace other only rest = .ok (.absent, rest) := by
  rw [readPlace.eq_def] at read
  split at read
  · split at read
    · cases read
    · split at read
      · cases read
      · obtain ⟨_, _, same⟩ := map_eq_ok_iff.mp read
        cases same
  · rename_i noDot
    obtain ⟨_, rfl⟩ := Prod.mk.inj (Except.ok.inj read)
    refine readPlace_absent other only fun c first dot => ?_
    obtain ⟨tail, shape⟩ := List.head?_eq_some_iff.mp first
    exact noDot tail (dot ▸ shape)

theorem readOperator_ne_wildcard (s : List Char) : (readOperator s).1 ≠ some .wildcard := by
  rw [readOperator.eq_def]
  split <;> simp

theorem wellFormed_of_readComparator {s rest : List Char} {c : Comparator} {part : VersionPart}
    (read : readComparator s = .ok (c, part, rest)) : c.WellFormed := by
  obtain ⟨major, minor, patch, pre, build, afterMajor, afterMinor, afterPatch, afterPre, left, readMajor, readMinor,
    readPatch, readPre, _, rfl, _, _⟩ := readComparator_eq_ok_iff.mp read
  obtain ⟨minorSmall, _⟩ := readPlace_number_le readMinor
  obtain ⟨patchSmall, patchLeft⟩ := readPlace_number_le readPatch
  refine ⟨Version.le_of_readNumber readMajor, minorSmall, patchSmall, ?_, ?_, ?_, ?_⟩
  · intro none
    cases minor with
    | absent =>
        rw [readPlace_of_absent readMinor] at readPatch
        rw [← (Prod.mk.inj (Except.ok.inj readPatch)).1]
        rfl
    | wildcard => exact patchLeft (by simp)
    | number n => cases none
  · intro implied
    cases given : (readOperator s).1 with
    | some operator =>
        rw [given, Option.getD_some] at implied
        exact absurd (implied ▸ given) (readOperator_ne_wildcard s)
    | none =>
        rw [given, Option.getD_none] at implied
        split at implied
        · rename_i places
          rcases places with wild | rfl
          · exact patchLeft (by simp [wild])
          · rfl
        · cases implied
  · intro none
    rw [if_neg (by simp [show patch.number? = .none from none])] at readPre
    rw [← (Prod.mk.inj (Except.ok.inj readPre)).1]
    rfl
  · split at readPre
    · exact Version.isSegment_of_readMarked readPre
    · rw [← (Prod.mk.inj (Except.ok.inj readPre)).1]
      simp

/-- Reading what follows the first number decides the rest. An operator that has no symbol is implied by a wildcard. -/
theorem readComparator_of_places (operator : Operator) {major : Nat} (small : major ≤ Version.maxNumber)
    {tail afterMinor afterPatch rest : List Char} (stop : ∀ c ∈ tail.head?, c.isDigit = false) {minor patch : Place}
    {pre : Option (List String)} (readMinor : readPlace .minor false tail = .ok (minor, afterMinor))
    (readPatch : readPlace .patch (minor = .wildcard) afterMinor = .ok (patch, afterPatch))
    (readPre : (if patch.number?.isSome then Version.readMarked '-' .pre afterPatch else .ok (none, afterPatch)) =
      .ok (pre, rest)) (ends : Ends rest)
    (implied : operator = .wildcard → minor = .wildcard ∨ patch = .wildcard) :
    ∃ part, readComparator (operator.symbol.toList ++ (Nat.toDigits 10 major ++ tail)) =
      .ok (⟨operator, major, minor.number?, patch.number?, pre.getD []⟩, part, rest) := by
  obtain ⟨first, digits, shape, digit⟩ := Version.exists_toDigits major
  have operators : readOperator (operator.symbol.toList ++ (Nat.toDigits 10 major ++ tail)) =
      (if operator = .wildcard then none else some operator, Nat.toDigits 10 major ++ tail) := by
    rw [shape, List.cons_append]
    exact readOperator_symbol operator digit (digits ++ tail)
  have readMajor : Version.readNumber .major (skipSpaces (Nat.toDigits 10 major ++ tail)) = .ok (major, tail) := by
    rw [shape, List.cons_append, skipSpaces_of_digit digit, ← List.cons_append, ← shape]
    exact Version.readNumber_toDigits .major small stop
  have readBuild : (if patch.number?.isSome then Version.readMarked '+' .build rest else .ok (none, rest)) =
      .ok (none, rest) := by
    rw [Version.readMarked_of_other .build fun c first => ends.head_ne first (by decide), ite_self]
  refine ⟨_, readComparator_eq_ok_iff.mpr ⟨major, minor, patch, pre, none, tail, afterMinor, afterPatch, rest, rest,
    ?_, readMinor, readPatch, readPre, readBuild, ?_, rfl, (skipSpaces_of_ends ends).symm⟩⟩
  · rw [operators]
    exact readMajor
  · rw [operators]
    by_cases wild : operator = .wildcard
    · simp [wild, implied wild]
    · simp [wild]

theorem readComparator_text {c : Comparator} (wellFormed : c.WellFormed) (rest : List Char) (ends : Ends rest) :
    ∃ part, readComparator (c.text.toList ++ rest) = .ok (c, part, rest) := by
  obtain ⟨operator, major, minor, patch, pre⟩ := c
  obtain ⟨majorSmall, minorSmall, patchSmall, ordered, wildcard, complete, segments⟩ := wellFormed
  have noDigit : ∀ c ∈ rest.head?, c.isDigit = false := fun c first => by rw [ends c first]; decide
  have noDot : ∀ c ∈ rest.head?, c ≠ '.' := fun c first => ends.head_ne first (by decide)
  have dotStops {tail : List Char} : ∀ c ∈ ('.' :: tail).head?, c.isDigit = false := by simp
  rw [toList_text, List.append_assoc, List.append_assoc]
  cases minor with
  | none =>
      obtain rfl : patch = none := ordered rfl
      obtain rfl : pre = [] := complete rfl
      by_cases wild : operator = .wildcard
      · simp only [if_pos wild]
        exact readComparator_of_places operator majorSmall dotStops (readPlace_wildcard .minor false rest)
          (readPlace_absent .patch _ noDot) rfl ends fun _ => .inl rfl
      · simp only [if_neg wild]
        exact readComparator_of_places operator majorSmall noDigit (readPlace_absent .minor false noDot)
          (readPlace_absent .patch _ noDot) rfl ends fun same => absurd same wild
  | some minor =>
      have small := minorSmall minor rfl
      cases patch with
      | none =>
          obtain rfl : pre = [] := complete rfl
          by_cases wild : operator = .wildcard
          · simp only [if_pos wild, List.append_assoc, List.cons_append]
            exact readComparator_of_places operator majorSmall dotStops (readPlace_number .minor small dotStops)
              (readPlace_wildcard .patch _ rest) rfl ends fun _ => .inr rfl
          · simp only [if_neg wild, List.append_assoc, List.cons_append]
            exact readComparator_of_places operator majorSmall dotStops (readPlace_number .minor small noDigit)
              (readPlace_absent .patch _ noDot) rfl ends fun same => absurd same wild
      | some patch =>
          have explicit (wild : operator = .wildcard) : False := by cases wildcard wild
          by_cases release : pre = []
          · simp only [if_pos release, List.append_assoc, List.cons_append, List.nil_append]
            have := readComparator_of_places operator majorSmall dotStops (readPlace_number .minor small dotStops)
              (readPlace_number .patch (patchSmall patch rfl) noDigit)
              (Version.readMarked_of_other .pre fun c first => ends.head_ne first (by decide)) ends
              fun same => (explicit same).elim
            rw [release]
            exact this
          · simp only [if_neg release, List.append_assoc, List.cons_append]
            have noSegment : ∀ c ∈ rest.head?, Version.isIdentifierChar c = false ∧ c ≠ '.' :=
              fun c first => by rw [ends c first]; decide
            have hyphenStops : ∀ c ∈ ('-' :: ((Version.dotted pre).toList ++ rest)).head?,
              c.isDigit = false := by simp
            exact readComparator_of_places operator majorSmall dotStops (readPlace_number .minor small dotStops)
              (readPlace_number .patch (patchSmall patch rfl) hyphenStops)
              (Version.readMarked_dotted '-' release segments noSegment) ends fun same => (explicit same).elim

theorem exists_text (c : Comparator) :
    ∃ first rest, c.text.toList = first :: rest ∧
      (first.isDigit = true ∨ c.operator.symbol.toList.head? = some first) := by
  rw [toList_text]
  cases symbol : c.operator.symbol.toList with
  | nil =>
      obtain ⟨digit, digits, shape, isDigit⟩ := Version.exists_toDigits c.major
      exact ⟨digit, _, by rw [shape]; rfl, .inl isDigit⟩
  | cons first rest => exact ⟨first, _, rfl, .inr rfl⟩

theorem toList_text_cons (c : Comparator) {more : List Comparator} (some : more ≠ []) :
    (Requirement.mk (c :: more)).text.toList = c.text.toList ++ ',' :: ' ' :: (Requirement.mk more).text.toList := by
  obtain ⟨other, others, rfl⟩ := List.exists_cons_of_ne_nil some
  simp [text, String.toList_intercalate]

theorem toList_text_singleton (c : Comparator) : (Requirement.mk [c]).text.toList = c.text.toList := by
  simp [text]

theorem exists_first_text (c : Comparator) (others : List Comparator) :
    ∃ rest, (Requirement.mk (c :: others)).text.toList = c.text.toList ++ rest := by
  by_cases last : others = []
  · exact ⟨[], by rw [last, toList_text_singleton, List.append_nil]⟩
  · exact ⟨_, toList_text_cons c last⟩

/-- A requirement starts with a digit or a symbol, so that neither a space nor a wildcard is read before it. -/
theorem starts_text {cs : List Comparator} (some : cs ≠ []) :
    skipSpaces (Requirement.mk cs).text.toList = (Requirement.mk cs).text.toList ∧
      readWildcard (Requirement.mk cs).text.toList = none := by
  obtain ⟨c, others, rfl⟩ := List.exists_cons_of_ne_nil some
  obtain ⟨rest, whole⟩ := exists_first_text c others
  obtain ⟨first, left, shape, start⟩ := exists_text c
  rw [whole, shape, List.cons_append]
  rcases start with digit | symbol
  · exact ⟨skipSpaces_of_digit digit _, readWildcard_of_digit digit _⟩
  · cases operator : c.operator <;> rw [operator] at symbol <;> cases symbol <;> exact ⟨rfl, rfl⟩

theorem readComparators_text {cs : List Comparator} (some : cs ≠ [])
    (wellFormed : ∀ c ∈ cs, c.WellFormed) {more : Nat}
    (few : cs.length ≤ more + 1) : readComparators more (Requirement.mk cs).text.toList = .ok cs := by
  induction cs generalizing more with
  | nil => exact absurd rfl some
  | cons c others ih =>
      have own := wellFormed c (by simp)
      by_cases last : others = []
      · obtain ⟨part, read⟩ := readComparator_text own [] (by simp [Ends])
        rw [List.append_nil] at read
        rw [last, toList_text_singleton, readComparators, read]
      · obtain ⟨part, read⟩ := readComparator_text own (',' :: ' ' :: (Requirement.mk others).text.toList)
          (by simp [Ends])
        rw [toList_text_cons c last, readComparators, read]
        cases more with
        | zero => exact absurd (by simpa using few) last
        | succ more =>
            have readOthers := ih last (fun other member => wellFormed other (by simp [member]))
              (show others.length ≤ more + 1 by simpa using few)
            show (c :: ·) <$> readComparators more (skipSpaces (Requirement.mk others).text.toList) = _
            rw [(starts_text last).1, readOthers]
            rfl

theorem wellFormed_of_readComparators {more : Nat} {s : List Char} {cs : List Comparator}
    (read : readComparators more s = .ok cs) : cs ≠ [] ∧ (∀ c ∈ cs, c.WellFormed) ∧
      cs.length ≤ more + 1 := by
  fun_induction readComparators more s generalizing cs with
  | case1 => cases read
  | case2 more s comparator part readFirst =>
      obtain rfl := Except.ok.inj read
      have own := wellFormed_of_readComparator readFirst
      exact ⟨by simp, by simpa using own, by simp⟩
  | case3 => cases read
  | case4 s comparator part rest more readFirst ih =>
      obtain ⟨others, readOthers, rfl⟩ := map_eq_ok_iff.mp read
      obtain ⟨_, wellFormed, few⟩ := ih readOthers
      have own := wellFormed_of_readComparator readFirst
      exact ⟨by simp, by simpa using ⟨own, wellFormed⟩, by simpa using few⟩
  | case5 => cases read

/-- A requirement as a reader makes it from anything but a lone wildcard. -/
structure WellFormed (r : Requirement) : Prop where
  nonempty : r.comparators ≠ []
  comparators : ∀ c ∈ r.comparators, c.WellFormed
  few : r.comparators.length ≤ maxComparators

theorem parse_text {r : Requirement} (wellFormed : r.WellFormed) : parse r.text = .ok r := by
  obtain ⟨start, noWildcard⟩ := starts_text wellFormed.nonempty
  have read : readComparators (maxComparators - 1) r.text.toList = .ok r.comparators :=
    readComparators_text wellFormed.nonempty wellFormed.comparators wellFormed.few
  rw [parse, parseChars, start, noWildcard]
  show Requirement.mk <$> readComparators (maxComparators - 1) r.text.toList = _
  rw [read]
  rfl

theorem wellFormed_of_parse {s : String} {r : Requirement} (read : parse s = .ok r) :
    r.WellFormed ∨ r = ⟨[]⟩ ∧ ∃ c, readWildcard (skipSpaces s.toList) = some c ∧ skipSpaces c.2 = [] := by
  rw [parse, parseChars] at read
  split at read
  · rename_i c rest wild
    split at read
    · rename_i alone
      exact .inr ⟨(Except.ok.inj read).symm, (c, rest), wild, alone⟩
    · cases read
    · cases read
  · obtain ⟨cs, readAll, rfl⟩ := map_eq_ok_iff.mp read
    obtain ⟨nonempty, comparators, few⟩ := wellFormed_of_readComparators readAll
    exact .inl ⟨nonempty, comparators, few⟩

end Requirement

end FormatAudit
