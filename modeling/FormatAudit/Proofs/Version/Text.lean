import FormatAudit.Proofs.Version.Reading

/-! A text is read as a version if and only if it is the text of that version. -/

namespace FormatAudit.Version

structure WellFormed (v : Version) : Prop where
  major : v.major ≤ maxNumber
  minor : v.minor ≤ maxNumber
  patch : v.patch ≤ maxNumber
  pre : ∀ segment ∈ v.pre, IsSegment .pre segment
  build : ∀ segment ∈ v.build, IsSegment .build segment

def core (v : Version) : List Char :=
  Nat.toDigits 10 v.major ++ '.' :: (Nat.toDigits 10 v.minor ++ '.' :: Nat.toDigits 10 v.patch)

/-- Identifiers in a text, with the mark before them if there are any. -/
def marked (mark : Char) (segments : List String) : List Char :=
  if segments = [] then [] else mark :: (dotted segments).toList

theorem toList_text (v : Version) : v.text.toList = v.core ++ (marked '-' v.pre ++ marked '+' v.build) := by
  have dot : (toString ".").toList = ['.'] := rfl
  obtain ⟨major, minor, patch, pre, build⟩ := v
  by_cases release : pre = [] <;> by_cases plain : build = [] <;> simp [text, core, marked, release, plain, dot]

theorem marked_cons (mark : Char) {segments : List String} (some : segments ≠ []) :
    marked mark segments = mark :: (dotted segments).toList := if_neg some

theorem head_marked {mark c : Char} {segments : List String} (first : c ∈ (marked mark segments).head?) :
    c = mark := by
  rw [marked] at first
  split at first
  · cases first
  · exact (Option.some.inj first).symm

theorem readMarked_marked (mark : Char) {part : VersionPart} {segments : List String}
    (proper : ∀ segment ∈ segments, IsSegment part segment) {rest : List Char}
    (ends : ∀ c ∈ rest.head?, isIdentifierChar c = false ∧ c ≠ '.' ∧ c ≠ mark) :
    ∃ found, readMarked mark part (marked mark segments ++ rest) = .ok (found, rest) ∧
      found.getD [] = segments := by
  by_cases none : segments = []
  · refine ⟨.none, ?_, none.symm⟩
    rw [marked, if_pos none]
    exact readMarked_of_other part fun c first => (ends c first).2.2
  · refine ⟨.some segments, ?_, rfl⟩
    rw [marked_cons mark none]
    exact readMarked_dotted mark none proper fun c first => ⟨(ends c first).1, (ends c first).2.1⟩

theorem sound_of_readMarked {mark : Char} {part : VersionPart} {s rest : List Char} {found : Option (List String)}
    (read : readMarked mark part s = .ok (found, rest)) :
    (∀ segment ∈ found.getD [], IsSegment part segment) ∧ s = marked mark (found.getD []) ++ rest := by
  refine ⟨isSegment_of_readMarked read, ?_⟩
  rcases s with _ | ⟨c, s⟩
  · obtain ⟨rfl, rfl⟩ := Prod.mk.inj (Except.ok.inj read)
    rfl
  · rw [readMarked] at read
    split at read
    · rename_i same
      obtain ⟨⟨segments, left⟩, readSegments, shape⟩ := map_eq_ok_iff.mp read
      obtain ⟨rfl, rfl⟩ := Prod.mk.inj shape
      obtain ⟨some, _, rfl, _⟩ := readSegments_eq_ok_iff.mp readSegments
      rw [Option.getD_some, marked_cons mark some, same, List.cons_append]
    · obtain ⟨rfl, rfl⟩ := Prod.mk.inj (Except.ok.inj read)
      rfl

theorem parseChars_steps_iff {s : List Char} {v : Version} : parseChars s = .ok v ↔
    ∃ major minor patch pre build afterMajor afterDot afterMinor afterSecond afterPatch afterPre,
      readNumber .major s = .ok (major, afterMajor) ∧ readDot .major afterMajor = .ok afterDot ∧
      readNumber .minor afterDot = .ok (minor, afterMinor) ∧ readDot .minor afterMinor = .ok afterSecond ∧
      readNumber .patch afterSecond = .ok (patch, afterPatch) ∧
      readMarked '-' .pre afterPatch = .ok (pre, afterPre) ∧ readMarked '+' .build afterPre = .ok (build, []) ∧
      v = ⟨major, minor, patch, pre.getD [], build.getD []⟩ := by
  by_cases empty : s = []
  · rw [empty]
    refine iff_of_false (by simp [parseChars, bind, Except.bind]) ?_
    rintro ⟨_, _, _, _, _, _, _, _, _, _, _, read, _⟩
    cases read
  · simp only [parseChars, empty, ↓reduceIte, bind_eq_ok_iff, Prod.exists]
    constructor
    · rintro ⟨major, _, readMajor, _, firstDot, minor, _, readMinor, _, secondDot, patch, _, readPatch,
        pre, _, readPre,
        build, rest, readBuild, ends⟩
      cases rest with
      | nil => exact ⟨major, minor, patch, pre, build, _, _, _, _, _, _, readMajor, firstDot, readMinor, secondDot,
          readPatch, readPre, readBuild, (Except.ok.inj ends).symm⟩
      | cons c rest => cases ends
    · rintro ⟨major, minor, patch, pre, build, _, _, _, _, _, _, readMajor, firstDot, readMinor,
        secondDot, readPatch,
        readPre, readBuild, rfl⟩
      exact ⟨major, _, readMajor, _, firstDot, minor, _, readMinor, _, secondDot, patch, _, readPatch,
        pre, _, readPre,
        build, _, readBuild, rfl⟩

theorem parseChars_text {v : Version} (wellFormed : v.WellFormed) : parseChars v.text.toList = .ok v := by
  have dotStops {rest : List Char} : ∀ c ∈ ('.' :: rest).head?, c.isDigit = false := by simp
  have endsPre : ∀ c ∈ (marked '+' v.build).head?, isIdentifierChar c = false ∧ c ≠ '.' ∧ c ≠ '-' := by
    intro c first
    rw [head_marked first]
    decide
  have endsBuild : ∀ c ∈ ([] : List Char).head?, isIdentifierChar c = false ∧ c ≠ '.' ∧ c ≠ '+' := by simp
  obtain ⟨foundPre, readPre, samePre⟩ := readMarked_marked '-' wellFormed.pre endsPre
  obtain ⟨foundBuild, readBuild, sameBuild⟩ := readMarked_marked '+' wellFormed.build endsBuild
  rw [List.append_nil] at readBuild
  have endsNumbers : ∀ c ∈ (marked '-' v.pre ++ marked '+' v.build).head?, c.isDigit = false := by
    intro c first
    rw [List.head?_append] at first
    rcases Option.or_eq_some_iff.mp first with first | ⟨_, first⟩ <;> rw [head_marked first] <;> decide
  refine parseChars_steps_iff.mpr ⟨v.major, v.minor, v.patch, foundPre, foundBuild, _, _, _, _, _, _,
    readNumber_eq_ok_iff.mpr ⟨wellFormed.major, ?_, dotStops⟩, rfl,
    readNumber_eq_ok_iff.mpr ⟨wellFormed.minor, rfl, dotStops⟩, rfl,
    readNumber_eq_ok_iff.mpr ⟨wellFormed.patch, rfl, endsNumbers⟩, readPre, readBuild, ?_⟩
  · rw [toList_text, core]
    simp
  · rw [samePre, sameBuild]

theorem sound_of_parseChars {s : List Char} {v : Version} (read : parseChars s = .ok v) :
    v.WellFormed ∧ s = v.text.toList := by
  obtain ⟨major, minor, patch, pre, build, afterMajor, afterDot, afterMinor, afterSecond, afterPatch,
    afterPre, readMajor,
    firstDot, readMinor, secondDot, readPatch, readPre, readBuild, rfl⟩ := parseChars_steps_iff.mp read
  obtain ⟨smallMajor, rfl, _⟩ := readNumber_eq_ok_iff.mp readMajor
  obtain rfl := readDot_eq_ok_iff.mp firstDot
  obtain ⟨smallMinor, rfl, _⟩ := readNumber_eq_ok_iff.mp readMinor
  obtain rfl := readDot_eq_ok_iff.mp secondDot
  obtain ⟨smallPatch, rfl, _⟩ := readNumber_eq_ok_iff.mp readPatch
  obtain ⟨properPre, rfl⟩ := sound_of_readMarked readPre
  obtain ⟨properBuild, rfl⟩ := sound_of_readMarked readBuild
  refine ⟨⟨smallMajor, smallMinor, smallPatch, properPre, properBuild⟩, ?_⟩
  rw [toList_text, core]
  simp

theorem parseChars_eq_ok_iff {s : List Char} {v : Version} :
    parseChars s = .ok v ↔ v.WellFormed ∧ s = v.text.toList := by
  refine ⟨sound_of_parseChars, ?_⟩
  rintro ⟨wellFormed, rfl⟩
  exact parseChars_text wellFormed

end FormatAudit.Version
