import FormatAudit.Proofs.Text.Blank
import FormatAudit.Proofs.Version.Range
import FormatAudit.Proofs.Version.Text
import FormatAudit.Version.Reported

/-! A report is read as a version if and only if it is the text of that version between blanks, or that text without
the hyphen before a pre-release that starts with a letter. -/

namespace FormatAudit.Version

/-- The text of a version with the identifiers of its pre-release right after its numbers. -/
def gluedText (v : Version) : String :=
  s!"{v.major}.{v.minor}.{v.patch}" ++ dotted v.pre ++ (if v.build = [] then "" else "+" ++ dotted v.build)

def startsWithLetter (v : Version) : Bool := (dotted v.pre).toList.head?.any Char.isAlpha

theorem toList_gluedText (v : Version) : v.gluedText.toList = v.core ++
    ((dotted v.pre).toList ++ marked '+' v.build) := by
  have dot : (toString ".").toList = ['.'] := rfl
  obtain ⟨major, minor, patch, pre, build⟩ := v
  by_cases plain : build = [] <;> simp [gluedText, core, marked, plain, dot]

theorem isCoreChar_of_core {v : Version} {c : Char} (member : c ∈ v.core) : isCoreChar c = true := by
  have digits {n : Nat} (inside : c ∈ Nat.toDigits 10 n) : isCoreChar c = true := by
    simp [isCoreChar, Nat.isDigit_of_mem_toDigits (by decide) (by decide) inside]
  simp only [core, List.mem_append, List.mem_cons] at member
  rcases member with major | rfl | minor | rfl | patch
  · exact digits major
  · decide
  · exact digits minor
  · decide
  · exact digits patch

/-- What follows the numbers in the text of a version starts with a mark. -/
theorem head_tail {v : Version} {c : Char} (first : c ∈ (marked '-' v.pre ++ marked '+' v.build).head?) :
    c = '-' ∨ c = '+' := by
  rw [List.head?_append] at first
  rcases Option.or_eq_some_iff.mp first with first | ⟨_, first⟩
  · exact .inl (head_marked first)
  · exact .inr (head_marked first)

theorem head_dotted {part : VersionPart} {segments : List String} (some : segments ≠ [])
    (proper : ∀ segment ∈ segments, IsSegment part segment) :
    ∃ c rest, (dotted segments).toList = c :: rest ∧ isIdentifierChar c = true := by
  obtain ⟨segment, others, rfl⟩ := List.exists_cons_of_ne_nil some
  have own := proper segment (by simp)
  obtain ⟨c, rest, shape⟩ := List.exists_cons_of_ne_nil fun none => own.nonempty (String.toList_inj.mp none)
  have identifier := own.identifier c (shape ▸ List.mem_cons_self)
  by_cases last : others = []
  · exact ⟨c, rest, by rw [last, toList_dotted_singleton, shape], identifier⟩
  · exact ⟨c, _, by rw [toList_dotted_cons segment last, shape, List.cons_append], identifier⟩

theorem isAlpha_iff {c : Char} (identifier : isIdentifierChar c = true) :
    c.isAlpha = true ↔ isCoreChar c = false ∧ ¬(c = '-' ∨ c = '+') := by
  constructor
  · intro letter
    refine ⟨?_, ?_⟩
    · have bounds : (65 ≤ c.toNat ∧ c.toNat ≤ 90) ∨ (97 ≤ c.toNat ∧ c.toNat ≤ 122) := by
        simpa [Char.isAlpha, Char.isUpper, Char.isLower, UInt32.le_iff_toNat_le] using letter
      have noDigit : ¬(48 ≤ c.toNat ∧ c.toNat ≤ 57) := by omega
      have noDot : c ≠ '.' := by
        rintro rfl
        cases letter
      simpa [isCoreChar, Char.isDigit, UInt32.le_iff_toNat_le, noDot] using noDigit
    · rintro (rfl | rfl) <;> cases letter
  · rintro ⟨suffix, noMark⟩
    simp_all [isIdentifierChar, isCoreChar, Char.isAlphanum]

section

variable {front suffix : List Char} (inside : ∀ c ∈ front, isCoreChar c = true)
  (ends : ∀ c ∈ suffix.head?, isCoreChar c = false)

include inside ends

theorem hyphenated_of_mark (mark : ∀ c ∈ suffix.head?, c = '-' ∨ c = '+') : hyphenated
    (front ++ suffix) = front ++ suffix := by
  obtain ⟨_, left⟩ := takeWhile_append_of_ends inside ends
  rw [hyphenated, left]
  cases suffix with
  | nil => rfl
  | cons c rest => simp only [if_pos (mark c rfl)]

theorem hyphenated_of_other {c : Char} (first : c ∈ suffix.head?) (noMark : ¬(c = '-' ∨ c = '+')) :
    hyphenated (front ++ suffix) = front ++ '-' :: suffix := by
  obtain ⟨word, left⟩ := takeWhile_append_of_ends inside ends
  obtain ⟨rest, rfl⟩ := List.head?_eq_some_iff.mp first
  rw [hyphenated, left]
  simp only [if_neg noMark, word]

theorem core_append_inj {other rest : List Char} (insideToo : ∀ c ∈ other, isCoreChar c = true)
    (endsToo : ∀ c ∈ rest.head?, isCoreChar c = false) (same : front ++ suffix = other ++ rest) :
    front = other ∧ suffix = rest := by
  obtain ⟨word, left⟩ := takeWhile_append_of_ends inside ends
  obtain ⟨wordToo, leftToo⟩ := takeWhile_append_of_ends insideToo endsToo
  rw [same] at word left
  exact ⟨word.symm.trans wordToo, left.symm.trans leftToo⟩

end

theorem not_core_of_mark {c : Char} (mark : c = '-' ∨ c = '+') : isCoreChar c = false := by
  rcases mark with rfl | rfl <;> decide

theorem hyphenated_text (v : Version) : hyphenated v.text.toList = v.text.toList := by
  rw [toList_text]
  exact hyphenated_of_mark (fun _ => isCoreChar_of_core) (fun _ first => not_core_of_mark (head_tail first))
    fun _ => head_tail

theorem startsWithLetter_iff {v : Version} (wellFormed : v.WellFormed) : v.startsWithLetter = true ↔
    ∃ c rest, (dotted v.pre).toList = c :: rest ∧ v.pre ≠ [] ∧ isCoreChar c = false ∧
      ¬(c = '-' ∨ c = '+') := by
  by_cases release : v.pre = []
  · simp [startsWithLetter, release, dotted]
  · obtain ⟨c, rest, shape, identifier⟩ := head_dotted release wellFormed.pre
    simp [startsWithLetter, shape, release, isAlpha_iff identifier]

theorem hyphenated_eq_text_iff {s : List Char} {v : Version} (wellFormed : v.WellFormed) :
    hyphenated s = v.text.toList ↔ s = v.text.toList ∨ v.startsWithLetter = true ∧ s = v.gluedText.toList := by
  rw [startsWithLetter_iff wellFormed]
  constructor
  · intro same
    have inside : ∀ c ∈ s.takeWhile isCoreChar, isCoreChar c = true := fun c => List.mem_takeWhile_imp
    have ends : ∀ c ∈ (s.dropWhile isCoreChar).head?, isCoreChar c = false := by
      intro c first
      have := List.head?_dropWhile_not isCoreChar s
      rw [first] at this
      exact this
    rw [← List.takeWhile_append_dropWhile (p := isCoreChar) (l := s)] at same ⊢
    generalize s.takeWhile isCoreChar = front, s.dropWhile isCoreChar = suffix at *
    by_cases mark : ∀ c ∈ suffix.head?, c = '-' ∨ c = '+'
    · rw [hyphenated_of_mark inside ends mark] at same
      exact .inl same
    · obtain ⟨c, first, noMark⟩ : ∃ c ∈ suffix.head?, ¬(c = '-' ∨ c = '+') := by simpa using mark
      rw [hyphenated_of_other inside ends first noMark, toList_text] at same
      -- both texts are cut where their numbers end, so the hyphen put in is that of the pre-release
      obtain ⟨rfl, tail⟩ := core_append_inj inside (by simp [isCoreChar]) (fun _ => isCoreChar_of_core)
        (fun c first => not_core_of_mark (head_tail first)) same
      have prerelease : v.pre ≠ [] := by
        intro release
        rw [release, show marked '-' [] = [] from rfl, List.nil_append] at tail
        exact absurd (head_marked (by rw [← tail]; rfl : '-' ∈ (marked '+' v.build).head?)) (by decide)
      rw [marked_cons '-' prerelease, List.cons_append] at tail
      obtain rfl := (List.cons.inj tail).2
      obtain ⟨d, rest, shape, _⟩ := head_dotted prerelease wellFormed.pre
      obtain rfl : d = c := by simpa [shape] using first
      exact .inr ⟨⟨d, rest, shape, prerelease, ends d first, noMark⟩, (toList_gluedText v).symm⟩
  · rintro (rfl | ⟨⟨c, rest, shape, prerelease, suffix, noMark⟩, rfl⟩)
    · exact hyphenated_text v
    · have first : ∀ d ∈ ((dotted v.pre).toList ++ marked '+' v.build).head?, d = c := by simp [shape, eq_comm]
      rw [toList_gluedText, hyphenated_of_other (fun _ => isCoreChar_of_core) (fun d start => first d start ▸ suffix)
        (by simp [shape]) noMark, toList_text, marked_cons '-' prerelease, List.cons_append]

theorem not_blank_of_text {v : Version} (wellFormed : v.WellFormed) {c : Char} (member : c ∈ v.text.toList) :
    Text.isBlank c = false := by
  have tail (mark : Char) {part : VersionPart} {segments : List String} (visible : Text.isBlank mark = false)
      (proper : ∀ segment ∈ segments, IsSegment part segment) (inside : c ∈ marked mark segments) :
      Text.isBlank c = false := by
    rw [marked] at inside
    split at inside
    · cases inside
    · rcases List.mem_cons.mp inside with rfl | later
      · exact visible
      · exact not_blank_of_dotted proper later
  rw [toList_text, List.mem_append, List.mem_append] at member
  rcases member with number | pre | build
  · have kinds := isCoreChar_of_core number
    simp only [isCoreChar, Bool.or_eq_true, decide_eq_true_eq] at kinds
    rcases kinds with digit | rfl
    · exact not_blank_of_identifier (by simp [isIdentifierChar, Char.isAlphanum, digit])
    · decide
  · exact tail '-' (by decide) wellFormed.pre pre
  · exact tail '+' (by decide) wellFormed.build build

theorem trim_text {v : Version} (wellFormed : v.WellFormed) : Text.trim v.text = v.text := by
  obtain ⟨digit, digits, shape, _⟩ := exists_toDigits v.major
  have nonempty : v.text.toList ≠ [] := by simp [toList_text, core, shape]
  rw [Text.trim, Text.trimChars_of_words (List.append_nil _).symm (List.nil_append _).symm nonempty nonempty,
    String.ofList_toList]
  intro c member
  exact not_blank_of_text wellFormed (by simpa using member)

theorem ofReport?_eq_some_iff {raw : String} {v : Version} : ofReport? raw = some v ↔ v.WellFormed ∧
    (Text.trim raw = v.text ∨ v.startsWithLetter = true ∧ Text.trim raw = v.gluedText) := by
  have trimmed (s : String) : Text.trim raw = s ↔ Text.trimChars raw.toList = s.toList := by
    rw [Text.trim, ← String.toList_inj, String.toList_ofList]
  rw [ofReport?, toOption_eq_some_iff, parseChars_eq_ok_iff]
  refine and_congr_right fun wellFormed => ?_
  rw [hyphenated_eq_text_iff wellFormed, trimmed, trimmed]

/-- Reported versions are read exactly. A version is read from its own text between blanks, and if its pre-release
starts with a letter also from that text without the hyphen before it; nothing else is read. So the text of a version
is always read as that version, and a report that is no such text does not give a release. -/
theorem reported_exactly (raw : String) (v : Version) :
    (ofReport? raw = some v ↔ v.WellFormed ∧
      (Text.trim raw = v.text ∨ v.startsWithLetter = true ∧ Text.trim raw = v.gluedText)) ∧
    (parse raw = .ok v → ofReport? raw = some v) ∧
    (ofReport? raw = some v → (∀ strict, parse (Text.trim raw) ≠ .ok strict) → v.pre ≠ []) := by
  refine ⟨ofReport?_eq_some_iff, ?_, ?_⟩
  · intro read
    obtain ⟨wellFormed, text⟩ := parseChars_eq_ok_iff.mp read
    obtain rfl := String.toList_inj.mp text
    exact ofReport?_eq_some_iff.mpr ⟨wellFormed, .inl (trim_text wellFormed)⟩
  · intro read loose
    obtain ⟨wellFormed, text | ⟨letter, _⟩⟩ := ofReport?_eq_some_iff.mp read
    · exact absurd (parseChars_eq_ok_iff.mpr ⟨wellFormed, congrArg String.toList text⟩) (loose v)
    · obtain ⟨_, _, _, prerelease, _⟩ := (startsWithLetter_iff wellFormed).mp letter
      exact prerelease

def Sample.candidate : Version := ⟨3, 13, 0, ["rc2", "1"], ["local"]⟩

theorem sample_reported_exactly : parse "3.13.0-rc2.1+local" = .ok Sample.candidate ∧
    ofReport? "3.13.0-rc2.1+local" = some Sample.candidate ∧
    parse (Text.trim "\t3.13.0rc2.1+local\n") = .error (.unexpectedAfter .patch 'r') ∧
    ofReport? "\t3.13.0rc2.1+local\n" = some Sample.candidate ∧ Sample.candidate.pre ≠ [] := by
  have strict : parse "3.13.0-rc2.1+local" = .ok Sample.candidate := by decide +kernel
  have glued : parse (Text.trim "\t3.13.0rc2.1+local\n") = .error (.unexpectedAfter .patch 'r') := by decide +kernel
  obtain ⟨wellFormed, _⟩ := parseChars_eq_ok_iff.mp strict
  have reported : ofReport? "\t3.13.0rc2.1+local\n" = some Sample.candidate :=
    (reported_exactly _ _).1.mpr ⟨wellFormed, .inr ⟨by decide +kernel, by decide +kernel⟩⟩
  have prerelease : Sample.candidate.pre ≠ [] := (reported_exactly _ _).2.2 reported fun version read => by
    rw [glued] at read
    cases read
  exact ⟨strict, (reported_exactly _ _).2.1 strict, glued, reported, prerelease⟩

end FormatAudit.Version
