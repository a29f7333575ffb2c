import FormatAudit.Proofs.Results
import FormatAudit.Version.Basic

/-! The numbers and the identifiers of a version are read back as they are written, and only such are read. -/

namespace FormatAudit.Version

theorem exists_toDigits (n : Nat) : ∃ c rest, Nat.toDigits 10 n = c :: rest ∧ c.isDigit = true := by
  obtain ⟨c, rest, shape⟩ := List.exists_cons_of_ne_nil (Nat.toDigits_ne_nil (b := 10) (n := n))
  exact ⟨c, rest, shape, Nat.isDigit_of_mem_toDigits (by decide) (by decide) (shape ▸ List.mem_cons_self)⟩

theorem digitChar_toNat {d : Nat} (small : d < 10) : d.digitChar.isDigit = true ∧
    d.digitChar.toNat - '0'.toNat = d := by
  have each : ∀ d < 10, d.digitChar.isDigit = true ∧ d.digitChar.toNat - '0'.toNat = d := by decide
  exact each d small

/-- All but the last digit of a number are read as the number without its last digit. -/
theorem readDigits_toDigits (part : VersionPart) {n : Nat} (small : n ≤ maxNumber) (rest : List Char) :
    readDigits part 0 false (Nat.toDigits 10 n ++ rest) = readDigits part n true rest := by
  induction n using Nat.strongRecOn generalizing rest with
  | ind n ih =>
      rw [Nat.toDigits_eq_if (by decide)]
      split
      · rename_i single
        obtain ⟨digit, value⟩ := digitChar_toNat single
        rw [List.singleton_append, readDigits, if_pos digit, value]
        simp [small]
      · obtain ⟨digit, value⟩ := digitChar_toNat (Nat.mod_lt n (show 0 < 10 by decide))
        have whole : n / 10 * 10 + n % 10 = n := by omega
        rw [List.append_assoc,
          ih (n / 10) (by omega) (by omega), List.singleton_append, readDigits, if_pos digit, value,
          whole, if_neg (by omega), if_pos small]

theorem readNumber_toDigits (part : VersionPart) {n : Nat} (small : n ≤ maxNumber) {rest : List Char}
    (ends : ∀ c ∈ rest.head?, c.isDigit = false) : readNumber part (Nat.toDigits 10 n ++ rest) = .ok (n, rest) := by
  rw [readNumber, readDigits_toDigits part small]
  cases rest with
  | nil => rfl
  | cons c rest => simp [readDigits, ends c rfl]

theorem digitChar_of_isDigit {c : Char} (digit : c.isDigit = true) :
    Nat.digitChar (c.toNat - '0'.toNat) = c ∧ c.toNat - '0'.toNat < 10 := by
  have bounds : 48 ≤ c.toNat ∧ c.toNat ≤ 57 := by
    simpa [Char.isDigit, UInt32.le_iff_toNat_le] using digit
  have below : c.toNat - '0'.toNat < 10 := by
    show c.toNat - 48 < 10
    omega
  refine ⟨Char.toNat_inj.mp ?_, below⟩
  rw [Nat.toNat_digitChar_of_lt_ten below]
  show 48 + (c.toNat - 48) = c.toNat
  omega

theorem toDigits_append_digit {n : Nat} (positive : 0 < n) {c : Char} (digit : c.isDigit = true) :
    Nat.toDigits 10 n ++ [c] = Nat.toDigits 10 (n * 10 + (c.toNat - '0'.toNat)) := by
  obtain ⟨char, below⟩ := digitChar_of_isDigit digit
  have := Nat.toDigits_append_toDigits (b := 10) (by decide) positive below
  rw [Nat.toDigits_of_lt_base below, char] at this
  rw [this, Nat.mul_comm]

/-- The digits that were read are those of the number, after those that were read before, and no digit is left. -/
theorem sound_of_readDigits {part : VersionPart} {value n : Nat} {started : Bool} {s rest : List Char}
    (begun : started = false → value = 0) (small : value ≤ maxNumber)
    (read : readDigits part value started s = .ok (n, rest)) :
    n ≤ maxNumber ∧ (if started then Nat.toDigits 10 value else []) ++ s = Nat.toDigits 10 n ++ rest ∧
      ∀ c ∈ rest.head?, c.isDigit = false := by
  induction s generalizing value started with
  | nil =>
      rw [readDigits] at read
      split at read <;> simp_all
  | cons c s ih =>
      rw [readDigits] at read
      split at read
      · rename_i digit
        split at read
        · cases read
        · rename_i unpadded
          dsimp only at read
          split at read
          · rename_i below
            obtain ⟨within, same, stop⟩ := ih (by simp) below read
            refine ⟨within, ?_, stop⟩
            rw [← same, if_pos rfl]
            cases started with
            | true =>
                have positive : 0 < value := Nat.pos_of_ne_zero fun zero => unpadded ⟨zero, rfl⟩
                rw [if_pos rfl, ← toDigits_append_digit positive digit, List.append_assoc, List.singleton_append]
            | false =>
                obtain ⟨char, single⟩ := digitChar_of_isDigit digit
                rw [begun rfl, Nat.zero_mul, Nat.zero_add, Nat.toDigits_of_lt_base single, char]
                rfl
          · cases read
      · split at read
        · obtain ⟨rfl, rfl⟩ := Prod.mk.inj (Except.ok.inj read)
          simp_all
        · cases read

theorem readNumber_eq_ok_iff {part : VersionPart} {n : Nat} {s rest : List Char} : readNumber part s = .ok (n, rest) ↔
    n ≤ maxNumber ∧ s = Nat.toDigits 10 n ++ rest ∧ ∀ c ∈ rest.head?, c.isDigit = false := by
  constructor
  · exact fun read => sound_of_readDigits (fun _ => rfl) (Nat.zero_le _) read
  · rintro ⟨small, rfl, ends⟩
    exact readNumber_toDigits part small ends

theorem le_of_readNumber {part : VersionPart} {n : Nat} {s rest : List Char}
    (read : readNumber part s = .ok (n, rest)) :
    n ≤ maxNumber := (readNumber_eq_ok_iff.mp read).1

theorem readDot_eq_ok_iff {part : VersionPart} {s rest : List Char} : readDot part s = .ok rest ↔
    s = '.' :: rest := by
  rw [readDot.eq_def]
  split
  · simp
  · rename_i c _ other
    simpa using fun dot : c = '.' => absurd dot other
  · simp

/-- An identifier that may stand in a part of a version. -/
structure IsSegment (part : VersionPart) (segment : String) : Prop where
  nonempty : segment ≠ ""
  identifier : ∀ c ∈ segment.toList, isIdentifierChar c = true
  unpadded : part = .pre → hasLeadingZero segment.toList = false

theorem toList_dotted_cons (segment : String) {rest : List String} (more : rest ≠ []) :
    (dotted (segment :: rest)).toList = segment.toList ++ '.' :: (dotted rest).toList := by
  obtain ⟨other, others, rfl⟩ := List.exists_cons_of_ne_nil more
  simp [dotted, String.toList_intercalate]

theorem toList_dotted_singleton (segment : String) : (dotted [segment]).toList = segment.toList := by
  simp [dotted]

theorem takeWhile_append_of_ends {p : Char → Bool} {word rest : List Char} (inside : ∀ c ∈ word, p c = true)
    (ends : ∀ c ∈ rest.head?, p c = false) :
    (word ++ rest).takeWhile p = word ∧ (word ++ rest).dropWhile p = rest := by
  rw [List.takeWhile_append_of_pos inside, List.dropWhile_append_of_pos inside]
  cases rest with
  | nil => simp
  | cons c rest => simp [ends c rfl]

theorem readSegments_dotted {part : VersionPart} {segments : List String} (some : segments ≠ [])
    (proper : ∀ segment ∈ segments, IsSegment part segment) {rest : List Char}
    (ends : ∀ c ∈ rest.head?, isIdentifierChar c = false ∧ c ≠ '.') :
    readSegments part ((dotted segments).toList ++ rest) = .ok (segments, rest) := by
  induction segments with
  | nil => exact absurd rfl some
  | cons segment others ih =>
      have own := proper segment (by simp)
      have nonempty : segment.toList ≠ [] := fun none => own.nonempty (String.toList_inj.mp none)
      have unpadded : ¬(part = .pre ∧ hasLeadingZero segment.toList = true) := by
        rintro ⟨pre, padded⟩
        simp [own.unpadded pre] at padded
      by_cases last : others = []
      · obtain ⟨word, left⟩ := takeWhile_append_of_ends own.identifier fun c first => (ends c first).1
        rw [last, toList_dotted_singleton, readSegments, word, if_neg nonempty, if_neg unpadded]
        split
        · rename_i tail shape
          rw [left] at shape
          exact absurd rfl (ends '.' (by simp [shape])).2
        · rw [left, String.ofList_toList]
      · have dot : ∀ c ∈ ('.' :: ((dotted others).toList ++ rest)).head?, isIdentifierChar c = false := by
          simp [isIdentifierChar]
        obtain ⟨word, left⟩ := takeWhile_append_of_ends own.identifier dot
        rw [toList_dotted_cons segment last, List.append_assoc, List.cons_append, readSegments, word, if_neg nonempty,
          if_neg unpadded]
        split
        · rename_i tail shape
          rw [left] at shape
          obtain rfl : (dotted others).toList ++ rest = tail := (List.cons.inj shape).2
          dsimp only
          rw [ih last fun other member => proper other (by simp [member])]
          simp [Functor.map, Except.map]
        · rename_i other
          exact absurd left (other _)

theorem isSegment_takeWhile {part : VersionPart} {s : List Char} (nonempty : ¬s.takeWhile isIdentifierChar = [])
    (unpadded : ¬(part = .pre ∧ hasLeadingZero (s.takeWhile isIdentifierChar) = true)) :
    IsSegment part (String.ofList (s.takeWhile isIdentifierChar)) := by
  refine ⟨?_, ?_, ?_⟩
  · intro none
    exact nonempty (by simpa using congrArg String.toList none)
  · intro c member
    rw [String.toList_ofList] at member
    exact List.mem_takeWhile_imp member
  · intro pre
    rw [String.toList_ofList]
    exact Bool.eq_false_iff.mpr fun padded => unpadded ⟨pre, padded⟩

theorem readSegments_eq_ok_iff {part : VersionPart} {s rest : List Char} {segments : List String} :
    readSegments part s = .ok (segments, rest) ↔ segments ≠ [] ∧
      (∀ segment ∈ segments, IsSegment part segment) ∧
      s = (dotted segments).toList ++ rest ∧ ∀ c ∈ rest.head?, isIdentifierChar c = false ∧ c ≠ '.' := by
  constructor
  · intro read
    fun_induction readSegments part s generalizing segments rest with
    | case1 => cases read
    | case2 => cases read
    | case3 s word nonempty unpadded =>
        rename_i tail after _ ih
        obtain ⟨⟨more, left⟩, readMore, same⟩ := map_eq_ok_iff.mp read
        obtain ⟨rfl, rfl⟩ := Prod.mk.inj same
        obtain ⟨some, proper, shape, ends⟩ := ih readMore
        refine ⟨by simp, List.forall_mem_cons.mpr ⟨isSegment_takeWhile nonempty unpadded, proper⟩, ?_, ends⟩
        rw [toList_dotted_cons _ some, String.toList_ofList, List.append_assoc, List.cons_append, ← shape, ← after,
          List.takeWhile_append_dropWhile]
    | case4 s word nonempty unpadded =>
        rename_i other
        obtain ⟨rfl, rfl⟩ := Prod.mk.inj (Except.ok.inj read)
        refine ⟨by simp, by simpa using isSegment_takeWhile nonempty unpadded, ?_, ?_⟩
        · rw [toList_dotted_singleton, String.toList_ofList, List.takeWhile_append_dropWhile]
        · intro c first
          obtain ⟨tail, shape⟩ := List.head?_eq_some_iff.mp first
          refine ⟨?_, fun dot => other tail (dot ▸ shape)⟩
          have := List.head?_dropWhile_not isIdentifierChar s
          rw [first] at this
          exact this
  · rintro ⟨some, proper, rfl, ends⟩
    exact readSegments_dotted some proper ends

theorem readMarked_of_other {mark : Char} (part : VersionPart) {s : List Char} (other : ∀ c ∈ s.head?, c ≠ mark) :
    readMarked mark part s = .ok (none, s) := by
  cases s with
  | nil => rfl
  | cons c rest => rw [readMarked, if_neg (other c rfl)]

theorem readMarked_dotted (mark : Char) {part : VersionPart} {segments : List String} (some : segments ≠ [])
    (proper : ∀ segment ∈ segments, IsSegment part segment) {rest : List Char}
    (ends : ∀ c ∈ rest.head?, isIdentifierChar c = false ∧ c ≠ '.') :
    readMarked mark part (mark :: ((dotted segments).toList ++ rest)) = .ok (.some segments, rest) := by
  rw [readMarked, if_pos rfl, readSegments_dotted some proper ends]
  rfl

theorem isSegment_of_readMarked {mark : Char} {part : VersionPart} {s rest : List Char} {found : Option (List String)}
    (read : readMarked mark part s = .ok (found, rest)) : ∀ segment ∈ found.getD [], IsSegment part segment := by
  rcases s with _ | ⟨c, s⟩
  · obtain ⟨rfl, rfl⟩ := Prod.mk.inj (Except.ok.inj read)
    simp
  · rw [readMarked] at read
    split at read
    · obtain ⟨⟨segments, left⟩, readSegments, same⟩ := map_eq_ok_iff.mp read
      obtain ⟨rfl, rfl⟩ := Prod.mk.inj same
      exact (readSegments_eq_ok_iff.mp readSegments).2.1
    · obtain ⟨rfl, rfl⟩ := Prod.mk.inj (Except.ok.inj read)
      simp

end FormatAudit.Version
