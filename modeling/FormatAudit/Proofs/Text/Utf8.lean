import FormatAudit.Proofs.Results
import FormatAudit.Text.Utf8

/-! Reading bytes as text loses nothing: the text is written as the same bytes again. Every text is read from the bytes
that it is written as. -/

namespace FormatAudit.Text

namespace Utf8

theorem lead_eq_some {b low high : UInt8} {owed bits : Nat} (found : lead b = some (owed, low, high, bits)) :
    128 ≤ low.toNat ∧ high.toNat ≤ 191 ∧
      (owed = 1 ∧ b.toNat = bits + 192 ∧ 2 ≤ bits ∧ bits ≤ 31 ∨
      owed = 2 ∧ b.toNat = bits + 224 ∧ bits ≤ 15 ∧ (bits = 0 → 160 ≤ low.toNat) ∧
        (bits = 13 → high.toNat ≤ 159) ∨
      owed = 3 ∧ b.toNat = bits + 240 ∧ bits ≤ 4 ∧ (bits = 0 → 144 ≤ low.toNat) ∧
        (bits = 4 → high.toNat ≤ 143)) := by
  simp only [lead, Bool.and_eq_true, decide_eq_true_eq, beq_iff_eq, UInt8.le_iff_toNat_le, ← UInt8.toNat_inj] at found
  repeat' split at found
  all_goals
    simp only [Option.some.injEq, Prod.mk.injEq, reduceCtorEq] at found
  all_goals
    obtain ⟨rfl, rfl, rfl, rfl⟩ := found
    simp at *
    omega

theorem tails_eq_char {owed width bits last : Nat} {rest : List UInt8} {c : Char}
    (read : tails (owed + 1) width bits rest = .char c last) :
    ∃ b more, rest = b :: more ∧ 128 ≤ b.toNat ∧ b.toNat ≤ 191 ∧
      tails owed (width + 1) (bits * 64 + (b.toNat - 128)) more = .char c last := by
  cases rest with
  | nil => simp [tails] at read
  | cons b more =>
      simp only [tails, isTail, Bool.and_eq_true, decide_eq_true_eq, UInt8.le_iff_toNat_le] at read
      split at read
      · rename_i bounds
        exact ⟨b, more, rfl, by simpa using bounds.1, by simpa using bounds.2, read⟩
      · simp at read

theorem tails_zero_eq_char {width bits last : Nat} {rest : List UInt8} {c : Char}
    (read : tails 0 width bits rest = .char c last) : c = Char.ofNat bits ∧ last = width := by
  simp only [tails, Utf8Piece.char.injEq] at read
  exact ⟨read.1.symm, read.2.symm⟩

theorem toNat_ofNat {n : Nat} (valid : n < 55296 ∨ 57343 < n ∧ n < 1114112) : (Char.ofNat n).toNat = n := by
  have isValid : n.isValidChar := valid
  rw [Char.ofNat, dif_pos isValid]
  rfl

theorem eq_ofNat {b : UInt8} {n : Nat} (value : b.toNat = n) : UInt8.ofNat n = b := by
  rw [← value, UInt8.ofNat_toNat]

theorem encode_two {first second : UInt8} {bits : Nat} {c : Char} (lead : first.toNat = bits + 192)
    (range : 2 ≤ bits ∧ bits ≤ 31) (tail : 128 ≤ second.toNat ∧ second.toNat ≤ 191)
    (value : c.toNat = bits * 64 + (second.toNat - 128)) : String.utf8EncodeChar c = [first, second] := by
  rw [Char.toNat] at value
  simp only [String.utf8EncodeChar, value]
  rw [if_neg (by omega), if_pos (by omega)]
  rw [eq_ofNat (b := first) (by omega), eq_ofNat (b := second) (by omega)]

theorem encode_three {first second third : UInt8} {bits : Nat} {c : Char} (lead : first.toNat = bits + 224)
    (range : bits ≤ 15 ∧ 32 ≤ bits * 64 + (second.toNat - 128))
    (secondTail : 128 ≤ second.toNat ∧ second.toNat ≤ 191) (thirdTail : 128 ≤ third.toNat ∧
      third.toNat ≤ 191)
    (value : c.toNat = (bits * 64 + (second.toNat - 128)) * 64 + (third.toNat - 128)) :
    String.utf8EncodeChar c = [first, second, third] := by
  rw [Char.toNat] at value
  simp only [String.utf8EncodeChar, value]
  rw [if_neg (by omega), if_neg (by omega), if_pos (by omega)]
  rw [eq_ofNat (b := first) (by omega), eq_ofNat (b := second) (by omega), eq_ofNat (b := third) (by omega)]

theorem encode_four {first second third fourth : UInt8} {bits : Nat} {c : Char} (lead : first.toNat = bits + 240)
    (range : bits ≤ 4 ∧ 16 ≤ bits * 64 + (second.toNat - 128))
    (secondTail : 128 ≤ second.toNat ∧ second.toNat ≤ 191) (thirdTail : 128 ≤ third.toNat ∧
      third.toNat ≤ 191)
    (fourthTail : 128 ≤ fourth.toNat ∧ fourth.toNat ≤ 191)
    (value : c.toNat = ((bits * 64 + (second.toNat - 128)) * 64 + (third.toNat - 128)) * 64 + (fourth.toNat - 128)) :
    String.utf8EncodeChar c = [first, second, third, fourth] := by
  rw [Char.toNat] at value
  simp only [String.utf8EncodeChar, value]
  rw [if_neg (by omega), if_neg (by omega), if_neg (by omega)]
  rw [eq_ofNat (b := first) (by omega), eq_ofNat (b := second) (by omega), eq_ofNat (b := third) (by omega),
    eq_ofNat (b := fourth) (by omega)]

/-- The bytes that a character is read from are those that it is written with. -/
theorem head_eq_char {b : UInt8} {rest : List UInt8} {c : Char} {width : Nat}
    (read : head b rest = .char c width) : (b :: rest).take width = String.utf8EncodeChar c := by
  unfold head at read
  split at read
  · rename_i small
    simp only [Utf8Piece.char.injEq] at read
    obtain ⟨rfl, rfl⟩ := read
    have below : b.toNat < 128 := by simpa [UInt8.lt_iff_toNat_lt] using small
    have value := toNat_ofNat (n := b.toNat) (by omega)
    rw [Char.toNat] at value
    simp [String.utf8EncodeChar, value, show b.toNat ≤ 127 by omega]
  · split at read
    · simp at read
    · rename_i owed low high bits found
      split at read
      · simp at read
      · rename_i second rest
        split at read
        · rename_i bounds
          simp only [Bool.and_eq_true, decide_eq_true_eq, UInt8.le_iff_toNat_le] at bounds
          obtain ⟨lowBound, highBound, shape⟩ := lead_eq_some found
          rcases shape with ⟨rfl, first, shape⟩ | ⟨rfl, first, shape⟩ | ⟨rfl, first, shape⟩
          · rw [Nat.sub_self] at read
            obtain ⟨same, rfl⟩ := tails_zero_eq_char read
            have value := toNat_ofNat (n := bits * 64 + (second.toNat - 128)) (by omega)
            rw [← same] at value
            exact (encode_two (by omega) (by omega) (by omega) value).symm
          · rw [show 2 - 1 = 0 + 1 from rfl] at read
            obtain ⟨third, rest, rfl, thirdLow, thirdHigh, read⟩ := tails_eq_char read
            obtain ⟨same, rfl⟩ := tails_zero_eq_char read
            have value := toNat_ofNat
              (n := (bits * 64 + (second.toNat - 128)) * 64 + (third.toNat - 128)) (by omega)
            rw [← same] at value
            exact (encode_three (by omega) (by omega) (by omega) (by omega) value).symm
          · rw [show 3 - 1 = 1 + 1 from rfl] at read
            obtain ⟨third, rest, rfl, thirdLow, thirdHigh, read⟩ := tails_eq_char read
            obtain ⟨fourth, rest, rfl, fourthLow, fourthHigh, read⟩ := tails_eq_char read
            obtain ⟨same, rfl⟩ := tails_zero_eq_char read
            have value := toNat_ofNat
              (n := ((bits * 64 + (second.toNat - 128)) * 64 + (third.toNat - 128)) * 64 + (fourth.toNat - 128))
              (by omega)
            rw [← same] at value
            exact (encode_four (by omega) (by omega) (by omega) (by omega) (by omega) value).symm
        · simp at read

theorem width_pos {b : UInt8} {rest : List UInt8} {c : Char} {width : Nat}
    (read : head b rest = .char c width) : 0 < width := by
  have taken := head_eq_char read
  rcases Nat.eq_zero_or_pos width with rfl | positive
  · exact absurd taken.symm String.utf8EncodeChar_ne_nil
  · exact positive

theorem lead_two (bits : Nat) (range : 2 ≤ bits ∧ bits ≤ 31) :
    lead (UInt8.ofNat (bits + 192)) = some (1, 0x80, 0xBF, bits) := by
  have each : ∀ bits < 32, bits < 2 ∨ lead (UInt8.ofNat (bits + 192)) = some (1, 0x80, 0xBF, bits) := by decide
  exact (each bits (by omega)).resolve_left (by omega)

theorem lead_three (bits : Nat) (range : bits ≤ 15) : lead (UInt8.ofNat (bits + 224)) =
    some (2, if bits = 0 then 0xA0 else 0x80, if bits = 13 then 0x9F else 0xBF, bits) := by
  have each : ∀ bits < 16, lead (UInt8.ofNat (bits + 224)) =
      some (2, if bits = 0 then 0xA0 else 0x80, if bits = 13 then 0x9F else 0xBF, bits) := by decide
  exact each bits (by omega)

theorem lead_four (bits : Nat) (range : bits ≤ 4) : lead (UInt8.ofNat (bits + 240)) =
    some (3, if bits = 0 then 0x90 else 0x80, if bits = 4 then 0x8F else 0xBF, bits) := by
  have each : ∀ bits < 5, lead (UInt8.ofNat (bits + 240)) =
      some (3, if bits = 0 then 0x90 else 0x80, if bits = 4 then 0x8F else 0xBF, bits) := by decide
  exact each bits (by omega)

theorem toNat_tail (bits : Nat) : (UInt8.ofNat (bits % 64 + 128)).toNat = bits % 64 + 128 := by
  rw [UInt8.toNat_ofNat']
  omega

theorem tails_tail (owed width bits low : Nat) (rest : List UInt8) :
    tails (owed + 1) width bits (UInt8.ofNat (low % 64 + 128) :: rest) =
      tails owed (width + 1) (bits * 64 + low % 64) rest := by
  have tail : isTail (UInt8.ofNat (low % 64 + 128)) = true := by
    simp only [isTail, Bool.and_eq_true, decide_eq_true_eq, UInt8.le_iff_toNat_le, toNat_tail]
    simp
    omega
  rw [tails, if_pos tail, toNat_tail]
  simp

theorem head_of_lead {b low high : UInt8} {owed bits value : Nat} (wide : ¬b < 0x80)
    (found : lead b = some (owed + 1, low, high, bits))
    (inRange : low.toNat ≤ value % 64 + 128 ∧ value % 64 + 128 ≤ high.toNat) (rest : List UInt8) :
    head b (UInt8.ofNat (value % 64 + 128) :: rest) = tails owed 2 (bits * 64 + value % 64) rest := by
  have bounds : (low ≤ UInt8.ofNat (value % 64 + 128) && UInt8.ofNat (value % 64 + 128) ≤ high) = true := by
    simpa only [Bool.and_eq_true, decide_eq_true_eq, UInt8.le_iff_toNat_le, toNat_tail] using inRange
  simp only [head, if_neg wide, found, if_pos bounds, toNat_tail, Nat.add_sub_cancel]

theorem wide_ofNat {n : Nat} (range : 128 ≤ n ∧ n < 256) : ¬UInt8.ofNat n < 0x80 := by
  rw [UInt8.lt_iff_toNat_lt, UInt8.toNat_ofNat']
  simp
  omega

/-- The bytes that a character is written with are read as the character. -/
theorem head_encode (c : Char) : ∃ b tail, String.utf8EncodeChar c = b :: tail ∧
    ∀ rest, head b (tail ++ rest) = .char c (tail.length + 1) := by
  have valid : c.val.toNat < 55296 ∨ 57343 < c.val.toNat ∧ c.val.toNat < 1114112 := c.valid
  have back {n : Nat} (same : n = c.val.toNat) : Char.ofNat n = c := same ▸ Char.ofNat_toNat c
  simp only [String.utf8EncodeChar]
  generalize shape : c.val.toNat = value at valid back
  split
  · refine ⟨_, [], rfl, ?_⟩
    intro rest
    have small : (UInt8.ofNat value).toNat = value := by
      rw [UInt8.toNat_ofNat']
      omega
    have narrow : UInt8.ofNat value < 0x80 := by
      rw [UInt8.lt_iff_toNat_lt, small]
      simp
      omega
    rw [head, if_pos narrow, small, back rfl, List.length_nil]
  · split
    · refine ⟨_, _, rfl, ?_⟩
      intro rest
      have found := lead_two (value / 64 % 32) (by omega)
      rw [List.singleton_append, head_of_lead (wide_ofNat (by omega)) found (by simp; omega), tails,
        back (by omega)]
      rfl
    · split
      · refine ⟨_, _, rfl, ?_⟩
        intro rest
        have found := lead_three (value / 4096 % 16) (by omega)
        have inRange : (if value / 4096 % 16 = 0 then (0xA0 : UInt8) else 0x80).toNat ≤ value / 64 % 64 + 128 ∧
            value / 64 % 64 + 128 ≤ (if value / 4096 % 16 = 13 then (0x9F : UInt8) else 0xBF).toNat := by
          split <;> split <;> simp <;> omega
        rw [List.cons_append, head_of_lead (wide_ofNat (by omega)) found inRange, List.singleton_append,
          tails_tail, tails, back (by omega)]
        rfl
      · refine ⟨_, _, rfl, ?_⟩
        intro rest
        have found := lead_four (value / 262144 % 8) (by omega)
        have inRange : (if value / 262144 % 8 = 0 then (0x90 : UInt8) else 0x80).toNat ≤ value / 4096 % 64 + 128 ∧
            value / 4096 % 64 + 128 ≤ (if value / 262144 % 8 = 4 then (0x8F : UInt8) else 0xBF).toNat := by
          split <;> split <;> simp <;> omega
        rw [List.cons_append, head_of_lead (wide_ofNat (by omega)) found inRange, List.cons_append,
          tails_tail, List.singleton_append, tails_tail, tails, back (by omega)]
        rfl

end Utf8

theorem utf8Chars_eq_ok {bytes : List UInt8} {index : Nat} {s : List Char}
    (read : utf8Chars index (utf8Pieces bytes) = .ok s) : bytes = s.flatMap String.utf8EncodeChar := by
  induction bytes using utf8Pieces.induct generalizing index s with
  | case1 =>
      simp only [utf8Pieces, utf8Chars, Except.ok.injEq] at read
      simp [← read]
  | case2 =>
      rename_i b rest piece ih
      rw [utf8Pieces] at read
      cases shape : Utf8.head b rest with
      | char c width =>
          simp only [piece, shape, utf8Chars, Utf8Piece.width] at read ih
          obtain ⟨later, readLater, rfl⟩ := map_eq_ok_iff.mp read
          have positive := Utf8.width_pos shape
          have split : (b :: rest).take width ++ rest.drop (width - 1) = b :: rest := by
            obtain ⟨width, rfl⟩ := Nat.exists_eq_add_one_of_ne_zero (Nat.ne_of_gt positive)
            simp
          rw [← split, Utf8.head_eq_char shape, List.flatMap_cons, ih readLater]
      | invalid width => simp [shape, utf8Chars] at read
      | incomplete width => simp [shape, utf8Chars] at read

theorem toUtf8_eq_flatMap (s : String) : toUtf8 s = s.toList.flatMap String.utf8EncodeChar := by
  rw [← String.ofList_toList (s := s), toUtf8, String.toUTF8_eq_toByteArray, String.toByteArray_ofList]
  simp [List.utf8Encode]

/-- Bytes that are read as a text are what the text is written as. -/
theorem toUtf8_of_ofUtf8 {bytes : List UInt8} {s : String} (read : ofUtf8 bytes = .ok s) : toUtf8 s = bytes := by
  obtain ⟨chars, readChars, rfl⟩ := map_eq_ok_iff.mp read
  rw [toUtf8_eq_flatMap, String.toList_ofList, utf8Chars_eq_ok readChars]

theorem ofUtf8_inj {bytes others : List UInt8} {s : String} (read : ofUtf8 bytes = .ok s)
    (readOther : ofUtf8 others = .ok s) : bytes = others :=
  (toUtf8_of_ofUtf8 read).symm.trans (toUtf8_of_ofUtf8 readOther)

theorem utf8Chars_encode (index : Nat) (s : List Char) :
    utf8Chars index (utf8Pieces (s.flatMap String.utf8EncodeChar)) = .ok s := by
  induction s generalizing index with
  | nil => simp [utf8Pieces, utf8Chars]
  | cons c rest ih =>
      obtain ⟨b, tail, shape, read⟩ := Utf8.head_encode c
      rw [List.flatMap_cons, shape, List.cons_append, utf8Pieces]
      simp only [read, Utf8Piece.width, Nat.add_sub_cancel, List.drop_left, utf8Chars, ih]
      rfl

theorem ofUtf8_toUtf8 (s : String) : ofUtf8 (toUtf8 s) = .ok s := by
  rw [ofUtf8, toUtf8_eq_flatMap, utf8Chars_encode]
  exact congrArg Except.ok String.ofList_toList

end FormatAudit.Text
