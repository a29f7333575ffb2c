import FormatAudit.Decoding.Tree
import FormatAudit.Proofs.Json.Writing
import FormatAudit.Proofs.Version.Reading

/-! Numerals without fraction and exponent. A number that fits 64 bits is held exactly, with a sign or without one; any
other one becomes a float. -/

namespace FormatAudit

namespace Json

namespace Numeral

def extended (n : Nat) (ds : List Nat) : Nat := ds.foldl (fun value d => value * 10 + d) n

def IsInteger (n : Numeral) : Prop := n.fraction = none ∧ n.exponent = none

/-- The number that the sign and the digits of the whole part write. -/
def integer (n : Numeral) : Int := if n.negative then -extended 0 n.whole else extended 0 n.whole

def IsNegativeZero (n : Numeral) : Prop := n.negative = true ∧ n.integer = 0

/-- The number fits 64 bits with a sign, and it is no zero with a sign. -/
def IsExact (n : Numeral) : Prop := -2 ^ 63 ≤ n.integer ∧ n.integer < 2 ^ 63 ∧ ¬n.IsNegativeZero

def IsUnsigned (n : Numeral) : Prop := 2 ^ 63 ≤ n.integer ∧ n.integer < 2 ^ 64

/-- The numeral stands for a number, but not for an integer that needs a format without a sign. -/
def IsAccepted (n : Numeral) : Prop := ¬(n.IsInteger ∧ n.IsUnsigned) ∧ ∃ found, n.value = .ok found

instance (n : Numeral) : Decidable n.IsInteger := inferInstanceAs (Decidable (_ ∧ _))

instance (n : Numeral) : Decidable n.IsNegativeZero := inferInstanceAs (Decidable (_ ∧ _))

instance (n : Numeral) : Decidable n.IsExact := inferInstanceAs (Decidable (_ ∧ _ ∧ _))

instance (n : Numeral) : Decidable n.IsUnsigned := inferInstanceAs (Decidable (_ ∧ _))

theorem extended_cons (n d : Nat) (ds : List Nat) : extended n (d :: ds) = extended (n * 10 + d) ds := rfl

theorem le_extended (n : Nat) (ds : List Nat) : n ≤ extended n ds := by
  induction ds generalizing n with
  | nil => exact Nat.le_refl n
  | cons d ds ih => exact Nat.le_trans (by omega) (ih (n * 10 + d))

theorem absorb_of_le {limit n : Nat} {ds : List Nat} (fits : extended n ds ≤ limit) :
    absorb limit n ds = (extended n ds, []) := by
  induction ds generalizing n with
  | nil => rfl
  | cons d ds ih =>
      rw [extended_cons] at fits ⊢
      rw [absorb, if_pos ((le_extended _ ds).trans fits), ih fits]

theorem absorb_of_lt {limit n : Nat} {ds : List Nat} (start : n ≤ limit) (beyond : limit < extended n ds) :
    (absorb limit n ds).2 ≠ [] := by
  induction ds generalizing n with
  | nil => exact absurd start (Nat.not_le.mpr beyond)
  | cons d ds ih =>
      rw [absorb]
      split
      · rename_i fits
        exact ih fits beyond
      · exact List.cons_ne_nil d ds

theorem isExact_or_isUnsigned_iff (n : Numeral) : n.IsExact ∨ n.IsUnsigned ↔
    if n.negative then 0 < extended 0 n.whole ∧ extended 0 n.whole ≤ Nat.pow 2 63
    else extended 0 n.whole ≤ maxSignificand := by
  have power : Nat.pow 2 63 = 2 ^ 63 := rfl
  have greatest : maxSignificand = 2 ^ 64 - 1 := rfl
  rw [power, greatest]
  cases sign : n.negative <;>
    simp only [IsExact, IsUnsigned, IsNegativeZero, integer, sign, Bool.false_eq_true, false_and, true_and,
      not_false_eq_true, and_true, ↓reduceIte] <;> omega

theorem value_of_isInteger {n : Numeral} (whole : n.IsInteger) :
    n.value = if n.IsExact ∨ n.IsUnsigned then .ok (.integer n.integer) else .float <$> n.float := by
  have greatest : Nat.pow 2 63 ≤ maxSignificand := by decide
  rw [value, whole.1, whole.2]
  by_cases fits : extended 0 n.whole ≤ maxSignificand
  · simp only [absorb_of_le fits, Option.isNone_none, List.isEmpty_nil, Bool.and_self, ↓reduceIte,
      isExact_or_isUnsigned_iff]
    cases sign : n.negative with
    | false => simp [fits, integer, sign]
    | true => simp [integer, sign]
  · have left := absorb_of_lt (Nat.zero_le _) (Nat.not_le.mp fits)
    have neither : ¬(n.IsExact ∨ n.IsUnsigned) := by
      rw [isExact_or_isUnsigned_iff]
      split <;> omega
    simp [left, neither]

theorem value_of_not_isInteger {n : Numeral} (other : ¬n.IsInteger) : n.value = .float <$> n.float := by
  have part : (n.fraction.isNone && n.exponent.isNone) = false := by
    simpa [IsInteger, ← Option.ne_none_iff_isSome] using other
  simp [value, part]

theorem isInteger_of_value {n : Numeral} {k : Int} (stands : n.value = .ok (.integer k)) :
    n.IsInteger ∧ (n.IsExact ∨ n.IsUnsigned) ∧ n.integer = k := by
  have whole : n.IsInteger := by
    by_contra other
    rw [value_of_not_isInteger other] at stands
    obtain ⟨_, _, ⟨⟩⟩ := map_eq_ok_iff.mp stands
  rw [value_of_isInteger whole] at stands
  split at stands
  · rename_i held
    exact ⟨whole, held, by simpa using stands⟩
  · obtain ⟨_, _, ⟨⟩⟩ := map_eq_ok_iff.mp stands

def ofInteger (negative : Bool) (n : Nat) : Numeral :=
  ⟨negative, (Nat.toDigits 10 n).map fun c => c.toNat - '0'.toNat, none, none⟩

/-- Its text: no sign but the one for a negative number, and no zero in front. -/
def literal (negative : Bool) (n : Nat) : List Char := (if negative then ['-'] else []) ++ Nat.toDigits 10 n

@[simp] theorem isInteger_ofInteger (negative : Bool) (n : Nat) : (ofInteger negative n).IsInteger := ⟨rfl, rfl⟩

@[simp] theorem integer_ofInteger (negative : Bool) (n : Nat) :
    (ofInteger negative n).integer = if negative then -(n : Int) else n := by
  have digits : extended 0 (ofInteger negative n).whole = n := by
    rw [ofInteger, extended, List.foldl_map]
    simpa [Nat.ofDigitChars, Nat.mul_comm] using Nat.ofDigitChars_ten_toDigits (n := n)
  rw [integer, digits]
  rfl

theorem head?_toDigits_ne_zero {n : Nat} (positive : 0 < n) : (Nat.toDigits 10 n).head? ≠ some '0' := by
  induction n using Nat.strongRecOn with
  | ind n ih =>
      rw [Nat.toDigits_eq_if (by decide)]
      split
      · simpa using Nat.ne_of_gt positive
      · rw [List.head?_append_of_ne_nil _ Nat.toDigits_ne_nil]
        exact ih (n / 10) (by omega) (by omega)

theorem wholePart_toDigits (negative : Bool) (n : Nat) :
    wholePart (Nat.toDigits 10 n) = .ok ((ofInteger negative n).whole, []) := by
  rcases Nat.eq_zero_or_pos n with rfl | positive
  · rfl
  · have inside : ∀ c ∈ Nat.toDigits 10 n, c.isDigit = true := fun c member =>
      Nat.isDigit_of_mem_toDigits (by decide) (by decide) member
    obtain ⟨c, tail, shape, digit⟩ := Version.exists_toDigits n
    have other : c ≠ '0' := fun zero => head?_toDigits_ne_zero positive (by simp [shape, zero])
    have read : wholePart (Nat.toDigits 10 n) = someDigits (Nat.toDigits 10 n) := by
      rw [shape, wholePart]
      simpa using other
    rw [read, shape, someDigits, if_pos digit, ← shape, digits, afterDigits, List.takeWhile_eq_self_iff.mpr inside,
      List.dropWhile_eq_nil_iff.mpr inside]
    rfl

theorem scan_literal (negative : Bool) (n : Nat) : scan (literal negative n) = .ok (ofInteger negative n, []) := by
  have read : unsigned negative (Nat.toDigits 10 n) = .ok (ofInteger negative n, []) := by
    rw [unsigned, wholePart_toDigits negative n]
    rfl
  cases negative with
  | true => exact read
  | false =>
      obtain ⟨c, tail, shape, digit⟩ := Version.exists_toDigits n
      have other : c ≠ '-' := by
        rintro rfl
        cases digit
      rw [literal, if_neg Bool.false_ne_true, List.nil_append, scan.eq_def]
      split
      · rename_i signed
        exact absurd (List.cons.inj (shape.symm.trans signed)).1 other
      · exact read

theorem literal_eq_cons (negative : Bool) (n : Nat) :
    ∃ c rest, literal negative n = c :: rest ∧ (c = '-' ∨ c.isDigit = true) := by
  cases negative with
  | true => exact ⟨'-', _, rfl, .inl rfl⟩
  | false =>
      obtain ⟨c, rest, shape, digit⟩ := Version.exists_toDigits n
      exact ⟨c, rest, shape, .inr digit⟩

end Numeral

theorem readNumber_gives {s tail left : List Char} {shorter : tail.length ≤ s.length} {numeral : Numeral}
    (scanned : Numeral.scan tail = .ok (numeral, left)) : (readNumber shorter).Gives (.number numeral) left := by
  rw [readNumber]
  split
  · rename_i scannedToo
    cases scannedToo.symm.trans scanned
    exact ⟨rfl, rfl⟩
  · rename_i failed
    cases failed.symm.trans scanned

theorem readValue_number {s left : List Char} {c : Char} {rest : List Char} {numeral : Numeral}
    (start : skipSpace s = c :: rest) (head : c = '-' ∨ c.isDigit = true)
    (scanned : Numeral.scan (c :: rest) = .ok (numeral, left)) : (readValue s).Gives (.number numeral) left := by
  have others : c ∉ ['n', 't', 'f', '"', '[', '\x7b'] := by
    intro listed
    simp only [List.mem_cons, List.not_mem_nil, or_false] at listed
    rcases listed with rfl | rfl | rfl | rfl | rfl | rfl <;> simp at head
  simp only [List.mem_cons, List.not_mem_nil, or_false, not_or] at others
  rw [readValue]
  split
  · simp_all
  · rename_i startToo
    cases startToo.symm.trans start
    simp only [others, head, ↓reduceIte]
    exact readNumber_gives (start ▸ scanned)

theorem read_literal (negative : Bool) (n : Nat) :
    read (.ofList (Numeral.literal negative n)) = ⟨.number (.ofInteger negative n), false⟩ := by
  obtain ⟨c, rest, shape, head⟩ := Numeral.literal_eq_cons negative n
  have solid : isSpace c = false := by
    rcases head with rfl | digit
    · rfl
    · simp only [isSpace, Bool.or_eq_false_iff, decide_eq_false_iff_not]
      refine ⟨⟨⟨?_, ?_⟩, ?_⟩, ?_⟩ <;> rintro rfl <;> cases digit
  refine read_of_gives ?_
  rw [String.toList_ofList]
  refine readValue_number ?_ head (shape ▸ Numeral.scan_literal negative n)
  rw [shape, skipSpace_cons solid]

end Json

namespace Decoder

theorem number_eq_ok_iff {α : Type} {ofInteger : Int → α} {ofFloat : Binary64 → α}
    {numeral : Json.Numeral} {a : α} :
    number ofInteger ofFloat numeral = .ok a ↔
      (∃ n, numeral.value = .ok (.integer n) ∧ n ≤ maxInteger ∧ ofInteger n = a) ∨
        ∃ x, numeral.value = .ok (.float x) ∧ ofFloat x = a := by
  rw [number, bind_eq_ok_iff]
  rcases numeral.value with fault | n | x
  · simp [ofFault, Except.mapError]
  · by_cases small : n ≤ maxInteger <;> simp [ofFault, Except.mapError, small]
  · simp [ofFault, Except.mapError]

/-- What an integer is read as: itself if it fits 64 bits with a sign, otherwise a float, except for one that fits
64 bits without a sign. -/
def readInteger {α : Type} (ofInteger : Int → α) (ofFloat : Binary64 → α) (n : Json.Numeral) :
    Except DecodeError α :=
  if n.IsExact then .ok (ofInteger n.integer)
  else if n.IsUnsigned then .error (.integerTooLarge n.integer)
  else ofFloat <$> ofFault n.float

theorem number_of_isInteger {α : Type} (ofInteger : Int → α) (ofFloat : Binary64 → α) {n : Json.Numeral}
    (whole : n.IsInteger) : number ofInteger ofFloat n = readInteger ofInteger ofFloat n := by
  have limit : maxInteger = 2 ^ 63 - 1 := rfl
  rw [number, readInteger, Json.Numeral.value_of_isInteger whole]
  by_cases exact : n.IsExact
  · have small : n.integer ≤ maxInteger := by
      have := exact.2.1
      omega
    rw [if_pos (.inl exact), if_pos exact]
    exact if_pos small
  by_cases unsigned : n.IsUnsigned
  · have large : ¬n.integer ≤ maxInteger := by
      have := unsigned.1
      omega
    rw [if_pos (.inr unsigned), if_neg exact, if_pos unsigned]
    exact if_neg large
  · rw [if_neg (not_or.mpr ⟨exact, unsigned⟩), if_neg exact, if_neg unsigned]
    cases n.float <;> rfl

theorem exists_number_iff {α : Type} {ofInteger : Int → α} {ofFloat : Binary64 → α} {numeral : Json.Numeral} :
    (∃ a, number ofInteger ofFloat numeral = .ok a) ↔ numeral.IsAccepted := by
  have limit : maxInteger = 2 ^ 63 - 1 := rfl
  simp only [number_eq_ok_iff]
  constructor
  · rintro ⟨_, ⟨n, stands, small, _⟩ | ⟨x, stands, _⟩⟩
    · obtain ⟨_, _, rfl⟩ := Json.Numeral.isInteger_of_value stands
      exact ⟨fun refused => by have := refused.2.1; omega, _, stands⟩
    · refine ⟨fun refused => ?_, _, stands⟩
      rw [Json.Numeral.value_of_isInteger refused.1, if_pos (.inr refused.2)] at stands
      cases stands
  · rintro ⟨accepted, n | x, stands⟩
    · obtain ⟨whole, held, rfl⟩ := Json.Numeral.isInteger_of_value stands
      refine ⟨_, .inl ⟨_, stands, ?_, rfl⟩⟩
      rcases held with exact | unsigned
      · have := exact.2.1
        omega
      · exact absurd ⟨whole, unsigned⟩ accepted
    · exact ⟨_, .inr ⟨x, stands, rfl⟩⟩

end Decoder

end FormatAudit
