import FormatAudit.Json.Fault
import FormatAudit.Number.Binary64

/-!
Number tokens and their values. A numeral without fraction and exponent that fits 64 bits is an
integer; every other one is a double-format number, computed from the digits that a 64-bit
significand takes up.
-/

namespace FormatAudit.Json

structure Numeral where
  negative : Bool
  whole : List Nat
  fraction : Option (List Nat)
  exponent : Option (Bool × List Nat)
  deriving DecidableEq, Repr

inductive Number
  | integer (n : Int)
  | float (x : Binary64)
  deriving DecidableEq, Repr

namespace Numeral

def digits (s : List Char) : List Nat := (s.takeWhile Char.isDigit).map fun c => c.toNat - '0'.toNat

def afterDigits (s : List Char) : List Char := s.dropWhile Char.isDigit

def someDigits (s : List Char) : Except Fault (List Nat × List Char) :=
  match s with
  | [] => .error .numberUnfinished
  | c :: _ => if c.isDigit then .ok (digits s, afterDigits s) else .error .numberMalformed

def wholePart (s : List Char) : Except Fault (List Nat × List Char) :=
  match s with
  | '0' :: rest => if rest.head?.any Char.isDigit then .error .numberMalformed else .ok ([0], rest)
  | s => someDigits s

def fractionPart (s : List Char) : Except Fault (Option (List Nat) × List Char) :=
  match s with
  | '.' :: rest => (fun (ds, rest) => (some ds, rest)) <$> someDigits rest
  | s => .ok (none, s)

def exponentSign : List Char → Bool × List Char
  | '+' :: rest => (false, rest)
  | '-' :: rest => (true, rest)
  | s => (false, s)

def exponentPart (s : List Char) : Except Fault (Option (Bool × List Nat) × List Char) :=
  match s with
  | c :: rest =>
    if c = 'e' ∨ c = 'E' then
      let (negative, rest) := exponentSign rest
      (fun (ds, rest) => (some (negative, ds), rest)) <$> someDigits rest
    else .ok (none, s)
  | [] => .ok (none, s)

def unsigned (negative : Bool) (s : List Char) : Except Fault (Numeral × List Char) := do
  let (whole, s) ← wholePart s
  let (fraction, s) ← fractionPart s
  let (exponent, s) ← exponentPart s
  pure (⟨negative, whole, fraction, exponent⟩, s)

/-- Scans the number token at the start of a text, and gives what is left after it. -/
def scan (s : List Char) : Except Fault (Numeral × List Char) :=
  match s with
  | '-' :: rest => unsigned true rest
  | s => unsigned false s

theorem length_afterDigits_le (s : List Char) : (afterDigits s).length ≤ s.length :=
  (List.dropWhile_sublist _).length_le

theorem length_someDigits {s rest : List Char} {ds : List Nat} (read : someDigits s = .ok (ds, rest)) :
    rest.length < s.length := by
  cases s with
  | nil => simp [someDigits] at read
  | cons c tail =>
    simp only [someDigits] at read
    split at read
    · rename_i digit
      simp only [Except.ok.injEq, Prod.mk.injEq] at read
      rw [← read.2, afterDigits, List.dropWhile_cons_of_pos digit]
      exact Nat.lt_succ_of_le (length_afterDigits_le tail)
    · simp at read

theorem length_wholePart {s rest : List Char} {ds : List Nat} (read : wholePart s = .ok (ds, rest)) :
    rest.length < s.length := by
  unfold wholePart at read
  split at read
  · split at read <;> simp_all
  · exact length_someDigits read

theorem length_fractionPart {s rest : List Char} {ds : Option (List Nat)}
    (read : fractionPart s = .ok (ds, rest)) : rest.length ≤ s.length := by
  unfold fractionPart at read
  split at read
  · rename_i tail
    cases digits : someDigits tail with
    | error fault => simp [digits, Functor.map, Except.map] at read
    | ok pair =>
      obtain ⟨_, left⟩ := pair
      simp only [digits, Functor.map, Except.map, Except.ok.injEq, Prod.mk.injEq] at read
      have := length_someDigits digits
      rw [← read.2, List.length_cons]
      omega
  · simp_all

theorem length_exponentSign_le (s : List Char) : (exponentSign s).2.length ≤ s.length := by
  unfold exponentSign
  split <;> simp

theorem length_exponentPart {s rest : List Char} {e : Option (Bool × List Nat)}
    (read : exponentPart s = .ok (e, rest)) : rest.length ≤ s.length := by
  unfold exponentPart at read
  split at read
  · rename_i c tail
    split at read
    · have short := length_exponentSign_le tail
      cases digits : someDigits (exponentSign tail).2 with
      | error fault => simp [digits, Functor.map, Except.map] at read
      | ok pair =>
        obtain ⟨_, left⟩ := pair
        simp only [digits, Functor.map, Except.map, Except.ok.injEq, Prod.mk.injEq] at read
        have := length_someDigits digits
        rw [← read.2, List.length_cons]
        omega
    · simp_all
  · simp_all

theorem length_unsigned {negative : Bool} {s rest : List Char} {n : Numeral}
    (read : unsigned negative s = .ok (n, rest)) : rest.length < s.length := by
  unfold unsigned at read
  cases whole : wholePart s with
  | error fault => simp [whole, bind, Except.bind] at read
  | ok first =>
    obtain ⟨_, left⟩ := first
    cases fraction : fractionPart left with
    | error fault => simp [whole, fraction, bind, Except.bind] at read
    | ok second =>
      obtain ⟨_, left⟩ := second
      cases exponent : exponentPart left with
      | error fault => simp [whole, fraction, exponent, bind, Except.bind] at read
      | ok third =>
        obtain ⟨_, left⟩ := third
        simp only [whole, fraction, exponent, bind, Except.bind, pure, Except.pure, Except.ok.injEq,
          Prod.mk.injEq] at read
        have := length_wholePart whole
        have := length_fractionPart fraction
        have := length_exponentPart exponent
        rw [← read.2]
        omega

theorem length_scan {s rest : List Char} {n : Numeral} (read : scan s = .ok (n, rest)) :
    rest.length < s.length := by
  unfold scan at read
  split at read
  · have := length_unsigned read
    rw [List.length_cons]
    omega
  · exact length_unsigned read

/-- Takes digits into a number for as long as it stays within the limit; gives what is left. -/
def absorb (limit n : Nat) : List Nat → Nat × List Nat
  | [] => (n, [])
  | d :: ds => if n * 10 + d ≤ limit then absorb limit (n * 10 + d) ds else (n, d :: ds)

def maxSignificand : Nat := Nat.pow 2 64 - 1

def maxExponent : Nat := Nat.pow 2 31 - 1

def tenTo (e : Nat) : Binary64 := .ofDecimal false 1 e

/-- The significand scaled by powers of ten: one step up, or steps down of at most 308 places. -/
def scaledDown (x : Binary64) (places : Nat) : Binary64 :=
  if places ≤ 308 then x.div (tenTo places)
  else if x.isZero then x
  else scaledDown (x.div (tenTo 308)) (places - 308)
termination_by places

def scaledUp (x : Binary64) (places : Nat) : Except Fault Binary64 :=
  if places ≤ 308 then
    let y := x.mul (tenTo places)
    if y.isFinite then .ok y else .error .numberTooLarge
  else if x.isZero then .ok x
  else .error .numberTooLarge

def magnitude (significand : Nat) (e : Int) : Except Fault Binary64 :=
  let x := Binary64.ofRatio false significand 1
  if 0 ≤ e then scaledUp x e.toNat else .ok (scaledDown x (-e).toNat)

def floatMagnitude (n : Numeral) : Except Fault Binary64 :=
  let (significand, left) := absorb maxSignificand 0 n.whole
  let fraction := n.fraction.getD []
  let (significand, unused) := absorb maxSignificand significand fraction
  let e : Int := (left.length : Int) - (fraction.length - unused.length : Nat)
  match n.exponent with
  | none => magnitude significand e
  | some (down, ds) =>
    let (shift, beyond) := absorb maxExponent 0 ds
    if beyond ≠ [] then
      if significand ≠ 0 ∧ !down then .error .numberTooLarge else .ok (.zero false)
    else magnitude significand (if down then e - shift else e + shift)

def float (n : Numeral) : Except Fault Binary64 :=
  (fun x => if n.negative then x.neg else x) <$> n.floatMagnitude

def value (n : Numeral) : Except Fault Number :=
  let (magnitude, left) := absorb maxSignificand 0 n.whole
  if n.fraction.isNone && n.exponent.isNone && left.isEmpty then
    if !n.negative then .ok (.integer magnitude)
    else if 0 < magnitude ∧ magnitude ≤ Nat.pow 2 63 then .ok (.integer (-magnitude))
    else .float <$> n.float
  else .float <$> n.float

end Numeral

end FormatAudit.Json
