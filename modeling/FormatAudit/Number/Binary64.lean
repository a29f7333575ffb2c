/-!
Numbers of the IEEE 754 double format, held as their 64 bits, and rounding an exact ratio to the
nearest of them, a tie going to the even significand. All is exact arithmetic on whole numbers.
-/

namespace FormatAudit

structure Binary64 where
  bits : UInt64
  deriving DecidableEq, Repr

/-- The whole number nearest to the ratio, an exact half going to the even neighbour. -/
def roundHalfEven (num den : Nat) : Nat :=
  let low := num / den
  let twice := 2 * (num % den)
  if twice < den then low else if den < twice then low + 1 else low + low % 2

namespace Binary64

def isNegative (x : Binary64) : Bool := Nat.pow 2 63 ≤ x.bits.toNat

def exponentField (x : Binary64) : Nat := x.bits.toNat / Nat.pow 2 52 % Nat.pow 2 11

def fraction (x : Binary64) : Nat := x.bits.toNat % Nat.pow 2 52

def isFinite (x : Binary64) : Bool := x.exponentField ≠ 2047

def isNaN (x : Binary64) : Bool := x.exponentField = 2047 && x.fraction ≠ 0

def isZero (x : Binary64) : Bool := x.exponentField = 0 && x.fraction = 0

def significand (x : Binary64) : Nat :=
  if x.exponentField = 0 then x.fraction else Nat.pow 2 52 + x.fraction

def exponent (x : Binary64) : Int := max x.exponentField 1 - 1075

/-- Equality of numbers: the two zeros are equal, and no number equals a NaN. -/
def equal (x y : Binary64) : Bool := !x.isNaN && !y.isNaN && (x == y || x.isZero && y.isZero)

theorem equal_comm (x y : Binary64) : equal x y = equal y x := by
  simp only [equal, Bool.beq_comm (a := x), Bool.and_comm (x.isZero), Bool.and_comm (!x.isNaN)]

theorem equal_self {x : Binary64} (number : x.isNaN = false) : equal x x = true := by simp [equal, number]

theorem equal_trans {x y z : Binary64} (first : equal x y = true) (second : equal y z = true) :
    equal x z = true := by
  simp only [equal, Bool.and_eq_true, Bool.or_eq_true, Bool.not_eq_true', beq_iff_eq] at *
  grind

def ofMagnitude (negative : Bool) (magnitude : Nat) : Binary64 :=
  ⟨UInt64.ofNat ((if negative then Nat.pow 2 63 else 0) + magnitude)⟩

def zero (negative : Bool) : Binary64 := ofMagnitude negative 0

def infinity (negative : Bool) : Binary64 := ofMagnitude negative (2047 * Nat.pow 2 52)

def scaled (n : Nat) (e : Int) : Nat × Nat := (n * Nat.pow 2 e.toNat, Nat.pow 2 (-e).toNat)

/-- The power of two that is at most the ratio and more than half of it. -/
def ratioExponent (num den : Nat) : Int :=
  let guess : Int := (Nat.log2 num : Int) - Nat.log2 den
  if num * Nat.pow 2 (-guess).toNat < den * Nat.pow 2 guess.toNat then guess - 1 else guess

def ofRatio (negative : Bool) (num den : Nat) : Binary64 :=
  if num = 0 then zero negative
  else
    let unit : Int := max (ratioExponent num den - 52) (-1074)
    let significand := roundHalfEven (num * Nat.pow 2 (-unit).toNat) (den * Nat.pow 2 unit.toNat)
    let magnitude := (unit + 1074).toNat * Nat.pow 2 52 + significand
    if magnitude < 2047 * Nat.pow 2 52 then ofMagnitude negative magnitude else infinity negative

def digitCount (n : Nat) : Nat := (Nat.toDigits 10 n).length

def ofDecimal (negative : Bool) (digits : Nat) (e : Int) : Binary64 :=
  let place := (digitCount digits : Int) + e
  if digits = 0 || place < -400 then zero negative
  else if 400 < place then infinity negative
  else ofRatio negative (digits * Nat.pow 10 e.toNat) (Nat.pow 10 (-e).toNat)

def mul (x y : Binary64) : Binary64 :=
  let (num, den) := scaled (x.significand * y.significand) (x.exponent + y.exponent)
  ofRatio (x.isNegative ^^ y.isNegative) num den

def div (x y : Binary64) : Binary64 :=
  let (num, den) := scaled x.significand (x.exponent - y.exponent)
  ofRatio (x.isNegative ^^ y.isNegative) num (den * y.significand)

def neg (x : Binary64) : Binary64 := ⟨x.bits ^^^ 0x8000000000000000⟩

end Binary64

end FormatAudit
