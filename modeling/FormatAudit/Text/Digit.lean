/-!
Digits of numbers in bases up to sixteen.
-/

namespace FormatAudit.Text

def hexDigit (c : Char) : Option Nat :=
  if '0' ≤ c ∧ c ≤ '9' then some (c.toNat - '0'.toNat)
  else if 'a' ≤ c ∧ c ≤ 'f' then some (c.toNat - 'a'.toNat + 10)
  else if 'A' ≤ c ∧ c ≤ 'F' then some (c.toNat - 'A'.toNat + 10)
  else none

def digit (base : Nat) (c : Char) : Option Nat := (hexDigit c).filter (· < base)

/-- The number that the digits write, when all of them are digits of the base. -/
def ofDigits (base : Nat) (s : List Char) : Option Nat :=
  s.foldlM (fun n c => (digit base c).map (base * n + ·)) 0

end FormatAudit.Text
