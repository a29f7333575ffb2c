import FormatAudit.Number.Binary64

/-!
Decimal text of double-format numbers: the fewest digits that round to the number, laid out as the
reader of the text expects them.
-/

namespace FormatAudit

structure Decimal where
  digits : Nat
  exponent : Int
  deriving DecidableEq, Repr

namespace Binary64

/-- Four times the significand of a number and the ends of the interval that rounds to it, in units
of a quarter of the last place; the lower end is nearer below a power of two. -/
structure Neighbourhood where
  low : Nat
  middle : Nat
  high : Nat
  closed : Bool
  unit : Int

def neighbourhood (x : Binary64) : Neighbourhood :=
  let m := 4 * x.significand
  { low := if x.fraction = 0 && 1 < x.exponentField then m - 1 else m - 2
    middle := m
    high := m + 2
    closed := x.significand % 2 = 0
    unit := x.exponent - 2 }

def onGrid (n : Neighbourhood) (k : Int) : Option Nat :=
  let ten := Nat.pow 10 k.toNat * Nat.pow 2 (-n.unit).toNat
  let two := Nat.pow 2 n.unit.toNat * Nat.pow 10 (-k).toNat
  let inside (d : Nat) : Bool :=
    if n.closed then n.low * two ≤ d * ten && d * ten ≤ n.high * two
    else n.low * two < d * ten && d * ten < n.high * two
  let below := n.middle * two / ten
  let above := below + 1
  match inside below, inside above with
  | true, true => some (if 2 * (n.middle * two) < (below + above) * ten then below else above)
  | true, false => some below
  | false, true => some above
  | false, false => none

def firstGrid (n : Neighbourhood) : Nat → Int → Decimal
  | 0, k => ⟨(onGrid n k).getD 0, k⟩
  | fuel + 1, k =>
    match onGrid n k with
    | some digits => ⟨digits, k⟩
    | none => firstGrid n fuel (k - 1)

def shortest (x : Binary64) : Decimal :=
  let place : Int := x.exponent + Nat.log2 x.significand
  firstGrid x.neighbourhood 21 (place * 30103 / 100000 + 2)

end Binary64

inductive ExponentStyle
  | bare
  | signed (width : Nat)
  deriving DecidableEq, Repr

def ExponentStyle.render (style : ExponentStyle) (e : Int) : List Char :=
  match style with
  | .bare => (toString e).toList
  | .signed width =>
    let digits := Nat.toDigits 10 e.natAbs
    (if e < 0 then '-' else '+') :: List.replicate (width - digits.length) '0' ++ digits

structure DecimalLayout where
  positional : Int → Bool
  keepsFraction : Bool
  exponent : ExponentStyle

namespace DecimalLayout

def zeros (n : Nat) : List Char := List.replicate n '0'

def layout (layout : DecimalLayout) (digits : List Char) (place : Int) : List Char :=
  if layout.positional place then
    if place ≤ 0 then '0' :: '.' :: zeros (-place).toNat ++ digits
    else
      let whole := digits.take place.toNat
      let rest := digits.drop place.toNat
      whole ++ zeros (place.toNat - whole.length) ++
        (if rest ≠ [] then '.' :: rest else if layout.keepsFraction then ['.', '0'] else [])
  else
    digits.take 1 ++ (if digits.length = 1 then [] else '.' :: digits.drop 1) ++
      'e' :: layout.exponent.render (place - 1)

def render (l : DecimalLayout) (x : Binary64) : String :=
  if x.isNaN then "NaN"
  else
    let sign := if x.isNegative then ['-'] else []
    let body :=
      if x.isZero then if l.keepsFraction then ['0', '.', '0'] else ['0']
      else if !x.isFinite then ['i', 'n', 'f']
      else
        let d := x.shortest
        let written := Nat.toDigits 10 d.digits
        let digits := (written.reverse.dropWhile (· = '0')).reverse
        l.layout digits (written.length + d.exponent)
    String.ofList (sign ++ body)

end DecimalLayout

end FormatAudit
