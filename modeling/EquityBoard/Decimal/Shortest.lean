import EquityBoard.Decimal.Dyadic
import EquityBoard.Decimal.Numeral

/-!
# The fewest digits that read back

The reals that round to a double form an interval around it: halfway to the neighbour on either
side, the ends included exactly when the mantissa is even. `shortest` takes the coarsest decimal grid
with a point in that interval. On a grid it is enough to test the two neighbours of the value; of two
hits the nearer one counts, and an exact tie goes as the caller says.
-/

namespace EquityBoard.Decimal

/-- A decimal `digits · 10 ^ power`. -/
structure Scientific where
  digits : Nat
  power : Int
deriving DecidableEq, Repr

namespace Dyadic

/-- Whether the neighbour towards zero is only half as far away as the other one. -/
def isNarrowBelow (d : Dyadic) : Bool := d.mantissa = 0x10000000000000 && -1074 < d.exponent

/-- The lower end of the interval, in quarters of the last binary place. -/
def lowerEnd (d : Dyadic) : Nat := if d.isNarrowBelow then 4 * d.mantissa - 1 else 4 * d.mantissa - 2

/-- The upper end of the interval, in quarters of the last binary place. -/
def upperEnd (d : Dyadic) : Nat := 4 * d.mantissa + 2

/-- A quarter of the last binary place, as a multiple of the common unit of the grid `10 ^ k`. -/
def quarter (d : Dyadic) (k : Int) : Nat := Nat.pow 2 (d.exponent - 2).toNat * Nat.pow 10 (-k).toNat

/-- The step of the grid `10 ^ k`, as a multiple of the common unit. -/
def step (d : Dyadic) (k : Int) : Nat := Nat.pow 10 k.toNat * Nat.pow 2 (2 - d.exponent).toNat

/-- Whether the grid point `c · 10 ^ k` rounds to the value. -/
def holds (d : Dyadic) (k : Int) (c : Nat) : Bool :=
  let point := c * d.step k
  let low := d.lowerEnd * d.quarter k
  let high := d.upperEnd * d.quarter k
  if d.mantissa % 2 = 0 then low ≤ point && point ≤ high else low < point && point < high

/-- The point of the grid `10 ^ k` that reads back and is nearest to the value, if there is one. -/
def onGrid? (tie : Tie) (d : Dyadic) (k : Int) : Option Nat :=
  let centre := 4 * d.mantissa * d.quarter k
  let below := centre / d.step k
  match d.holds k below, d.holds k (below + 1) with
  | true, true => some (roundDiv tie centre (d.step k))
  | true, false => some below
  | false, true => some (below + 1)
  | false, false => none

/-- A power of ten above the value: its binary length times the logarithm of two, rounded up. -/
def tenAbove (d : Dyadic) : Int :=
  ((d.mantissa.log2 : Int) + 1 + d.exponent) * 30103 / 100000 + 2

/-- The first hit on the `tries` grids from `10 ^ k` down; the exact value where none is hit. -/
def search (tie : Tie) (d : Dyadic) : Nat → Int → Scientific
  | 0, _ =>
    ⟨d.mantissa * Nat.pow 2 d.exponent.toNat * Nat.pow 5 (-d.exponent).toNat, min d.exponent 0⟩
  | tries + 1, k =>
    match d.onGrid? tie k with
    | some c => ⟨c, k⟩
    | none => search tie d tries (k - 1)

/-- The shortest decimal that reads back to the magnitude of the value. -/
def shortest (tie : Tie) (d : Dyadic) : Scientific :=
  if d.mantissa = 0 then ⟨0, 0⟩ else d.search tie 24 d.tenAbove

end Dyadic

/-! ## Written form -/

/-- How a shortest decimal is written. -/
structure FloatStyle where
  /-- Where an exact tie between two shortest decimals goes. -/
  tie : Tie
  /-- Whether an exponent of the leading digit is written positionally. -/
  isPlain : Int → Bool
  /-- Whether a whole value keeps a point and a zero. -/
  keepsPoint : Bool

/-- Writes digits with the point after `point` of them: leading or trailing zeros where the point
lies outside. -/
def positional (keepsPoint : Bool) (ds : List Char) (point : Int) : List Char :=
  if point ≤ 0 then '0' :: '.' :: (List.replicate (-point).toNat '0' ++ ds)
  else if point < ds.length then ds.take point.toNat ++ '.' :: ds.drop point.toNat
  else
    ds ++ List.replicate (point.toNat - ds.length) '0' ++ (if keepsPoint then ['.', '0'] else [])

/-- Writes digits with one of them before the point, and the exponent with its sign. -/
def exponential (ds : List Char) (exponent : Int) : List Char :=
  ds.take 1 ++ (if ds.length ≤ 1 then [] else '.' :: ds.drop 1)
    ++ 'e' :: (if exponent < 0 then ofInt exponent else '+' :: ofInt exponent)

/-- The text of a finite value. -/
def Dyadic.write (style : FloatStyle) (d : Dyadic) : List Char :=
  let s := d.shortest style.tie
  let ds := Decimal.digits s.digits
  let exponent := s.power + ds.length - 1
  let body :=
    if style.isPlain exponent then positional style.keepsPoint ds (exponent + 1)
    else exponential ds exponent
  if d.negative then '-' :: body else body

/-- The text of a double that is not finite. -/
def nonFinite (x : Float) : String :=
  if x.isNaN then "NaN" else if x < 0 then "-inf" else "inf"

/-- The text of any double. -/
def writeFloat (style : FloatStyle) (x : Float) : String :=
  if x.isFinite then String.ofList ((Dyadic.ofFloat x).write style) else nonFinite x

/-- Quantities are written without an exponent, and whole ones without a point. -/
def plainStyle : FloatStyle := ⟨.away, fun _ => true, false⟩

end EquityBoard.Decimal
