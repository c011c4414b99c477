import EquityBoard.Decimal.Shortest

/-!
# A fixed number of decimal places

`fixed` rounds the exact binary value to a number of places, an exact half going to the even
neighbour, and keeps the sign of a value that rounds to zero.
-/

namespace EquityBoard.Decimal

/-- The value times `10 ^ places`, rounded to a whole number. -/
def Dyadic.scaled (places : Nat) (d : Dyadic) : Nat := roundDiv .toEven (d.num places) d.den

/-- Writes `n / 10 ^ places` with that many digits after the point. -/
def pointed (places : Nat) (n : Nat) : List Char :=
  let padded := digits n
  let ds := List.replicate (places + 1 - padded.length) '0' ++ padded
  ds.take (ds.length - places) ++ '.' :: ds.drop (ds.length - places)

/-- The text of a finite value with `places` digits after the point. -/
def Dyadic.fixed (places : Nat) (d : Dyadic) : List Char :=
  if d.negative then '-' :: pointed places (d.scaled places) else pointed places (d.scaled places)

/-- The text of a double with `places` digits after the point. -/
def fixed (places : Nat) (x : Float) : String :=
  if x.isFinite then String.ofList ((Dyadic.ofFloat x).fixed places) else nonFinite x

end EquityBoard.Decimal
