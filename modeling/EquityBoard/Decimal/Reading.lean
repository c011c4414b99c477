import EquityBoard.Decimal.Dyadic
import EquityBoard.Decimal.Numeral

/-!
# Reading decimals as doubles

A decimal is `± digits · 10 ^ power`; `toFloat` gives the double nearest to it. `float?` reads the
free notation of the feeds' numeric texts: digits with an optional point on either side, an optional
exponent, and the names of the values that are not finite in any case.
-/

namespace EquityBoard.Decimal

/-- The double nearest to `± digits · 10 ^ power`; too large a value becomes infinite. -/
def toFloat (negative : Bool) (n : Nat) (power : Int) : Float :=
  let length : Int := (digits n).length
  let magnitude :=
    if n = 0 then 0.0
    else if 310 < length + power then Float.ofBits 0x7FF0000000000000
    else if length + power < -330 then 0.0
    else if power < 0 then Float.ofScientific n true (-power).toNat
    else Float.ofScientific n false power.toNat
  if negative then -magnitude else magnitude

/-- Splits a text into its leading digits and the rest. -/
def spanDigits (cs : List Char) : List Char × List Char := cs.span isDigit

/-- Takes a sign off the front, if there is one. -/
def takeSign : List Char → Bool × List Char
  | '-' :: rest => (true, rest)
  | '+' :: rest => (false, rest)
  | cs => (false, cs)

/-- Reads the exponent that ends a decimal: nothing, or a mark, an optional sign and digits. -/
def exponent? : List Char → Option Int
  | [] => some 0
  | mark :: rest =>
    if mark = 'e' ∨ mark = 'E' then
      let (negative, rest) := takeSign rest
      match spanDigits rest with
      | ([], _) => none
      | (ds, []) => some (if negative then -(value ds : Int) else value ds)
      | _ => none
    else none

/-- Reads an unsigned decimal as its digits and the power of ten of the last one. -/
def decimal? (cs : List Char) : Option (Nat × Int) :=
  let (whole, rest) := spanDigits cs
  let (fraction, rest) := match rest with
    | '.' :: rest => spanDigits rest
    | _ => ([], rest)
  if whole.isEmpty && fraction.isEmpty then none
  else (exponent? rest).map fun e => (value (whole ++ fraction), e - fraction.length)

/-- The lower-case form of the letters `A` to `Z`; other characters stay. -/
def lowerAscii (cs : List Char) : List Char := cs.map Char.toLower

/-- The double that a text writes, if it writes one. -/
def float? (s : String) : Option Float :=
  let (negative, cs) := takeSign s.toList
  let signed (x : Float) : Float := if negative then -x else x
  match String.ofList (lowerAscii cs) with
  | "inf" | "infinity" => some (signed (Float.ofBits 0x7FF0000000000000))
  | "nan" => some (signed (Float.ofBits 0x7FF8000000000000))
  | _ => (decimal? cs).map fun (n, power) => toFloat negative n power

end EquityBoard.Decimal
