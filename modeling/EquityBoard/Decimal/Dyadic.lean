import EquityBoard.Decimal.Rounding

/-!
# The exact value of a double

A finite double stands for `± mantissa · 2 ^ exponent`. `Dyadic.ofFloat` reads these parts off the
bits, and everything else here is exact arithmetic on them: rounding to whole numbers, the test for
a whole value, and the nearest 64-bit integer with the out-of-range values held at the bounds.
-/

namespace EquityBoard.Decimal

/-- A value `± mantissa · 2 ^ exponent`. -/
structure Dyadic where
  negative : Bool
  mantissa : Nat
  exponent : Int
deriving DecidableEq, Repr

namespace Dyadic

/-- The value of the bits of a finite double: one sign bit, eleven bits of exponent, and fifty-two
bits of a fraction whose leading one is left out unless the exponent is least. -/
def ofBits (bits : Nat) : Dyadic :=
  let exponent : Nat := bits / 0x10000000000000 % 0x800
  let fraction := bits % 0x10000000000000
  let negative := bits / 0x8000000000000000 % 2 = 1
  if exponent = 0 then ⟨negative, fraction, -1074⟩
  else ⟨negative, 0x10000000000000 + fraction, Int.ofNat exponent - 1075⟩

/-- The exact value of a finite double. -/
def ofFloat (x : Float) : Dyadic := ofBits x.toBits.toNat

/-- The numerator of `mantissa · 2 ^ exponent · 10 ^ places` over `den`. -/
def num (d : Dyadic) (places : Nat) : Nat := d.mantissa * Nat.pow 10 places * Nat.pow 2 d.exponent.toNat

/-- The power of two below the fraction bar. -/
def den (d : Dyadic) : Nat := Nat.pow 2 (-d.exponent).toNat

theorem den_pos (d : Dyadic) : 0 < d.den := Nat.two_pow_pos _

/-- Puts the sign of the value in front of a magnitude. -/
def signed (d : Dyadic) (magnitude : Nat) : Int :=
  if d.negative then -(magnitude : Int) else magnitude

/-- The value without its fraction. -/
def truncated (d : Dyadic) : Int := d.signed (d.num 0 / d.den)

/-- The nearest whole number, halves going away from zero. -/
def rounded (d : Dyadic) : Int := d.signed (roundDiv .away (d.num 0) d.den)

/-- Whether the value has no fraction. -/
def isWhole (d : Dyadic) : Bool := d.num 0 % d.den = 0

end Dyadic

/-! ## Sixty-four-bit integers -/

/-- The 64-bit signed integer nearest to an integer. -/
def clamp64 (n : Int) : Int := max (-0x8000000000000000) (min 0x7FFFFFFFFFFFFFFF n)

/-- An integer of 64 bits is not held at the bounds. -/
theorem clamp64_of_mem {n : Int} (low : -0x8000000000000000 ≤ n) (high : n ≤ 0x7FFFFFFFFFFFFFFF) :
    clamp64 n = n := by
  unfold clamp64
  omega

/-- Turns a double into a 64-bit integer by `whole`, with the infinities at the bounds and NaN at
zero. -/
def toInteger64 (whole : Dyadic → Int) (x : Float) : Int :=
  if x.isNaN then 0
  else if x.isInf then (if x < 0 then -0x8000000000000000 else 0x7FFFFFFFFFFFFFFF)
  else clamp64 (whole (Dyadic.ofFloat x))

/-- The 64-bit integer of a double without its fraction. -/
def truncate64 (x : Float) : Int := toInteger64 Dyadic.truncated x

/-- The 64-bit integer nearest to a double, halves going away from zero. -/
def round64 (x : Float) : Int := toInteger64 Dyadic.rounded x

/-- The double nearest to an integer. -/
def ofInteger (n : Int) : Float := Float.ofInt n

end EquityBoard.Decimal
