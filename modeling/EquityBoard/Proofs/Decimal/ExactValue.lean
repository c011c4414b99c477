import EquityBoard.Decimal.Dyadic
import Mathlib

/-!
# The exact value of a double as a fraction

`exactValue?` gives the value of a finite double as Lean's own reading of the format has it, and
`exactValue?_eq` says that the parts which `Dyadic.ofFloat` takes off the bits stand for that value.
So `isWhole` decides whether the value is an integer, and `truncated` is that integer
(`Dyadic.value_eq_intCast_iff`). An integer from `2 ^ 63` to `2 ^ 64` may be moved on its way into a
double, but it does not come out below them (`exists_exactValue?_ofInteger`).
-/

namespace EquityBoard.Decimal

open Float.Model (Format UnpackedFloat totalExponent)
open Float.Model.UnpackedFloat

/-! ## Values -/

/-- The value that the format gives a double; only the infinities and NaN have none. -/
def unpackedValue? : UnpackedFloat → Option Rat
  | .zero _ => some 0
  | .finite s m e _ => some (s.apply m * 2 ^ e)
  | .infinity _ => none
  | .notANumber => none

/-- The value of a double; only the infinities and NaN have none. -/
def exactValue? (x : Float) : Option Rat := unpackedValue? x.toModel.unpack

/-- The value `± mantissa · 2 ^ exponent`. -/
def Dyadic.value (d : Dyadic) : Rat :=
  (if d.negative then -(d.mantissa : Rat) else d.mantissa) * 2 ^ d.exponent

/-- The finite doubles are those that have a value. -/
theorem isSome_exactValue? (x : Float) : (exactValue? x).isSome = x.isFinite := by
  have hfinite : x.isFinite = x.toModel.unpack.isFinite := rfl
  rw [hfinite, exactValue?]
  cases x.toModel.unpack <;> rfl

/-! ## The fields of the bits -/

section Fields

variable (b : BitVec 64)

/-- The fraction stands in the lowest 52 bits. -/
theorem toNat_unpackMantissa :
    (@unpackMantissa .binary64 b).toNat = b.toNat % 0x10000000000000 := by
  unfold unpackMantissa
  rw [BitVec.toNat_cast, BitVec.extractLsb_toNat, Nat.shiftRight_zero]
  rfl

/-- The exponent stands in the eleven bits above the fraction. -/
theorem toNat_unpackExponent :
    (@unpackExponent .binary64 b).toNat = b.toNat / 0x10000000000000 % 0x800 := by
  unfold unpackExponent
  rw [BitVec.toNat_cast, BitVec.extractLsb_toNat, Nat.shiftRight_eq_div_pow]
  rfl

/-- The sign is the highest bit. -/
theorem toNat_unpackSign :
    (@unpackSign .binary64 b).toNat = b.toNat / 0x8000000000000000 % 2 := by
  unfold unpackSign
  rw [BitVec.toNat_cast, BitVec.extractLsb_toNat, Nat.shiftRight_eq_div_pow]
  rfl

theorem toNat_implicit_append (fraction : BitVec 52) :
    (1#1 ++ fraction).toNat = 0x10000000000000 + fraction.toNat := by
  have hlt := fraction.isLt
  rw [BitVec.toNat_append, ← Nat.shiftLeft_add_eq_or_of_lt hlt]
  rfl

end Fields

/-- The value with the sign of a bit. -/
theorem apply_ofBitVec (sign : BitVec 1) (m : Nat) :
    ((Sign.ofBitVec sign).apply m : Rat) = if sign.toNat = 1 then -(m : Rat) else m := by
  have hsign : sign = 0#1 ∨ sign = 1#1 := by
    rw [← BitVec.toNat_inj, ← BitVec.toNat_inj]
    have := sign.isLt
    simp only [BitVec.toNat_ofNat]
    omega
  rcases hsign with rfl | rfl
  · simp [Sign.ofBitVec, Sign.apply]
  · simp [Sign.ofBitVec, Sign.apply]

/-- An exponent of ones alone stands for no number; otherwise the parts read off the bits stand for
the value. -/
theorem unpackedValue?_unpack (b : BitVec 64) :
    unpackedValue? (unpack .binary64 b) =
      if b.toNat / 0x10000000000000 % 0x800 = 0x7FF then none
      else some (Dyadic.ofBits b.toNat).value := by
  have hmantissa := toNat_unpackMantissa b
  have hexponent := toNat_unpackExponent b
  have hsign := toNat_unpackSign b
  have hones : @unpackExponent .binary64 b = -1#_ ↔
      b.toNat / 0x10000000000000 % 0x800 = 0x7FF := by
    rw [← hexponent, ← BitVec.toNat_inj]
    rfl
  have hleast : @unpackExponent .binary64 b = 0#_ ↔
      b.toNat / 0x10000000000000 % 0x800 = 0 := by
    rw [← hexponent, ← BitVec.toNat_inj]
    rfl
  fun_cases unpack .binary64 b
  case case1 hexp _ => exact (if_pos (hones.1 hexp)).symm
  case case2 hexp _ => exact (if_pos (hones.1 hexp)).symm
  case case3 hexp hzero hfraction =>
    have hmant : b.toNat % 0x10000000000000 = 0 := by
      rw [← hmantissa]
      exact BitVec.toNat_inj.2 hfraction
    rw [if_neg (mt hones.2 hexp)]
    simp [unpackedValue?, Dyadic.ofBits, Dyadic.value, hleast.1 hzero, hmant]
  case case4 e _ _ hexp hzero _ =>
    have he : e = ((@unpackExponent .binary64 b).toNat : Int) - 1075 := rfl
    rw [hexponent, hleast.1 hzero] at he
    rw [if_neg (mt hones.2 hexp), unpackedValue?, he, apply_ofBitVec, hsign, hmantissa]
    simp [Dyadic.ofBits, Dyadic.value, hleast.1 hzero]
  case case5 e _ _ hexp hzero =>
    have he : e = ((@unpackExponent .binary64 b).toNat : Int) - 1075 := rfl
    rw [hexponent] at he
    have happend := toNat_implicit_append (@unpackMantissa .binary64 b)
    rw [if_neg (mt hones.2 hexp), unpackedValue?, happend, he, apply_ofBitVec, hsign, hmantissa]
    simp [Dyadic.ofBits, Dyadic.value, mt hleast.2 hzero]

/-- The parts that are taken off the bits of a finite double stand for its value. -/
theorem exactValue?_eq (x : Float) :
    exactValue? x = if x.isFinite then some (Dyadic.ofFloat x).value else none := by
  have hvalue : exactValue? x = _ := unpackedValue?_unpack x.toModel.toBits.toBitVec
  have hsome := isSome_exactValue? x
  rw [hvalue] at hsome ⊢
  split at hsome
  next hones => rw [if_pos hones, if_neg (by simp [← hsome])]
  next hones =>
    rw [if_neg hones, if_pos (by simp [← hsome])]
    rfl

/-! ## Whole values -/

/-- The value as a signed quotient of natural numbers. -/
theorem Dyadic.value_eq (d : Dyadic) : d.value = (d.signed (d.num 0) : Int) / (d.den : Rat) := by
  have hpow : (2 : Rat) ^ d.exponent = 2 ^ d.exponent.toNat / 2 ^ (-d.exponent).toNat := by
    obtain ⟨k, hk | hk⟩ := d.exponent.eq_nat_or_neg
    · rw [hk]
      simp
    · rw [hk]
      simp
  unfold value signed num den
  rw [hpow]
  split
  · simp [neg_div, mul_div_assoc]
  · simp [mul_div_assoc]

/-- A quotient is an integer if the division has no remainder. -/
theorem natCast_eq_mul_iff {a b : Nat} (hb : 0 < b) (n : Int) :
    (a : Int) = n * b ↔ a % b = 0 ∧ ((a / b : Nat) : Int) = n := by
  constructor
  · intro h
    have hdvd : (b : Int) ∣ a := ⟨n, by rw [h, Int.mul_comm]⟩
    refine ⟨Nat.mod_eq_zero_of_dvd (Int.natCast_dvd_natCast.1 hdvd), ?_⟩
    rw [Int.natCast_ediv, h, Int.mul_ediv_cancel n (by omega)]
  · rintro ⟨hmod, rfl⟩
    rw [← Int.natCast_mul, Nat.div_mul_cancel (Nat.dvd_of_mod_eq_zero hmod)]

/-- The value is an integer if it has no fraction, and then it is what is left without one. -/
theorem Dyadic.value_eq_intCast_iff (d : Dyadic) (n : Int) :
    d.value = n ↔ d.isWhole = true ∧ d.truncated = n := by
  have hden : (d.den : Rat) ≠ 0 := Nat.cast_ne_zero.2 d.den_pos.ne'
  have hcast : (d.signed (d.num 0) : Rat) = n * d.den ↔ d.signed (d.num 0) = n * d.den := by
    exact_mod_cast Iff.rfl
  rw [d.value_eq, div_eq_iff hden, hcast, isWhole, decide_eq_true_iff, truncated]
  unfold signed
  split
  · rw [neg_eq_iff_eq_neg, neg_eq_iff_eq_neg, ← neg_mul, natCast_eq_mul_iff d.den_pos]
  · exact natCast_eq_mul_iff d.den_pos n

/-- A finite double becomes the integer before its fraction, held at the bounds of 64 bits. -/
theorem truncate64_of_isFinite {x : Float} (hx : x.isFinite = true) :
    truncate64 x = clamp64 (Dyadic.ofFloat x).truncated := by
  have hclass : x.isNaN = false ∧ x.isInf = false := by
    change x.toModel.unpack.isFinite = true at hx
    change x.toModel.unpack.isNaN = false ∧ x.toModel.unpack.isInf = false
    revert hx
    cases x.toModel.unpack with
    | zero s => exact fun _ => ⟨rfl, rfl⟩
    | finite s m e hm => exact fun _ => ⟨rfl, rfl⟩
    | infinity s => exact nofun
    | notANumber => exact nofun
  rw [truncate64, toInteger64, hclass.1, hclass.2]
  rfl

/-! ## Whole numbers above the signed 64-bit ones -/

theorem mantissa_shiftRight (em : ExtendedMantissa) (n : Nat) :
    (em >>> n).mantissa = em.mantissa / 2 ^ n := by
  show (n.repeat ExtendedMantissa.shiftRightOne em).mantissa = _
  induction n with
  | zero => exact (Nat.div_one em.mantissa).symm
  | succ n ih =>
    rw [Nat.repeat, ExtendedMantissa.shiftRightOne, ih, Nat.div_div_eq_div_mul, ← Nat.pow_succ]

/-- Rounding adds at most one to a mantissa. -/
theorem roundedMantissa_mem (em : ExtendedMantissa) :
    em.mantissa ≤ em.roundedMantissa ∧ em.roundedMantissa ≤ em.mantissa + 1 := by
  unfold ExtendedMantissa.roundedMantissa Accuracy.roundToNearestEven
  split <;> omega

/-- To drop bits takes their number off the logarithm. -/
theorem log2_div_two_pow (m k : Nat) : (m / 2 ^ k).log2 = m.log2 - k := by
  rw [Nat.log2_eq_log_two, Nat.log2_eq_log_two, Nat.log_div_base_pow]

/-- A mantissa of 53 bits or more is shifted to its leading 53. -/
theorem shiftToTargetExponent_of_le {m : Nat} {e : Int} (accuracy : Accuracy) (hm : 52 ≤ m.log2)
    (he : -1074 ≤ e) :
    (shiftToTargetExponent .binary64 m e accuracy).1.mantissa = m / 2 ^ (m.log2 - 52) ∧
      (shiftToTargetExponent .binary64 m e accuracy).2 = e + (m.log2 - 52 : Nat) := by
  have htarget : Format.binary64.targetExponent (totalExponent m e) = e + (m.log2 - 52 : Nat) := by
    simp only [Format.targetExponent, totalExponent, Format.mantissaBits, Format.minExponent]
    omega
  have hmantissa : (ExtendedMantissa.ofMantissaAndAccuracy m accuracy).mantissa = m := by
    unfold ExtendedMantissa.ofMantissaAndAccuracy
    split <;> rfl
  have hshift : (e + (m.log2 - 52 : Nat) - e).toNat = m.log2 - 52 := by omega
  unfold shiftToTargetExponent shiftToExponent
  simp only [htarget, hshift, mantissa_shiftRight, hmantissa, and_self]

/-- A mantissa of 53 bits or more is rounded to one of 53 bits; its leading bit stays or moves up by
one. -/
theorem exists_roundWithAccuracy_eq (s : Sign) {m : Nat} {e : Int} (accuracy : Accuracy)
    (hm : 52 ≤ m.log2) (he : -1074 ≤ e) :
    ∃ (f : Nat) (c : Int) (hf : 0 < f),
      roundWithAccuracy .binary64 s m e accuracy = .finite s f c hf ∧
        f.log2 = 52 ∧ e + m.log2 ≤ c + 52 ∧ c ≤ e + m.log2 := by
  unfold roundWithAccuracy
  obtain ⟨hfst, hsnd⟩ := shiftToTargetExponent_of_le accuracy hm he
  generalize shiftToTargetExponent .binary64 m e accuracy = first at hfst hsnd
  obtain ⟨em, e₁⟩ := first
  dsimp only at hfst hsnd ⊢
  obtain ⟨hlow, hhigh⟩ := roundedMantissa_mem em
  have hlog : em.mantissa.log2 = 52 := by
    rw [hfst, log2_div_two_pow]
    omega
  have hpos : em.mantissa ≠ 0 := fun h0 => by simp [h0] at hlog
  obtain ⟨hlow', hhigh'⟩ := (Nat.log2_eq_iff hpos).1 hlog
  have hr : em.roundedMantissa ≠ 0 := by omega
  -- the second shift is there for a mantissa that rounding has carried into a 54th bit
  have hr52 : 52 ≤ em.roundedMantissa.log2 := (Nat.le_log2 hr).2 (by omega)
  have hr54 : em.roundedMantissa.log2 < 54 := (Nat.log2_lt hr).2 (by omega)
  obtain ⟨hfst', hsnd'⟩ := shiftToTargetExponent_of_le .exact hr52 (show -1074 ≤ e₁ by omega)
  generalize shiftToTargetExponent .binary64 em.roundedMantissa e₁ .exact = second at hfst' hsnd'
  obtain ⟨em', c⟩ := second
  dsimp only at hfst' hsnd'
  have hlog' : em'.mantissa.log2 = 52 := by
    rw [hfst', log2_div_two_pow]
    omega
  have hpos' : em'.mantissa ≠ 0 := fun h0 => by simp [h0] at hlog'
  exact ⟨em'.mantissa, c, Nat.pos_of_ne_zero hpos', dif_neg hpos', hlog', by omega, by omega⟩

theorem toNat_packComponents_positive (exponent : BitVec 11) (fraction : BitVec 52) :
    (packComponents .binary64 .positive exponent fraction).toNat =
      exponent.toNat * 0x10000000000000 + fraction.toNat := by
  have hsign : (Sign.positive.toBitVec ++ exponent).toNat = exponent.toNat := by
    rw [BitVec.toNat_append, ← Nat.shiftLeft_add_eq_or_of_lt exponent.isLt]
    exact Nat.zero_add _
  unfold packComponents
  rw [BitVec.toNat_append, ← Nat.shiftLeft_add_eq_or_of_lt fraction.isLt, hsign,
    Nat.shiftLeft_eq]

/-- The bits of a positive double that is not among the least ones. -/
theorem Dyadic.ofBits_normal {exponent fraction : Nat} (hpos : 0 < exponent)
    (hexponent : exponent < 0x800) (hfraction : fraction < 0x10000000000000) :
    ofBits (exponent * 0x10000000000000 + fraction) =
      ⟨false, 0x10000000000000 + fraction, (exponent : Int) - 1075⟩ := by
  have hfirst : (exponent * 0x10000000000000 + fraction) / 0x10000000000000 % 0x800 = exponent := by
    omega
  have hrest : (exponent * 0x10000000000000 + fraction) % 0x10000000000000 = fraction := by omega
  have hsign : (exponent * 0x10000000000000 + fraction) / 0x8000000000000000 % 2 = 0 := by omega
  rw [ofBits, hfirst, hrest, hsign, if_neg (by omega)]
  rfl

/-- A mantissa of 53 bits with an exponent in range is packed into a double of that value. -/
theorem unpackedValue?_unpack_pack {f : Nat} {c : Int} (hf : 0 < f) (hlog : f.log2 = 52)
    (hlow : -1074 ≤ c) (hhigh : c ≤ 971) :
    unpackedValue? (unpack .binary64 (pack .binary64 (.finite .positive f c hf))) =
      some ((f : Rat) * 2 ^ c) := by
  obtain ⟨hlow', hhigh'⟩ := (Nat.log2_eq_iff hf.ne').1 hlog
  have hpack : pack .binary64 (.finite .positive f c hf) =
      packComponents .binary64 .positive (BitVec.ofNat 11 (c + 1075).toNat)
        (BitVec.ofNat 52 f) := by
    have hbiased : c + Format.binary64.exponentBias + Format.binary64.mantissaBitsWithoutImplicit =
        c + 1075 := by
      simp only [Format.exponentBias]
      omega
    unfold pack
    simp only [hbiased, hlog]
    rw [if_neg (by omega)]
    exact if_pos rfl
  have hbits : (pack .binary64 (.finite .positive f c hf)).toNat =
      (c + 1075).toNat * 0x10000000000000 + (f - 0x10000000000000) := by
    rw [hpack, toNat_packComponents_positive, BitVec.toNat_ofNat, BitVec.toNat_ofNat]
    omega
  have hmantissa : 0x10000000000000 + (f - 0x10000000000000) = f := by omega
  have hexponent : ((c + 1075).toNat : Int) - 1075 = c := by omega
  rw [unpackedValue?_unpack, hbits, if_neg (by omega),
    Dyadic.ofBits_normal (by omega) (by omega) (by omega), hmantissa, hexponent]
  rfl

/-- A natural number of more than 53 bits is rounded as a mantissa. -/
theorem toModel_ofNat_of_le {k : Nat} (hk : 2 ^ 53 ≤ k) :
    (Float.ofNat k).toModel.unpack = unpack .binary64 (pack .binary64
      (roundWithAccuracy .binary64 .positive (k * 2 ^ 53) (-53) .exact)) := by
  have hslow : ¬ (k < 2 ^ 53 ∧ 0 ≤ 22) := by omega
  have hround : ofScientific .binary64 k 0 =
      roundWithAccuracy .binary64 .positive (k * 2 ^ 53) (-53) .exact := by
    have hmantissa : k <<< 53 * 10 ^ (0 : Int).toNat = k * 2 ^ 53 := by
      rw [Nat.shiftLeft_eq]
      exact Nat.mul_one _
    have hnear : ¬ (0 : Int) < -(2 ^ Format.binary64.exponentBits + k.log2) := by
      have : (0 : Int) < 2 ^ Format.binary64.exponentBits := by decide
      omega
    unfold ofScientific
    rw [dif_neg (by omega), if_neg (by decide), if_neg hnear, if_pos (by decide), ← hmantissa]
    rfl
  rw [← hround]
  show (Float.ofScientific k false 0).toModel.unpack = _
  rw [Float.ofScientific, dif_neg hslow]
  rfl

/-- The double of an integer from `2 ^ 63` to `2 ^ 64` is an integer again, and not below them. -/
theorem exists_exactValue?_ofInteger {n : Int} (hlow : 0x8000000000000000 ≤ n)
    (hhigh : n < 0x10000000000000000) :
    ∃ m : Int, exactValue? (ofInteger n) = some (m : Rat) ∧ 0x8000000000000000 ≤ m := by
  obtain ⟨k, rfl⟩ := Int.eq_ofNat_of_zero_le (show 0 ≤ n by omega)
  have hlog : (k * 2 ^ 53).log2 = 116 := by
    rw [Nat.log2_eq_iff (by omega)]
    omega
  obtain ⟨f, c, hf, hround, hflog, hclow, hchigh⟩ :=
    exists_roundWithAccuracy_eq .positive (m := k * 2 ^ 53) (e := -53) .exact (by omega) (by omega)
  rw [hlog] at hclow hchigh
  obtain ⟨j, rfl⟩ := Int.eq_ofNat_of_zero_le (show 0 ≤ c by omega)
  refine ⟨f * 2 ^ j, ?_, ?_⟩
  · show unpackedValue? (Float.ofNat k).toModel.unpack = _
    rw [toModel_ofNat_of_le (by omega), hround,
      unpackedValue?_unpack_pack hf hflog (by omega) (by omega)]
    push_cast
    rw [zpow_natCast]
  · have hf52 : 2 ^ 52 ≤ f := ((Nat.log2_eq_iff hf.ne').1 hflog).1
    have hj : 2 ^ 11 ≤ 2 ^ j := Nat.pow_le_pow_right (by decide) (by omega)
    have hmul : 2 ^ 52 * 2 ^ 11 ≤ f * 2 ^ j := Nat.mul_le_mul hf52 hj
    exact_mod_cast hmul

end EquityBoard.Decimal
