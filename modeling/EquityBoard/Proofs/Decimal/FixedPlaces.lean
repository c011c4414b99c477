import EquityBoard.Decimal.Fixed
import EquityBoard.Proofs.Decimal.ExactValue
import EquityBoard.Proofs.Decimal.WholeNumbers
import Mathlib

/-!
# Plain decimals with a fixed number of places

A finite value is written as a plain decimal: a minus sign if its bit of the sign is set, digits, a
point, and as many digits as were asked for. The digits are those of the value to the nearest last
place. Main statement: `exists_chars_eq_fixed`.
-/

namespace EquityBoard.Decimal

/-! ## Plain decimals -/

/-- A plain decimal: a minus sign or none, digits, and further digits behind a point, if there is
one. -/
structure PlainDecimal where
  isNegative : Bool
  whole : List Char
  fraction? : Option (List Char)
  whole_ne_nil : whole ≠ []
  isDigit_whole : ∀ c ∈ whole, isDigit c = true
  isDigit_fraction : ∀ ds ∈ fraction?, ∀ c ∈ ds, isDigit c = true

namespace PlainDecimal

/-- The sign of a plain decimal. -/
def sign (d : PlainDecimal) : List Char := if d.isNegative then ['-'] else []

/-- What stands behind the whole digits of a plain decimal. -/
def tail (d : PlainDecimal) : List Char :=
  match d.fraction? with
  | none => []
  | some ds => '.' :: ds

/-- The text of a plain decimal. -/
def chars (d : PlainDecimal) : List Char := d.sign ++ d.whole ++ d.tail

end PlainDecimal

/-- Digits on either side of a point show the magnitude of a number to the nearest last place. -/
def Shows (whole fraction : List Char) (q : Rat) : Prop :=
  abs ((value (whole ++ fraction) : Rat) / 10 ^ fraction.length - |q|) ≤
    1 / (2 * 10 ^ fraction.length)

/-! ## Rounding to the last place -/

theorem Dyadic.abs_value (d : Dyadic) : |d.value| = (d.num 0 : Rat) / d.den := by
  rw [d.value_eq, abs_div, Nat.abs_cast]
  unfold signed
  split
  · push_cast
    rw [abs_neg, Nat.abs_cast]
  · rw [Int.cast_natCast, Nat.abs_cast]

/-- Every decimal place is a factor of ten in the numerator. -/
theorem Dyadic.num_eq (d : Dyadic) (places : Nat) : d.num places = d.num 0 * 10 ^ places := by
  show d.mantissa * 10 ^ places * _ = d.mantissa * 10 ^ 0 * _ * 10 ^ places
  ring

/-- The number of last places is within half of one of the value. -/
theorem Dyadic.abs_scaled_sub_le (d : Dyadic) (places : Nat) :
    abs ((d.scaled places : Rat) / 10 ^ places - |d.value|) ≤ 1 / (2 * 10 ^ places) := by
  have hnear : 2 * (d.den * d.scaled places) ≤ 2 * d.num places + d.den ∧
      2 * d.num places ≤ 2 * (d.den * d.scaled places) + d.den :=
    roundDiv_near .toEven (d.num places) d.den d.den_pos
  rw [d.num_eq places] at hnear
  have hlow : 2 * ((d.den : Rat) * d.scaled places) ≤ 2 * (d.num 0 * 10 ^ places) + d.den := by
    exact_mod_cast hnear.1
  have hhigh : 2 * ((d.num 0 : Rat) * 10 ^ places) ≤ 2 * (d.den * d.scaled places) + d.den := by
    exact_mod_cast hnear.2
  have hden : (0 : Rat) < d.den := Nat.cast_pos.2 d.den_pos
  have hten : (0 : Rat) < 10 ^ places := by positivity
  have hdiff : (d.scaled places : Rat) / 10 ^ places - d.num 0 / d.den =
      (d.den * d.scaled places - d.num 0 * 10 ^ places) / (d.den * 10 ^ places) := by
    field_simp
  have hhalf : 1 / (2 * 10 ^ places) = (d.den / 2 : Rat) / (d.den * 10 ^ places) := by
    field_simp
  rw [d.abs_value, hdiff, hhalf, abs_div, abs_of_pos (mul_pos hden hten)]
  refine div_le_div_of_nonneg_right ?_ (mul_pos hden hten).le
  rw [abs_le]
  constructor <;> linarith

/-! ## The digits around the point -/

/-- Leading zeros do not count. -/
theorem value_replicate_append (k : Nat) (ds : List Char) :
    value (List.replicate k '0' ++ ds) = value ds := by
  have hzeros : valueFrom 0 (List.replicate k '0') = 0 := by
    induction k with
    | zero => rfl
    | succ k ih => exact ih
  rw [value, valueFrom_append, hzeros]
  rfl

/-- A number of last places is written as its digits, with as many of them behind the point as there
are places and at least one before it. -/
theorem exists_pointed_eq (places n : Nat) :
    ∃ whole fraction, pointed places n = whole ++ '.' :: fraction ∧ whole ≠ [] ∧
      fraction.length = places ∧ (∀ c ∈ whole ++ fraction, isDigit c = true) ∧
      value (whole ++ fraction) = n := by
  simp only [pointed]
  generalize hds : List.replicate (places + 1 - (digits n).length) '0' ++ digits n = ds
  have hlength : places + 1 ≤ ds.length := by
    rw [← hds, List.length_append, List.length_replicate]
    omega
  have hdigit : ∀ c ∈ ds, isDigit c = true := by
    intro c hc
    rw [← hds, List.mem_append] at hc
    rcases hc with hc | hc
    · rw [List.eq_of_mem_replicate hc]
      decide
    · exact isDigit_of_mem_digits hc
  have hvalue : value ds = n := by rw [← hds, value_replicate_append, value_digits]
  refine ⟨ds.take (ds.length - places), ds.drop (ds.length - places), rfl, ?_, ?_, ?_, ?_⟩
  · rw [ne_eq, List.take_eq_nil_iff, not_or]
    exact ⟨by omega, List.length_pos_iff.1 (by omega)⟩
  · rw [List.length_drop]
    omega
  · rwa [List.take_append_drop]
  · rwa [List.take_append_drop]

/-- A finite value is written with its sign, a point and as many places as were asked for, and the
digits show the value. -/
theorem exists_chars_eq_fixed {x : Float} (hx : x.isFinite = true) (places : Nat) :
    ∃ (d : PlainDecimal) (fraction : List Char), (fixed places x).toList = d.chars ∧
      d.sign = (if (Dyadic.ofFloat x).negative then ['-'] else []) ∧ d.tail = '.' :: fraction ∧
      fraction.length = places ∧ (∀ c ∈ fraction, isDigit c = true) ∧
      Shows d.whole fraction (Dyadic.ofFloat x).value := by
  obtain ⟨whole, fraction, hpointed, hwhole, hlength, hdigit, hvalue⟩ :=
    exists_pointed_eq places ((Dyadic.ofFloat x).scaled places)
  rw [List.forall_mem_append] at hdigit
  let d : PlainDecimal := {
    isNegative := (Dyadic.ofFloat x).negative
    whole := whole
    fraction? := some fraction
    whole_ne_nil := hwhole
    isDigit_whole := hdigit.1
    isDigit_fraction := by
      rintro _ ⟨⟩
      exact hdigit.2 }
  refine ⟨d, fraction, ?_, rfl, rfl, hlength, hdigit.2, ?_⟩
  · rw [fixed, if_pos hx, String.toList_ofList, Dyadic.fixed, hpointed]
    show _ = (if (Dyadic.ofFloat x).negative then ['-'] else []) ++ whole ++ '.' :: fraction
    cases (Dyadic.ofFloat x).negative <;> rfl
  · show Shows whole fraction _
    rw [Shows, hvalue, hlength]
    exact (Dyadic.ofFloat x).abs_scaled_sub_le places

end EquityBoard.Decimal
