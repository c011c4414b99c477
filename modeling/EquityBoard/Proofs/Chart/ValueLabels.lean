import EquityBoard.Proofs.Chart.GroupedDigits

/-!
# The form of value labels

A label in dollars is well formed whatever the value. A label in percent gets its plus sign from a
comparison with zero, and its minus sign from the bit of the sign. These agree except at the negative
zero, which has both. Main statement: `isLabel_valueLabel_iff`.
-/

namespace EquityBoard

/-! ## Signs -/

namespace Decimal

theorem Dyadic.zero_le_value_iff (d : Dyadic) :
    0 ≤ d.value ↔ d.negative = false ∨ d.mantissa = 0 := by
  have hpow : (0 : Rat) < 2 ^ d.exponent := by positivity
  unfold value
  cases d.negative with
  | false => exact iff_of_true (mul_nonneg (Nat.cast_nonneg _) hpow.le) (.inl rfl)
  | true =>
    rw [if_pos rfl, mul_nonneg_iff_of_pos_right hpow, Left.nonneg_neg_iff, Nat.cast_nonpos]
    exact (or_iff_right (by decide)).symm

theorem Dyadic.value_le_zero {d : Dyadic} (h : d.negative = true) : d.value ≤ 0 := by
  have hpow : (0 : Rat) < 2 ^ d.exponent := by positivity
  unfold value
  rw [if_pos h]
  exact mul_nonpos_of_nonpos_of_nonneg (neg_nonpos.2 (Nat.cast_nonneg _)) hpow.le

/-- The bits of the negative zero. -/
theorem toBits_eq_iff (x : Float) :
    x.toBits = 0x8000000000000000 ↔
      (Dyadic.ofFloat x).negative = true ∧ (Dyadic.ofFloat x).mantissa = 0 := by
  have hlt := x.toBits.toNat_lt
  rw [← UInt64.toNat_inj]
  show x.toBits.toNat = 0x8000000000000000 ↔ _
  simp only [Dyadic.ofFloat, Dyadic.ofBits]
  split <;> simp only [decide_eq_true_eq] <;> omega

end Decimal

namespace Chart

open Decimal
open Float.Model (UnpackedFloat)

/-- The comparison with zero is that of the value. -/
theorem isAtLeastZero_iff {x : Float} {q : Rat} (h : exactValue? x = some q) :
    isAtLeastZero x = true ↔ 0 ≤ q := by
  have hcompare : isAtLeastZero x = true ↔
      (UnpackedFloat.zero .positive).le x.toModel.unpack = true := by
    show decide ((0.0 : Float).le x = true) = true ↔ _
    rw [decide_eq_true_iff]
    exact decide_eq_true_iff
  rw [hcompare]
  unfold exactValue? at h
  cases hx : x.toModel.unpack with
  | zero s =>
    rw [hx] at h
    obtain rfl : 0 = q := Option.some.inj h
    exact iff_of_true rfl le_rfl
  | finite s m e hm =>
    rw [hx] at h
    obtain rfl := Option.some.inj h
    have hpow : (0 : Rat) < 2 ^ e := by positivity
    have hmantissa : (0 : Rat) < m := Nat.cast_pos.2 hm
    cases s with
    | positive => exact iff_of_true rfl (mul_pos hmantissa hpow).le
    | negative =>
      refine iff_of_false Bool.false_ne_true (not_le.2 ?_)
      exact mul_neg_of_neg_of_pos (neg_lt_zero.2 hmantissa) hpow
  | infinity s =>
    rw [hx] at h
    exact absurd h nofun
  | notANumber =>
    rw [hx] at h
    exact absurd h nofun

/-! ## Forms of labels -/

/-- The label of a value in percent: one sign, which is plus unless the value is negative, digits, a
point, one digit and a percent sign. The digits are those of the nearest tenth. -/
def IsPercentLabel (q : Rat) (cs : List Char) : Prop :=
  ∃ whole tenth, cs = (if 0 ≤ q then '+' else '-') :: whole ++ ['.', tenth, '%'] ∧
    whole ≠ [] ∧ (∀ c ∈ whole, isDigit c = true) ∧ isDigit tenth = true ∧ Shows whole [tenth] q

/-- The label of a value in dollars: a dollar sign, a minus sign or none, digits in groups, a point
and two digits. The digits are those of the nearest cent, and the sign is not the opposite one. -/
def IsDollarLabel (q : Rat) (cs : List Char) : Prop :=
  ∃ sign whole grouped cents, cs = '$' :: sign ++ grouped ++ '.' :: cents ∧
    (sign = [] ∧ 0 ≤ q ∨ sign = ['-'] ∧ q ≤ 0) ∧
    (∀ c ∈ whole, isDigit c = true) ∧ IsGrouped whole grouped ∧
    cents.length = 2 ∧ (∀ c ∈ cents, isDigit c = true) ∧ Shows whole cents q

/-- A text with a second sign behind the first is no label. -/
theorem not_isPercentLabel {q : Rat} {sign : Char} {cs : List Char} :
    ¬ IsPercentLabel q (sign :: '-' :: cs) := by
  rintro ⟨whole, tenth, hcs, hne, hwhole, -, -⟩
  obtain ⟨c, rest, rfl⟩ := List.exists_cons_of_ne_nil hne
  obtain rfl : '-' = c := List.head_eq_of_cons_eq (List.tail_eq_of_cons_eq hcs)
  exact absurd (hwhole '-' List.mem_cons_self) (by decide)

/-! ## Labels of finite values -/

variable {x : Float} {q : Rat}

/-- A percent label has a plus sign, a number of one decimal and a percent sign. -/
theorem toList_valueLabel_percent (hx : x.isFinite = true) :
    (valueLabel (some x) .percent).toList =
      (if isAtLeastZero x then ['+'] else []) ++ (fixed 1 x).toList ++ ['%'] := by
  have hplus : (if isAtLeastZero x then "+" else "").toList =
      if isAtLeastZero x then ['+'] else [] := by
    cases isAtLeastZero x <;> rfl
  have hpercent : "%".toList = ['%'] := rfl
  rw [valueLabel, if_pos hx, String.toList_append, String.toList_append, hplus, hpercent]

/-- A dollar label has a dollar sign and a grouped number of two decimals. -/
theorem toList_valueLabel_absolute (hx : x.isFinite = true) :
    (valueLabel (some x) .absolute).toList = '$' :: groupThousands (fixed 2 x).toList := by
  rw [valueLabel, if_pos hx, dollars, String.toList_append, String.toList_ofList,
    String.toList_ofList, List.singleton_append]

/-- A label in percent is well formed, unless it is that of the negative zero. -/
theorem isPercentLabel_iff (hx : x.isFinite = true) :
    IsPercentLabel (Dyadic.ofFloat x).value (valueLabel (some x) .percent).toList ↔
      x.toBits ≠ 0x8000000000000000 := by
  obtain ⟨d, fraction, hchars, hsign, htail, hlength, hdigit, hshows⟩ := exists_chars_eq_fixed hx 1
  obtain ⟨tenth, rfl⟩ := List.length_eq_one_iff.1 hlength
  have htenth : isDigit tenth = true := hdigit tenth (List.mem_singleton_self tenth)
  have hzero := (Dyadic.ofFloat x).zero_le_value_iff
  have hplus : isAtLeastZero x = true ↔ 0 ≤ (Dyadic.ofFloat x).value :=
    isAtLeastZero_iff (by rw [exactValue?_eq, if_pos hx])
  rw [toList_valueLabel_percent hx, hchars, PlainDecimal.chars, htail, hsign, ne_eq, toBits_eq_iff]
  by_cases hnonneg : 0 ≤ (Dyadic.ofFloat x).value
  · rw [if_pos (hplus.2 hnonneg)]
    cases hnegative : (Dyadic.ofFloat x).negative with
    | false =>
      refine iff_of_true ⟨d.whole, tenth, ?_, d.whole_ne_nil, d.isDigit_whole, htenth, hshows⟩
        fun h => Bool.false_ne_true h.1
      rw [if_pos hnonneg]
      simp
    | true =>
      -- the comparison does not tell this zero from the other one, but its text has a sign
      have hmantissa : (Dyadic.ofFloat x).mantissa = 0 :=
        (hzero.1 hnonneg).resolve_left (by rw [hnegative]; decide)
      exact iff_of_false not_isPercentLabel (not_not_intro ⟨rfl, hmantissa⟩)
  · obtain ⟨hnegative, hmantissa⟩ := not_or.1 (mt hzero.2 hnonneg)
    rw [Bool.not_eq_false] at hnegative
    rw [if_neg (mt hplus.1 hnonneg), if_pos hnegative]
    refine iff_of_true ⟨d.whole, tenth, ?_, d.whole_ne_nil, d.isDigit_whole, htenth, hshows⟩
      fun h => hmantissa h.2
    rw [if_neg hnonneg]
    simp

/-- A label in dollars is well formed. -/
theorem isDollarLabel_valueLabel (hx : x.isFinite = true) :
    IsDollarLabel (Dyadic.ofFloat x).value (valueLabel (some x) .absolute).toList := by
  obtain ⟨d, cents, hchars, hsign, htail, hlength, hdigit, hshows⟩ := exists_chars_eq_fixed hx 2
  rw [toList_valueLabel_absolute hx, hchars, groupThousands_chars, htail]
  refine ⟨d.sign, d.whole, group d.whole, cents, rfl, ?_, d.isDigit_whole,
    isGrouped_group d.whole_ne_nil, hlength, hdigit, hshows⟩
  rw [hsign]
  cases hnegative : (Dyadic.ofFloat x).negative with
  | false => exact .inl ⟨rfl, (Dyadic.zero_le_value_iff _).2 (.inl hnegative)⟩
  | true => exact .inr ⟨rfl, Dyadic.value_le_zero hnegative⟩

/-- The label of a finite value is well formed, in dollars always, and in percent if the value is not
the negative zero, and only then. -/
theorem isLabel_valueLabel_iff (h : exactValue? x = some q) :
    (IsPercentLabel q (valueLabel (some x) .percent).toList ↔ x.toBits ≠ 0x8000000000000000) ∧
    IsDollarLabel q (valueLabel (some x) .absolute).toList := by
  have hx : x.isFinite = true := by rw [← isSome_exactValue?, h, Option.isSome_some]
  rw [exactValue?_eq, if_pos hx] at h
  obtain rfl := Option.some.inj h
  exact ⟨isPercentLabel_iff hx, isDollarLabel_valueLabel hx⟩

/-- The label of a loss that is rounded up to a seventh digit. -/
theorem isLabel_valueLabel_of_carry :
    exactValue? (-999999.9990234375) = some (-1023999999 / 1024) ∧
    IsPercentLabel (-1023999999 / 1024) "-1000000.0%".toList ∧
    IsDollarLabel (-1023999999 / 1024) "$-1,000,000.00".toList := by
  have hparts : Dyadic.ofFloat (-999999.9990234375) = ⟨true, 1023999999 * 2 ^ 23, -33⟩ := by
    decide +kernel
  have hvalue : exactValue? (-999999.9990234375) = some (-1023999999 / 1024) := by
    rw [exactValue?_eq, if_pos (by decide +kernel), hparts, Dyadic.value]
    norm_num
  obtain ⟨hpercent, hdollar⟩ := isLabel_valueLabel_iff hvalue
  have hlabels : valueLabel (some (-999999.9990234375)) .percent = "-1000000.0%" ∧
      valueLabel (some (-999999.9990234375)) .absolute = "$-1,000,000.00" := by
    decide +kernel
  rw [hlabels.1] at hpercent
  rw [hlabels.2] at hdollar
  exact ⟨hvalue, hpercent.2 (by decide +kernel), hdollar⟩

/-- The negative zero has two signs in percent. -/
theorem not_isPercentLabel_of_negative_zero :
    exactValue? (-0.0) = some 0 ∧ valueLabel (some (-0.0)) .percent = "+-0.0%" ∧
      ¬ IsPercentLabel 0 (valueLabel (some (-0.0)) .percent).toList := by
  have hlabel : valueLabel (some (-0.0)) .percent = "+-0.0%" := by decide +kernel
  refine ⟨rfl, hlabel, ?_⟩
  rw [hlabel]
  exact not_isPercentLabel

end Chart

end EquityBoard
