import EquityBoard.Decimal.Numeral

/-!
# Whole numbers written and read

The digits of a number have its value (`value_digits`), and reading within a bound accepts exactly
the runs of digits whose value keeps to it (`readUp_eq_ok_iff`): an intermediate value is never
greater than the last one, so a bound that the number keeps is not exceeded on the way. Main
statement: `readInteger_eq_ok_iff`, on numbers with leading zeros and an optional plus sign; for zero
the width may have no minus sign. The text of an integer tells which one it is (`ofInt_inj`).
-/

namespace EquityBoard.Decimal

/-! ## Digits -/

/-- A digit below ten is read back from its character. -/
theorem digitValue?_digitChar : ∀ d < 10, digitValue? (digitChar d) = some d := by decide

theorem isDigit_digitChar {d : Nat} (h : d < 10) : isDigit (digitChar d) = true := by
  rw [isDigit, digitValue?_digitChar d h]
  rfl

/-- The ten digits have code points in a row. -/
theorem toNat_of_isDigit {c : Char} (h : isDigit c = true) : 48 ≤ c.toNat ∧ c.toNat ≤ 57 := by
  unfold isDigit digitValue? at h
  split at h
  · rename_i hrange
    exact hrange
  · exact absurd h Bool.false_ne_true

theorem digits_ne_nil (n : Nat) : digits n ≠ [] := by
  rw [digits]
  split
  · exact List.cons_ne_nil _ _
  · exact List.append_ne_nil_of_right_ne_nil _ (List.cons_ne_nil _ _)

/-- Only digits are written for a natural number. -/
theorem isDigit_of_mem_digits {n : Nat} {c : Char} (h : c ∈ digits n) : isDigit c = true := by
  induction n using digits.induct with
  | case1 n hn =>
    rw [digits, if_pos hn, List.mem_singleton] at h
    rw [h]
    exact isDigit_digitChar hn
  | case2 n hn ih =>
    rw [digits, if_neg hn, List.mem_append, List.mem_singleton] at h
    rcases h with h | rfl
    · exact ih h
    · exact isDigit_digitChar (Nat.mod_lt n (by decide))

theorem ne_of_isDigit {c d : Char} (hc : isDigit c = true) (hd : isDigit d = false) : c ≠ d := by
  rintro rfl
  exact Bool.false_ne_true (hd.symm.trans hc)

/-- A foreign character does not stand among digits. -/
theorem not_mem_of_isDigit {d : Char} (hd : isDigit d = false) {ds : List Char}
    (hds : ∀ c ∈ ds, isDigit c = true) : d ∉ ds :=
  fun hmem => ne_of_isDigit (hds d hmem) hd rfl

theorem not_mem_digits {c : Char} (hc : isDigit c = false) (n : Nat) : c ∉ digits n :=
  not_mem_of_isDigit hc fun _ => isDigit_of_mem_digits

/-- A run of digits is read on from the value of the run before it. -/
theorem valueFrom_append (acc : Nat) (cs ds : List Char) :
    valueFrom acc (cs ++ ds) = valueFrom (valueFrom acc cs) ds :=
  List.foldl_append

/-- The digits of a number have its value. -/
theorem value_digits (n : Nat) : value (digits n) = n := by
  induction n using digits.induct with
  | case1 n hn =>
    rw [digits, if_pos hn]
    show 0 * 10 + (digitValue? (digitChar n)).getD 0 = n
    rw [digitValue?_digitChar n hn, Option.getD_some]
    omega
  | case2 n hn ih =>
    have hmod : n % 10 < 10 := Nat.mod_lt n (by decide)
    rw [digits, if_neg hn, value, valueFrom_append]
    show value (digits (n / 10)) * 10 + (digitValue? (digitChar (n % 10))).getD 0 = n
    rw [ih, digitValue?_digitChar _ hmod, Option.getD_some]
    omega

/-- The value of a run only grows with its digits. -/
theorem le_valueFrom (acc : Nat) (cs : List Char) : acc ≤ valueFrom acc cs := by
  induction cs generalizing acc with
  | nil => exact Nat.le_refl acc
  | cons c cs ih =>
    have hstep := ih (acc * 10 + (digitValue? c).getD 0)
    have hvalue : valueFrom acc (c :: cs) = valueFrom (acc * 10 + (digitValue? c).getD 0) cs := rfl
    omega

/-! ## Integers -/

theorem toList_intText (n : Int) : (intText n).toList = ofInt n := String.toList_ofList

/-- Apart from the sign only digits are written for an integer. -/
theorem not_mem_ofInt {c : Char} (hsign : c ≠ '-') (hc : isDigit c = false) (n : Int) :
    c ∉ ofInt n := by
  cases n with
  | ofNat n => exact not_mem_digits hc n
  | negSucc n => exact List.not_mem_cons_of_ne_of_not_mem hsign (not_mem_digits hc (n + 1))

/-- The digits of an integer have its absolute value; a minus sign counts nothing. -/
theorem value_ofInt (n : Int) : value (ofInt n) = n.natAbs := by
  cases n with
  | ofNat n => exact value_digits n
  | negSucc n => exact value_digits (n + 1)

/-- The minus sign tells the negative integers from the others. -/
theorem minus_mem_ofInt_iff (n : Int) : '-' ∈ ofInt n ↔ n < 0 := by
  cases n with
  | ofNat n =>
    have hdigits : '-' ∉ digits n := not_mem_digits (by decide) n
    exact iff_of_false hdigits (Int.not_lt.2 (Int.natCast_nonneg n))
  | negSucc n => exact iff_of_true List.mem_cons_self (Int.negSucc_lt_zero n)

/-- Different integers have different texts: the digits tell the absolute value, and the sign tells
on which side of zero it lies. -/
theorem ofInt_inj {m n : Int} : ofInt m = ofInt n ↔ m = n := by
  constructor
  · intro h
    have habs : m.natAbs = n.natAbs := by rw [← value_ofInt, h, value_ofInt]
    have hsign : m < 0 ↔ n < 0 := by rw [← minus_mem_ofInt_iff, h, minus_mem_ofInt_iff]
    omega
  · exact congrArg ofInt

/-! ## Reading within a bound -/

/-- Reading digits upwards gives the value of the run, if that keeps to the bound. -/
theorem readUp_eq_ok_iff {greatest n : Int} {acc : Nat} {cs : List Char}
    (h : (acc : Int) ≤ greatest) :
    readUp greatest acc cs = .ok n ↔
      (∀ c ∈ cs, isDigit c = true) ∧ n = valueFrom acc cs ∧ n ≤ greatest := by
  induction cs generalizing acc with
  | nil =>
    show Except.ok _ = .ok n ↔ _
    rw [Except.ok.injEq]
    constructor
    · rintro rfl
      exact ⟨fun c hc => absurd hc List.not_mem_nil, rfl, h⟩
    · exact fun hn => hn.2.1.symm
  | cons c cs ih =>
    rw [readUp, List.forall_mem_cons]
    cases hdigit : digitValue? c with
    | none =>
      refine iff_of_false (fun herror => by cases herror) fun hn => ?_
      rw [isDigit, hdigit] at hn
      exact Bool.false_ne_true hn.1.1
    | some d =>
      have hc : isDigit c = true := by
        rw [isDigit, hdigit]
        rfl
      have hvalue : valueFrom acc (c :: cs) = valueFrom (acc * 10 + d) cs := by
        show valueFrom (acc * 10 + (digitValue? c).getD 0) cs = _
        rw [hdigit, Option.getD_some]
      have hcast : (acc : Int) * 10 + (d : Int) = ((acc * 10 + d : Nat) : Int) := by omega
      show (if greatest < (acc : Int) * 10 + d then _ else _) = _ ↔ _
      rw [hvalue, hcast]
      by_cases hbound : greatest < ((acc * 10 + d : Nat) : Int)
      · -- the value can only grow from here
        have hle := le_valueFrom (acc * 10 + d) cs
        rw [if_pos hbound]
        refine iff_of_false (fun herror => by cases herror) fun hn => ?_
        omega
      · rw [if_neg hbound, ih (Int.not_lt.1 hbound), and_iff_right hc]

/-- Reading digits downwards gives no positive number. -/
theorem readDown_le {least acc n : Int} {cs : List Char} (h : readDown least acc cs = .ok n)
    (hacc : acc ≤ 0) : n ≤ 0 := by
  induction cs generalizing acc with
  | nil =>
    have hn : acc = n := Except.ok.inj h
    omega
  | cons c cs ih =>
    rw [readDown] at h
    cases hdigit : digitValue? c with
    | none =>
      rw [hdigit] at h
      cases h
    | some d =>
      simp only [hdigit] at h
      split at h
      · cases h
      · exact ih h (by omega)

/-! ## Numbers -/

/-- Whether a text is a run of digits with a value; leading zeros do not matter to it. -/
def IsNumeral (ds : List Char) (n : Nat) : Prop :=
  ds ≠ [] ∧ (∀ c ∈ ds, isDigit c = true) ∧ value ds = n

/-- Whether a text writes a natural number: digits, with or without a plus sign in front. -/
def Writes (cs : List Char) (n : Nat) : Prop :=
  ∃ sign ds, cs = sign ++ ds ∧ (sign = [] ∨ sign = ['+']) ∧ IsNumeral ds n

theorem writes_digits (n : Nat) : Writes (digits n) n :=
  ⟨[], digits n, rfl, .inl rfl, digits_ne_nil n, fun _ => isDigit_of_mem_digits, value_digits n⟩

/-- A numeral does not start with a foreign character. -/
theorem not_isNumeral_cons {c : Char} {ds : List Char} {n : Nat} (h : isDigit c = false) :
    ¬ IsNumeral (c :: ds) n := by
  intro hds
  have hc : isDigit c = true := hds.2.1 c List.mem_cons_self
  exact Bool.false_ne_true (h.symm.trans hc)

/-- Without a plus sign a number is written by its digits alone. -/
theorem writes_iff {cs : List Char} {n : Nat} (h : ∀ ds, cs ≠ '+' :: ds) :
    Writes cs n ↔ IsNumeral cs n := by
  constructor
  · rintro ⟨sign, ds, rfl, rfl | rfl, hds⟩
    · exact hds
    · exact absurd rfl (h ds)
  · exact fun hcs => ⟨[], cs, rfl, .inl rfl, hcs⟩

/-- After a plus sign come the digits of a number. -/
theorem writes_plus_iff {ds : List Char} {n : Nat} : Writes ('+' :: ds) n ↔ IsNumeral ds n := by
  constructor
  · rintro ⟨sign, rest, hcs, rfl | rfl, hrest⟩
    · rw [List.nil_append] at hcs
      exact absurd (hcs ▸ hrest) (not_isNumeral_cons (by decide))
    · obtain rfl : ds = rest := List.tail_eq_of_cons_eq hcs
      exact hrest
  · exact fun hds => ⟨['+'], ds, rfl, .inr rfl, hds⟩

/-- No natural number has a minus sign. -/
theorem not_writes_minus {ds : List Char} {n : Nat} : ¬ Writes ('-' :: ds) n := by
  rw [writes_iff fun _ h => absurd (List.head_eq_of_cons_eq h) (by decide)]
  exact not_isNumeral_cons (by decide)

/-- Reading accepts a number exactly if it is written and keeps to the width, except that a width
with a minus sign has other texts for zero. -/
theorem readInteger_eq_ok_iff {w : Width} {cs : List Char} {n : Nat}
    (hn : 0 < n ∨ w.isSigned = false) :
    readInteger w cs = .ok (n : Int) ↔ Writes cs n ∧ (n : Int) ≤ w.greatest := by
  have hread : ∀ ds : List Char, ds ≠ [] →
      (readUp w.greatest 0 ds = .ok (n : Int) ↔ IsNumeral ds n ∧ (n : Int) ≤ w.greatest) := by
    intro ds hds
    have hw : ((0 : Nat) : Int) ≤ w.greatest := by cases w <;> decide
    have hup : readUp w.greatest 0 ds = .ok (n : Int) ↔
        (∀ c ∈ ds, isDigit c = true) ∧ (n : Int) = valueFrom 0 ds ∧ (n : Int) ≤ w.greatest :=
      readUp_eq_ok_iff hw
    have hvalue : (n : Int) = (valueFrom 0 ds : Int) ↔ value ds = n := by
      show (n : Int) = (value ds : Int) ↔ value ds = n
      omega
    rw [hvalue, ← and_assoc] at hup
    unfold IsNumeral
    rw [and_iff_right hds]
    exact hup
  fun_cases readInteger w cs with
  | case1 =>
    have hempty : ¬ Writes [] n := by
      rw [writes_iff fun _ h => List.cons_ne_nil _ _ h.symm]
      exact fun h => h.1 rfl
    exact iff_of_false (fun h => by cases h) fun h => hempty h.1
  | case2 =>
    refine iff_of_false (fun h => by cases h) fun h => ?_
    exact (writes_plus_iff.1 h.1).1 rfl
  | case3 => exact iff_of_false (fun h => by cases h) fun h => not_writes_minus h.1
  | case4 ds hds => rw [writes_plus_iff, hread ds hds]
  | case5 ds _ hsigned =>
    -- downwards there is no positive number
    refine iff_of_false (fun h => ?_) fun h => not_writes_minus h.1
    have hle := readDown_le h (Int.le_refl 0)
    rcases hn with hn | hn
    · omega
    · exact Bool.false_ne_true (hn.symm.trans hsigned)
  | case6 => exact iff_of_false (fun h => by cases h) fun h => not_writes_minus h.1
  | case7 _ hempty _ _ hplus => rw [writes_iff hplus, hread cs hempty]

/-- Reading in a width without a minus sign gives a natural number. -/
theorem exists_of_readInteger {w : Width} (hw : w.isSigned = false) {cs : List Char} {k : Int} :
    readInteger w cs = .ok k → ∃ n : Nat, k = n := by
  have hup : ∀ ds : List Char, readUp w.greatest 0 ds = .ok k → ∃ n : Nat, k = n := by
    intro ds hds
    have hwidth : ((0 : Nat) : Int) ≤ w.greatest := by cases w <;> decide
    exact ⟨valueFrom 0 ds, ((readUp_eq_ok_iff hwidth).1 hds).2.1⟩
  fun_cases readInteger w cs with
  | case1 => exact fun h => by cases h
  | case2 => exact fun h => by cases h
  | case3 => exact fun h => by cases h
  | case4 ds => exact hup ds
  | case5 _ _ hsigned => exact absurd (hw.symm.trans hsigned) Bool.false_ne_true
  | case6 => exact fun h => by cases h
  | case7 => exact hup cs

/-- A natural number is read exactly if it is written and keeps to the width. -/
theorem natural?_eq_some_iff {w : Width} (hw : w.isSigned = false) {s : String} {n : Nat} :
    natural? w s = some n ↔ Writes s.toList n ∧ (n : Int) ≤ w.greatest := by
  have hread : natural? w s = some n ↔ readInteger w s.toList = .ok (n : Int) := by
    unfold natural? integer?
    cases hk : readInteger w s.toList with
    | error e => exact iff_of_false (fun h => by cases h) fun h => by cases h
    | ok k =>
      obtain ⟨m, rfl⟩ := exists_of_readInteger hw hk
      show some m = some n ↔ _
      rw [Option.some.injEq, Except.ok.injEq, Int.ofNat_inj]
  rw [hread, readInteger_eq_ok_iff (.inr hw)]

end EquityBoard.Decimal
