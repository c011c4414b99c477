import EquityBoard.Decimal.Dyadic

/-!
# Doubles that are the same number

The board compares values with `==`, for which a zero has no sign and what is not a number is not even
equal to itself. `beq_eq_true_iff` describes the comparison; so equal doubles may stand for each other
in it (`beq_congr_left`).
-/

namespace EquityBoard.Decimal

open Float.Model (UnpackedFloat)

/-- What a double is as a number: a zero has no sign. -/
def number? : UnpackedFloat → Option UnpackedFloat
  | .notANumber => none
  | .zero _ => some (.zero .positive)
  | x => some x

theorem compare_then_compare_eq_iff (e e' : Int) (m m' : Nat) :
    (compare e e').then (compare m m') = .eq ↔ e = e' ∧ m = m' := by
  rw [Ordering.then_eq_eq, Std.compare_eq_iff_eq, Std.compare_eq_iff_eq]

/-- Finite doubles of one sign are the same number if exponents and mantissas agree. -/
theorem number?_finite_iff (s : UnpackedFloat.Sign) {m m' : Nat} {e e' : Int} (hm : 0 < m)
    (hm' : 0 < m') :
    (∃ n, number? (.finite s m e hm) = some n ∧ number? (.finite s m' e' hm') = some n) ↔
      e = e' ∧ m = m' := by
  constructor
  · rintro ⟨_, ⟨⟩, ⟨⟩⟩
    exact ⟨rfl, rfl⟩
  · rintro ⟨rfl, rfl⟩
    exact ⟨_, rfl, rfl⟩

/-- Doubles compare equal exactly if they are the same number. -/
theorem compare_eq_some_eq_iff (a b : UnpackedFloat) :
    a.compare b = some .eq ↔ ∃ n, number? a = some n ∧ number? b = some n := by
  -- of two different kinds or signs one is greater, so only equal ones are left to compare
  rcases a with s | _ | s | ⟨s, m, e, hm⟩ <;> rcases b with s' | _ | s' | ⟨s', m', e', hm'⟩ <;>
    try cases s <;> try cases s'
  case finite.finite.negative.negative =>
    show some ((compare e e').then (compare m m')).swap = some .eq ↔ _
    rw [number?_finite_iff, ← compare_then_compare_eq_iff, Option.some_inj, Ordering.swap_eq_eq]
  case finite.finite.positive.positive =>
    rw [number?_finite_iff, ← compare_then_compare_eq_iff]
    exact Option.some_inj
  all_goals
    first
    | exact iff_of_true rfl ⟨_, rfl, rfl⟩
    | exact iff_of_false (by rintro ⟨⟩) (by rintro ⟨_, ⟨⟩, ⟨⟩⟩)

/-- Two doubles are equal if they are the same number. -/
theorem beq_eq_true_iff (x y : Float) :
    (x == y) = true ↔
      ∃ n, number? x.toModel.unpack = some n ∧ number? y.toModel.unpack = some n := by
  rw [← compare_eq_some_eq_iff]
  show (x.toModel.unpack.compare y.toModel.unpack == some .eq) = true ↔ _
  exact beq_iff_eq

/-- Doubles that are the same number are equal to the same doubles. -/
theorem beq_congr_left {x y : Float} (h : (x == y) = true) (z : Float) :
    (x == z) = (y == z) := by
  obtain ⟨n, hx, hy⟩ := (beq_eq_true_iff x y).1 h
  rw [Bool.eq_iff_iff, beq_eq_true_iff, beq_eq_true_iff, hx, hy]

/-- A finite double is equal to itself. -/
theorem beq_self_of_isFinite {x : Float} (h : x.isFinite = true) : (x == x) = true := by
  have hfinite : x.toModel.unpack.isFinite = true := h
  rw [beq_eq_true_iff]
  cases hx : x.toModel.unpack with
  | infinity s =>
    rw [hx] at hfinite
    cases hfinite
  | notANumber =>
    rw [hx] at hfinite
    cases hfinite
  | zero s => exact ⟨_, rfl, rfl⟩
  | finite s m e hm => exact ⟨_, rfl, rfl⟩

end EquityBoard.Decimal
