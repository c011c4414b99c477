import EquityBoard.Decimal.Numeral

/-!
# Checked sums and products

Sums and products are those of a fixed width. One that leaves its width stops the board
(`Overflow`); nothing wraps around. `Work` is what the board does on a state as long as nothing stops
it.
-/

namespace EquityBoard.Decimal

/-- The operation whose result left its width. -/
inductive Overflow where
  | add
  | multiply
deriving DecidableEq, Repr

/-- What the board says when it stops. -/
def Overflow.message : Overflow → String
  | .add => "attempt to add with overflow"
  | .multiply => "attempt to multiply with overflow"

/-! ## Arithmetic -/

namespace Width

variable (w : Width)

/-- The result of an operation, if it has the width. -/
def keep (operation : Overflow) (n : Int) : Except Overflow Int :=
  if w.least ≤ n ∧ n ≤ w.greatest then .ok n else .error operation

/-- A sum of the width. -/
def add (a b : Int) : Except Overflow Int := w.keep .add (a + b)

/-- A product of the width. -/
def multiply (a b : Int) : Except Overflow Int := w.keep .multiply (a * b)

variable {w} {a b : Int}

/-- An overflow is that of the operation. -/
theorem eq_of_keep_eq_error {operation overflow : Overflow} {n : Int}
    (h : w.keep operation n = .error overflow) : overflow = operation := by
  unfold keep at h
  split at h
  · cases h
  · exact (Except.error.inj h).symm

/-- Within its width a sum is exact. -/
theorem add_eq_ok (h : w.least ≤ a + b ∧ a + b ≤ w.greatest) : w.add a b = .ok (a + b) :=
  if_pos h

/-- Beyond its width a sum stops the board. -/
theorem add_eq_error (h : w.greatest < a + b) : w.add a b = .error .add :=
  if_neg (by omega)

/-- Within its width a product is exact. -/
theorem multiply_eq_ok (h : w.least ≤ a * b ∧ a * b ≤ w.greatest) : w.multiply a b = .ok (a * b) :=
  if_pos h

/-- Below its width a product stops the board. -/
theorem multiply_eq_error (h : a * b < w.least) : w.multiply a b = .error .multiply :=
  if_neg (by omega)

end Width

/-- A result that depends on another one is there if that one is. -/
theorem exists_of_bind_eq_ok {ε α β : Type} {result : Except ε α} {f : α → Except ε β} {b : β}
    (h : (result >>= f) = .ok b) : ∃ a, result = .ok a ∧ f a = .ok b := by
  cases result with
  | ok a => exact ⟨a, rfl, h⟩
  | error e => cases h

/-! ## Work -/

/-- Work on a state that an overflow may stop. What was done to the state before remains. -/
abbrev Work (σ α : Type) := ExceptT Overflow (StateM σ) α

namespace Work

variable {σ α β : Type} {work : Work σ α} {st st' : σ}

/-- What stops nothing is followed by the rest. -/
theorem run_bind_lift (done : StateM σ α) (f : α → Work σ β) (st : σ) :
    ((liftM done : Work σ α) >>= f).run.run st = (f (done.run st).1).run.run (done.run st).2 := rfl

/-- A checked result is there without a change of the state. -/
theorem run_lift_except (result : Except Overflow α) (st : σ) :
    (liftM result : Work σ α).run.run st = (result, st) := by
  cases result <;> rfl

theorem run_bind_of_ok {a : α} (h : work.run.run st = (.ok a, st')) (f : α → Work σ β) :
    (work >>= f).run.run st = (f a).run.run st' := by
  rw [ExceptT.run_bind, StateT.run_bind, h]
  rfl

/-- After an overflow nothing more is done. -/
theorem run_bind_of_error {overflow : Overflow} (h : work.run.run st = (.error overflow, st'))
    (f : α → Work σ β) : (work >>= f).run.run st = (.error overflow, st') := by
  rw [ExceptT.run_bind, StateT.run_bind, h]
  rfl

/-- What is made of a result changes neither the state nor whether there is one. -/
theorem run_bind_pure (work : Work σ α) (f : α → β) (st : σ) :
    (work >>= fun a => pure (f a)).run.run st =
      ((work.run.run st).1.map f, (work.run.run st).2) := by
  cases hrun : work.run.run st with
  | mk result st' =>
    cases result with
    | ok a => exact run_bind_of_ok hrun _
    | error overflow => exact run_bind_of_error hrun _

/-- Whatever the work gives, if nothing stops it, has a property. -/
def Ensures (work : Work σ α) (P : α → Prop) : Prop :=
  ∀ st a st', work.run.run st = (.ok a, st') → P a

theorem ensures_true (work : Work σ α) : work.Ensures fun _ => True := fun _ _ _ _ => trivial

theorem ensures_pure {P : α → Prop} {a : α} (h : P a) : (pure a : Work σ α).Ensures P := by
  rintro st a' st' hrun
  cases hrun
  exact h

/-- What stops nothing ensures what holds of its result from any state. -/
theorem ensures_lift {done : StateM σ α} {P : α → Prop} (h : ∀ st, P (done.run st).1) :
    (liftM done : Work σ α).Ensures P := by
  rintro st a st' hrun
  cases hrun
  exact h st

/-- A result that an overflow may take the place of has only to be right where there is one. -/
theorem ensures_except {result : Except Overflow α} {P : α → Prop} (h : ∀ a, result = .ok a → P a) :
    (liftM result : Work σ α).Ensures P := by
  rintro st a st' hrun
  rw [run_lift_except] at hrun
  exact h a (congrArg Prod.fst hrun)

/-- The rest may rely on what the first part ensures. -/
theorem Ensures.bind {P : α → Prop} {Q : β → Prop} (h : work.Ensures P) {f : α → Work σ β}
    (hf : ∀ a, P a → (f a).Ensures Q) : (work >>= f).Ensures Q := by
  rintro st b st'' hrun
  cases hwork : work.run.run st with
  | mk result st' =>
    cases result with
    | ok a =>
      rw [run_bind_of_ok hwork] at hrun
      exact hf a (h st a st' hwork) st' b st'' hrun
    | error overflow =>
      rw [run_bind_of_error hwork] at hrun
      cases hrun

end Work

end EquityBoard.Decimal
