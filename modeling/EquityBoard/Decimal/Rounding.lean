/-!
# Rounding a quotient to a whole number

`roundDiv` rounds to the nearest whole number and leaves the exact half to a `Tie`. Main
statements: the result is within half a unit (`roundDiv_near`), and an exact half goes where the
tie says (`roundDiv_toEven`, `roundDiv_away`).
-/

namespace EquityBoard.Decimal

/-- Where a value goes that lies exactly between two neighbours. -/
inductive Tie where
  | toEven
  | away
deriving DecidableEq, Repr

/-- The whole number nearest to `num / den`. -/
def roundDiv (tie : Tie) (num den : Nat) : Nat :=
  let low := num / den
  let twice := 2 * (num % den)
  if twice < den then low
  else if den < twice then low + 1
  else match tie with
    | .toEven => if low % 2 = 0 then low else low + 1
    | .away => low + 1

/-- A rounded quotient is at most half a unit away from the exact one. -/
theorem roundDiv_near (tie : Tie) (num den : Nat) (h : 0 < den) :
    2 * (den * roundDiv tie num den) ≤ 2 * num + den ∧
      2 * num ≤ 2 * (den * roundDiv tie num den) + den := by
  have hdiv := Nat.div_add_mod num den
  have hmod := Nat.mod_lt num h
  unfold roundDiv
  simp only []
  split
  · omega
  · split
    · rw [Nat.mul_add]
      omega
    · cases tie
      · simp only []
        split
        · omega
        · rw [Nat.mul_add]
          omega
      · simp only [Nat.mul_add]
        omega

/-- Halfway between two integers the even one is taken. -/
theorem roundDiv_toEven (num den : Nat) (h : 2 * (num % den) = den) :
    roundDiv .toEven num den % 2 = 0 := by
  unfold roundDiv
  simp only [h, Nat.lt_irrefl, if_false]
  split <;> omega

/-- Halfway between two integers the greater one is taken. -/
theorem roundDiv_away (num den : Nat) (h : 2 * (num % den) = den) :
    roundDiv .away num den = num / den + 1 := by
  unfold roundDiv
  simp [h]

end EquityBoard.Decimal
