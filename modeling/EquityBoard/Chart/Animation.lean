/-!
# Animation of the chart

Lines are animated when they are first drawn, and never again: the switch starts on, and goes off for
good with the first drawn frame or when the store has grown past a number of rows.
-/

namespace EquityBoard.Chart

/-- The number of rows up to which lines are animated. -/
def mostAnimatedRows : Nat := 50

/-- Whether the next frame is animated. -/
structure Animation where
  active : Bool := true
deriving DecidableEq, Repr

namespace Animation

/-- Takes notice that the store has grown to a number of rows. -/
def observe (a : Animation) (rows : Nat) : Animation :=
  ⟨a.active && !(mostAnimatedRows < rows)⟩

/-- Takes notice that a number of rows was drawn. -/
def rendered (a : Animation) (rows : Nat) : Animation := ⟨a.active && !(2 ≤ rows)⟩

end Animation

end EquityBoard.Chart
