import EquityBoard.Series.PercentBase

/-!
# Views of the rows

A view restricts the rows to a range, shows them in a mode and, for a trailing window, thins them to
a budget. Thinning keeps every `stride`-th row from the first on, and the last.
-/

namespace EquityBoard

/-! ## Thinning -/

/-- Skips `wait` items, keeps one, and goes on with `step - 1` to skip before each further one. -/
def everyNth {α : Type} (step : Nat) : Nat → List α → List α
  | _, [] => []
  | 0, x :: xs => x :: everyNth step (step - 1) xs
  | wait + 1, _ :: xs => everyNth step wait xs

/-- The distance of the kept rows: the least one that meets the budget without the last row. -/
def stride (length budget : Nat) : Nat := (length + budget - 1) / budget

/-- Thins a list to about `budget` items, first and last included; a budget of zero is none. -/
def downsample {α : Type} (l : List α) (budget : Nat) : List α :=
  if budget = 0 ∨ l.length ≤ budget then l
  else
    let s := stride l.length budget
    everyNth s 0 l ++ (if (l.length - 1) % s = 0 then [] else l.getLast?.toList)

/-! ## Selection -/

/-- The rows of a range, given the rows in ascending order of time. -/
def inRange (rows : List Row) (range : Range) (now : Int) : List Row :=
  match range.cutoff? now with
  | none => rows
  | some cutoff => rows.dropWhile fun r => r.timestamp < cutoff

/-- Thins the rows of a trailing window. -/
def thin (rows : List Row) (range : Range) (budget : Nat) : List Row :=
  match range with
  | .all => rows
  | .trailing _ => downsample rows budget

/-- The rows to show, and the percent bases afterwards. A view in dollars drops the bases. -/
def selectView (rows : List Row) (models : ModelSet) (selection : Selection) (now : Int)
    (bases : PercentBases) (budget : Nat) : List Row × PercentBases :=
  let filtered := inRange rows selection.range now
  match selection.mode with
  | .absolute => (thin filtered selection.range budget, .empty)
  | .percent =>
    let bases := bases.ensure selection.range filtered models
    (thin (filtered.map bases.percentRow) selection.range budget, bases)

/-! ## Ends of lines -/

/-- The newest value of a model in a view. -/
def lastValue? (rows : List Row) (model : String) : Option Float :=
  rows.reverse.findSome? fun r => r.get? model

/-- The position of the newest row of a view that has a value for a model. -/
def lastIndex? (rows : List Row) (model : String) : Option Nat :=
  (rows.reverse.findIdx? fun r => r.values.contains model).map fun i => rows.length - 1 - i

end EquityBoard
