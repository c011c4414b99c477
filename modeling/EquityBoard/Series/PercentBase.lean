import EquityBoard.Series.ModelSet
import EquityBoard.Series.Point
import EquityBoard.Series.Selection

/-!
# Percent bases

In percent mode a value is shown relative to its model's base, the model's first value in range. The
bases are kept from view to view as long as the range stays: a model without one takes its first
value in range when it has one, and no base is ever replaced. A first value of zero is no base.
-/

namespace EquityBoard

/-- A value in percent of a base. -/
def toPercent (value base : Float) : Float := (value / base - 1.0) * 100.0

/-- The value that a percentage of a base stands for. -/
def ofPercent (percent base : Float) : Float := (percent / 100.0 + 1.0) * base

/-- The bases that were taken, and the range they were taken for. -/
structure PercentBases where
  range? : Option Range
  bases : KeyMap Float

/-- The first value of a model in a list of rows. -/
def firstValue? (rows : List Row) (model : String) : Option Float :=
  rows.findSome? fun r => r.get? model

namespace PercentBases

/-- No bases. -/
def empty : PercentBases := ⟨none, .empty⟩

instance : Inhabited PercentBases := ⟨empty⟩

/-- The base of a model. -/
def base? (b : PercentBases) (model : String) : Option Float := b.bases.get? model

/-- Whether no model has a base. -/
def isEmpty (b : PercentBases) : Bool := b.bases.isEmpty

/-- Takes the base of a model from the rows in range, unless it has one. -/
def seed (rows : List Row) (bases : KeyMap Float) (model : String) : KeyMap Float :=
  if bases.contains model then bases
  else match firstValue? rows model with
    | some first => if first == 0.0 then bases else bases.insert model first
    | none => bases

/-- The bases for a range whose rows are `rows`: those of another range are dropped, and every known
model that still lacks one takes it from the rows. -/
def ensure (b : PercentBases) (range : Range) (rows : List Row) (models : ModelSet) :
    PercentBases :=
  let kept := if b.range? = some range then b.bases else .empty
  ⟨some range, models.ids.foldl (seed rows) kept⟩

/-- The row with its values in percent; models without a base are left out. -/
def percentRow (b : PercentBases) (r : Row) : Row :=
  ⟨r.timestamp, r.values.filterMap fun model v => (b.base? model).map (toPercent v)⟩

end PercentBases

end EquityBoard
