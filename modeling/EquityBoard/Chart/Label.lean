import EquityBoard.Decimal.Fixed
import EquityBoard.Series.Selection

/-!
# Value labels

The texts of values on the chart: chips at the ends of lines, ticks of the value axis and tooltips.
Dollar amounts of chips and ticks have their thousands grouped. Main statement: grouping only inserts
commas (`filter_group`).
-/

namespace EquityBoard.Chart

open Decimal

/-! ## Grouping -/

/-- Puts a comma before every third digit from the right. -/
def group : List Char → List Char
  | [] => []
  | d :: rest =>
    if rest.length % 3 = 0 ∧ rest ≠ [] then d :: ',' :: group rest else d :: group rest

/-- Groups the digits before the point of a plain decimal, behind its sign. -/
def groupThousands (cs : List Char) : List Char :=
  let (sign, rest) := match cs with
    | '-' :: rest => (['-'], rest)
    | cs => ([], cs)
  sign ++ group (rest.takeWhile (· != '.')) ++ rest.dropWhile (· != '.')

/-- Without its commas a grouped run of digits is the run. -/
theorem filter_group (ds : List Char) (h : ',' ∉ ds) : (group ds).filter (· != ',') = ds := by
  induction ds with
  | nil => rfl
  | cons d rest ih =>
    simp only [List.mem_cons, not_or] at h
    have hd : (d != ',') = true := by simpa using Ne.symm h.1
    unfold group
    split <;> simp [hd, ih h.2]

/-! ## Texts -/

/-- What stands for a value that is missing or not finite. -/
def placeholder : String := "--"

/-- A dollar amount in cents, grouped. -/
def dollars (x : Float) : String :=
  "$" ++ String.ofList (groupThousands (fixed 2 x).toList)

/-- Whether a double is at least zero; the negative zero is, and NaN is not. -/
def isAtLeastZero (x : Float) : Bool := 0.0 ≤ x

/-- The text of a chip or legend entry. -/
def valueLabel (value? : Option Float) (mode : Mode) : String :=
  match value? with
  | none => placeholder
  | some x =>
    if x.isFinite then
      match mode with
      | .percent => (if isAtLeastZero x then "+" else "") ++ fixed 1 x ++ "%"
      | .absolute => dollars x
    else placeholder

/-- The text of a tick of the value axis. -/
def tickLabel (x : Float) (mode : Mode) : String :=
  match mode with
  | .percent => fixed 1 x ++ "%"
  | .absolute => "$" ++ String.ofList (groupThousands (ofInt (round64 x)))

/-- The text of a tooltip. -/
def tooltipLabel (x : Float) (mode : Mode) : String :=
  match mode with
  | .percent => fixed 2 x ++ "%"
  | .absolute => "$" ++ fixed 2 x

/-- The value of the reference line: the starting capital in dollars, no gain in percent. -/
def reference : Mode → Float
  | .absolute => 10000.0
  | .percent => 0.0

end EquityBoard.Chart
