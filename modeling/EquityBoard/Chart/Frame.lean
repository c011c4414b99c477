import EquityBoard.Calendar
import EquityBoard.Chart.Label
import EquityBoard.Chart.Layout
import EquityBoard.Json.Basic
import EquityBoard.Series.View

/-!
# Frames

A `Frame` is what the chart shows at one time: a banner when the feed is down, and below it one of
three bodies. Frames have two texts, the lines of a summary and a document.
-/

namespace EquityBoard.Chart

/-! ## Parts -/

/-- The line of a model with the label at its end. -/
structure Line where
  model : String
  visible : Bool
  /-- The position of the newest row that has a value for the model. -/
  endIndex? : Option Nat
  lastValue? : Option Float
  label : String
  tooltip? : Option String

/-- The texts at the axes. -/
structure Axis where
  timeStart : String
  timeEnd : String
  /-- The head of the tooltip of the newest row. -/
  latestTime : String
  /-- The least value, the reference and the greatest value of the visible lines. -/
  valueTicks : List String

/-- A chart with lines. -/
structure SeriesFrame where
  range : Range
  mode : Mode
  rows : List Row
  models : List String
  lines : List Line
  rightMargin : Nat
  layout : Layout
  axis : Axis
  animate : Bool

/-- What stands in place of a chart without enough rows. -/
structure EmptyFrame where
  hint : String
  debugEndpoints : List String

/-- The body of a frame. -/
inductive Body where
  | loading
  | empty (notice : EmptyFrame)
  | series (chart : SeriesFrame)

/-- What the chart shows at one time. -/
structure Frame where
  banner? : Option String
  body : Body

/-! ## Lines and axes -/

/-- The line of a model in a view. -/
def Line.ofView (rows : List Row) (mode : Mode) (visible : Bool) (model : String) : Line :=
  let last? := EquityBoard.lastValue? rows model
  { model
    visible
    endIndex? := lastIndex? rows model
    lastValue? := last?
    label := valueLabel last? mode
    tooltip? := last?.map fun x => tooltipLabel x mode }

/-- The least and the greatest of some values and `start`. -/
def extremes (start : Float) (values : List Float) : Float × Float :=
  values.foldl (fun (lo, hi) x => (if x < lo then x else lo, if hi < x then x else hi))
    (start, start)

/-- The texts at the axes of a view; values of hidden lines do not count. -/
def Axis.ofView (rows : List Row) (lines : List Line) (mode : Mode) : Axis :=
  let visible := lines.filter (·.visible)
  let values := visible.flatMap fun line => rows.filterMap fun r => r.get? line.model
  let (lo, hi) := extremes (reference mode) values
  let first := (rows.head?.map (·.timestamp)).getD 0
  let last := (rows.getLast?.map (·.timestamp)).getD 0
  { timeStart := Calendar.axisTime first
    timeEnd := Calendar.axisTime last
    latestTime := Calendar.tooltipTime last
    valueTicks := [lo, reference mode, hi].map fun x => tickLabel x mode }

/-! ## Summary -/

/-- The banner when the feed is down. -/
def feedErrorMessage : String :=
  "Account value feed is temporarily unavailable, please retry later."

/-- The message in place of a chart. -/
def emptyMessage : String := "Not enough chart data yet (at least 2 points are needed)."

/-- Fills a text up with blanks on the right. -/
def padRight (width : Nat) (s : String) : String :=
  s ++ String.ofList (List.replicate (width - s.length) ' ')

/-- The summary of a line: a star if it is visible, the model and its newest value. -/
def Line.summary (line : Line) : String :=
  (if line.visible then "*" else " ") ++ " " ++ padRight 28 line.model ++ " " ++ line.label

/-- The lines of the summary of a body. -/
def Body.summary : Body → List String
  | .loading => ["loading account values..."]
  | .empty notice =>
    emptyMessage :: notice.hint :: notice.debugEndpoints.map fun e => "  debug: " ++ e
  | .series chart =>
    ("[" ++ chart.range.label ++ " " ++ chart.mode.symbol ++ "] "
      ++ Decimal.natText chart.rows.length ++ " rows") :: chart.lines.map Line.summary

/-- The lines of the summary of a frame. -/
def Frame.summary (f : Frame) : List String :=
  (f.banner?.map fun b => "! " ++ b).toList ++ f.body.summary

end EquityBoard.Chart
