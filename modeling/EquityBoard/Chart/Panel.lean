import EquityBoard.Chart.Animation
import EquityBoard.Chart.Frame
import EquityBoard.Chart.Legend
import EquityBoard.Series.Store

/-!
# The chart panel

The panel owns the store and everything around it that decides how the chart looks: the selection,
the legend, the animation switch, the width of the viewport and the status of the feed. Polls, clicks
and other events change it, and `frame` draws it. Drawing fills the percent bases and uses up the
animation.
-/

namespace EquityBoard.Chart

/-- How the latest poll went. -/
inductive FeedStatus where
  /-- There was no poll yet. -/
  | waiting
  | live
  | failed
deriving DecidableEq, Repr

/-- What a panel starts with. -/
structure PanelSettings where
  budget : Nat := defaultBudget
  pollSeconds : Nat := 5
  viewportWidth : Nat := 1280
  selection : Selection := ⟨.all, .absolute⟩
  /-- The addresses that are shown as long as there is no chart. -/
  debugEndpoints : List String := []

/-- The state of the chart. -/
structure Panel where
  store : Store
  selection : Selection
  legend : Legend
  animation : Animation
  viewportWidth : Nat
  status : FeedStatus
  pollSeconds : Nat
  debugEndpoints : List String

namespace Panel

/-- A panel before the first poll. -/
def new (settings : PanelSettings) : Panel where
  store := { budget := settings.budget }
  selection := settings.selection
  legend := .empty
  animation := {}
  viewportWidth := settings.viewportWidth
  status := .waiting
  pollSeconds := settings.pollSeconds
  debugEndpoints := settings.debugEndpoints

/-! ## Events -/

/-- A poll that delivered a batch. -/
def takeBatch (p : Panel) (points : List Point) (declared : List String) : Panel × MergeReport :=
  let (store, report) := p.store.merge points declared
  let animation := if 0 < report.appended then p.animation.observe store.size else p.animation
  ({ p with status := .live, store, legend := p.legend.seed store.models, animation }, report)

/-- A poll that failed. What was merged before stays. -/
def takeError (p : Panel) : Panel := { p with status := .failed }

/-- A choice of range. -/
def setRange (p : Panel) (range : Range) : Panel := { p with selection.range := range }

/-- A choice of mode. -/
def setMode (p : Panel) (mode : Mode) : Panel := { p with selection.mode := mode }

/-- A click in the legend. -/
def toggle (p : Panel) (model : String) : Panel :=
  { p with legend := p.legend.toggle model p.store.models }

/-- A new width of the viewport. -/
def resize (p : Panel) (width : Nat) : Panel := { p with viewportWidth := width }

/-- Drops the data; how it was shown stays. -/
def dispose (p : Panel) : Panel :=
  { p with store := p.store.clear, legend := .empty, status := .waiting }

/-! ## Drawing -/

/-- The banner over the chart. -/
def banner? (p : Panel) : Option String :=
  if p.status = .failed then some feedErrorMessage else none

/-- What stands in place of a chart without enough rows. -/
def emptyFrame (p : Panel) : EmptyFrame where
  hint := "Keep the board open for a few minutes; a new equity point is collected every "
    ++ Decimal.natText p.pollSeconds ++ " seconds."
  debugEndpoints := p.debugEndpoints

/-- The chart of the rows of a view. -/
def seriesFrame (p : Panel) (rows : List Row) : SeriesFrame :=
  let models := p.store.models.ids
  let layout := Layout.forViewport p.viewportWidth
  let mode := p.selection.mode
  let lines := models.map fun id => Line.ofView rows mode (p.legend.isVisible id) id
  { range := p.selection.range
    mode
    rows
    models
    lines
    rightMargin := layout.rightMargin ((lines.filter (·.visible)).map (·.label))
    layout
    axis := Axis.ofView rows lines mode
    animate := p.animation.active }

/-- Draws the chart at a time. -/
def frame (p : Panel) (now : Int) : Panel × Frame :=
  match p.status with
  | .waiting => (p, ⟨p.banner?, .loading⟩)
  | _ =>
    let (store, rows) := p.store.select p.selection now
    if rows.length < 2 then ({ p with store }, ⟨p.banner?, .empty p.emptyFrame⟩)
    else
      ({ p with store, animation := p.animation.rendered rows.length },
        ⟨p.banner?, .series (p.seriesFrame rows)⟩)

end Panel

end EquityBoard.Chart
