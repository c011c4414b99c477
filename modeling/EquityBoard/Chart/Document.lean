import EquityBoard.Chart.Frame

/-!
# Frames as documents

The document of a frame, its fields in a fixed order. Numbers that are not finite become null.
-/

namespace EquityBoard

/-- The document of a row. -/
def Row.toJson (r : Row) : Json :=
  .object [
    ("timestamp", .ofInt r.timestamp),
    ("values", .ofMap (r.values.filterMap fun _ v => some (.ofFloat v)))]

/-- The name of a mode in documents. -/
def Mode.toJson : Mode → Json
  | .absolute => .string "Absolute"
  | .percent => .string "Percent"

namespace Chart

/-- The document of a line. -/
def Line.toJson (line : Line) : Json :=
  .object [
    ("model_id", .string line.model),
    ("visible", .bool line.visible),
    ("end_index", .ofOption .ofNat line.endIndex?),
    ("last_value", .ofOption .ofFloat line.lastValue?),
    ("label", .string line.label),
    ("tooltip", .ofOption .string line.tooltip?)]

/-- The room right of the plot as a factor of the logo. -/
def Layout.marginFactor (l : Layout) : Float := Float.ofScientific l.marginPercent true 2

/-- The document of a layout. -/
def Layout.toJson (l : Layout) : Json :=
  .object [
    ("logo_base", .ofNat l.logoBase),
    ("logo_size", .ofNat l.logoSize),
    ("margin_factor", .ofFloat l.marginFactor),
    ("font_size", .ofNat l.fontSize),
    ("halo_radius", .ofNat l.haloRadius)]

/-- The document of the axes. -/
def Axis.toJson (a : Axis) : Json :=
  .object [
    ("time_start", .string a.timeStart),
    ("time_end", .string a.timeEnd),
    ("latest_time", .string a.latestTime),
    ("value_ticks", .ofList .string a.valueTicks)]

/-- The document of an offset. -/
def offsetToJson (offset : Int × Int) : Json := .array [.ofInt offset.1, .ofInt offset.2]

/-- The document of a body. -/
def Body.toJson : Body → Json
  | .loading => .object [("kind", .string "loading")]
  | .empty notice =>
    .object [
      ("kind", .string "empty"),
      ("message", .string emptyMessage),
      ("hint", .string notice.hint),
      ("debug_endpoints", .ofList .string notice.debugEndpoints)]
  | .series chart =>
    .object [
      ("kind", .string "series"),
      ("range", .string chart.range.label),
      ("mode", chart.mode.toJson),
      ("rows", .ofList Row.toJson chart.rows),
      ("models", .ofList .string chart.models),
      ("lines", .ofList Line.toJson chart.lines),
      ("right_margin", .ofNat chart.rightMargin),
      ("reference_line", .ofFloat (reference chart.mode)),
      ("layout", chart.layout.toJson),
      ("chip_offset", offsetToJson chart.layout.chipOffset),
      ("axis", chart.axis.toJson),
      ("animate", .bool chart.animate)]

/-- The document of a frame. -/
def Frame.toJson (f : Frame) : Json :=
  .object [("banner", .ofOption .string f.banner?), ("body", f.body.toJson)]

end Chart

end EquityBoard
