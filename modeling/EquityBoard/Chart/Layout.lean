import EquityBoard.Decimal.Rounding

/-!
# Layout of the line ends

At the end of each line the chart draws a logo and a chip with the newest value. Their sizes follow
from the width of the viewport in four steps. All lengths are whole pixels, rounded to the nearest
with halves going up.
-/

namespace EquityBoard.Chart

open Decimal

/-- The sizes at the ends of the lines. -/
structure Layout where
  /-- The size of the logo before it is drawn at two thirds. -/
  logoBase : Nat
  /-- The room right of the plot in hundredths of the logo. -/
  marginPercent : Nat
  fontSize : Nat
deriving DecidableEq, Repr

namespace Layout

/-- The layout for a viewport of a width. -/
def forViewport (width : Nat) : Layout :=
  if width < 380 then ⟨21, 120, 11⟩
  else if width < 640 then ⟨27, 135, 12⟩
  else if width < 1024 then ⟨42, 160, 13⟩
  else ⟨44, 170, 13⟩

/-- The size of the drawn logo. -/
def logoSize (l : Layout) : Nat := roundDiv .away (2 * l.logoBase) 3

/-- The radius of the halo around the logo. -/
def haloRadius (l : Layout) : Nat := roundDiv .away (2 * l.logoBase) 9

/-- The least room right of the plot. -/
def minRightMargin (l : Layout) : Nat := max 64 (roundDiv .away (l.logoSize * l.marginPercent) 100)

/-- The width of a character of a chip. -/
def charWidth (l : Layout) : Nat := roundDiv .away (62 * l.fontSize) 100

/-- The width of a chip with a text. -/
def chipWidth (l : Layout) (label : String) : Nat := label.length * l.charWidth + 16

/-- The height of a chip. -/
def chipHeight (l : Layout) : Nat := l.fontSize + 8

/-- The distance from the end of a line to its chip. -/
def chipGap (l : Layout) : Nat := roundDiv .away (7 * l.logoSize) 10

/-- Where a chip stands, seen from the end of its line: to the right, and up by half its height. -/
def chipOffset (l : Layout) : Int × Int :=
  (l.chipGap + 8, -(roundDiv .away l.chipHeight 2 : Int))

/-- The room that a label takes right of the end of its line. -/
def extent (l : Layout) (label : String) : Nat := l.chipWidth label + l.chipGap + 10

/-- The room right of the plot, wide enough for every label. -/
def rightMargin (l : Layout) (labels : List String) : Nat :=
  (labels.map l.extent).foldl max l.minRightMargin

end Layout

end EquityBoard.Chart
