import EquityBoard.Decimal.Dyadic
import EquityBoard.Decimal.Numeral
import EquityBoard.Text.Blank

/-!
# What the chart shows

A `Selection` is a `Range` of time and a `Mode` of values. Ranges are written `ALL` or as a whole
number of hours with the letter `H`; windows that leave 64 bits of milliseconds are refused when they
are read and held at the bound when they are configured.
-/

namespace EquityBoard

/-- The stretch of time that is shown. -/
inductive Range where
  | all
  | trailing (window : Int)
deriving DecidableEq, Repr

/-- How values are shown: in dollars, or in percent of the first value in range. -/
inductive Mode where
  | absolute
  | percent
deriving DecidableEq, Repr

namespace Range

/-- The milliseconds of an hour. -/
def hour : Int := 3600000

/-- The window of a configured number of hours; a negative number counts as none. -/
def trailingHours (hours : Int) : Range := .trailing (Decimal.clamp64 (max hours 0 * hour))

/-- The range that an upper-case text without outer white space names. -/
def ofUpper? (cs : List Char) : Option Range :=
  if cs = ['A', 'L', 'L'] then some .all
  else if cs.getLast? = some 'H' then
    match (Decimal.readInteger .signed64 cs.dropLast).toOption with
    | some hours =>
      if 0 < hours ∧ hours * hour ≤ 0x7FFFFFFFFFFFFFFF then some (.trailing (hours * hour)) else none
    | none => none
  else none

/-- The range that a text names in either case, white space around it aside. -/
def parse? (s : String) : Option Range :=
  ofUpper? ((Text.trimChars s.toList).map Char.toUpper)

/-- The name of a range, in full hours. -/
def label : Range → String
  | .all => "ALL"
  | .trailing window => Decimal.intText (window.tdiv hour) ++ "H"

/-- The earliest time in range at `now`. -/
def cutoff? (r : Range) (now : Int) : Option Int :=
  match r with
  | .all => none
  | .trailing window => some (Decimal.clamp64 (now - window))

end Range

namespace Mode

/-- The mode that a text names in either case, white space around it aside. -/
def parse? (s : String) : Option Mode :=
  match Text.lower (Text.trim s) with
  | "$" | "abs" | "absolute" | "usd" => some .absolute
  | "%" | "pct" | "percent" => some .percent
  | _ => none

/-- The sign of a mode. -/
def symbol : Mode → String
  | .absolute => "$"
  | .percent => "%"

end Mode

/-- What is shown. -/
structure Selection where
  range : Range
  mode : Mode
deriving DecidableEq, Repr

end EquityBoard
