import EquityBoard.Decimal.Checked

/-!
# Dates and times of day

Instants are milliseconds from the start of 1970 in the Gregorian calendar, which is extended in both
directions, without a time zone. Four hundred years are 146097 days; a year of the day count starts in
March, so that the leap day is its last day. Only instants between `earliest` and `latest` have a
date.
-/

namespace EquityBoard.Calendar

/-! ## Dates -/

/-- A date with a time of day. -/
structure DateTime where
  year : Int
  month : Nat
  day : Nat
  hour : Nat
  minute : Nat
  second : Nat
deriving DecidableEq, Repr

/-- The first instant that has a date. -/
def earliest : Int := -8334601228800000

/-- The last instant that has a date. -/
def latest : Int := 8210266876799999

/-- The days from the first of March of the year 0 to the start of 1970. -/
def epoch : Int := 719468

/-- The year of a cycle of four hundred, counted from March, of a day of the cycle. -/
def yearOfCycle (day : Nat) : Nat :=
  (day - day / 1460 + day / 36524 - day / 146096) / 365

/-- The date of a day, counted from the start of 1970: year, month and day. -/
def date (day : Int) : Int × Nat × Nat :=
  let shifted := day + epoch
  let cycle := shifted / 146097
  let dayOfCycle := (shifted % 146097).toNat
  let year := yearOfCycle dayOfCycle
  let dayOfYear := dayOfCycle - (365 * year + year / 4 - year / 100)
  let march := (5 * dayOfYear + 2) / 153
  let dayOfMonth := dayOfYear - (153 * march + 2) / 5 + 1
  let month := if march < 10 then march + 3 else march - 9
  (cycle * 400 + year + (if month ≤ 2 then 1 else 0), month, dayOfMonth)

/-- The date and time of day of an instant. -/
def ofMillis? (ms : Int) : Option DateTime :=
  if earliest ≤ ms ∧ ms ≤ latest then
    let (year, month, day) := date (ms / 86400000)
    let second := (ms % 86400000).toNat / 1000
    some ⟨year, month, day, second / 3600, second / 60 % 60, second % 60⟩
  else none

/-! ## Texts -/

/-- The digits of a number, filled up with zeros on the left. -/
def padded (width : Nat) (n : Nat) : List Char :=
  let ds := Decimal.digits n
  List.replicate (width - ds.length) '0' ++ ds

/-- A year of four digits; years that need more, or lie before the year 0, have a sign. -/
def yearText (year : Int) : List Char :=
  if year < 0 then '-' :: padded 4 year.natAbs
  else if 9999 < year then '+' :: padded 4 year.toNat
  else padded 4 year.toNat

namespace DateTime

/-- Hours and minutes. -/
def clock (t : DateTime) : List Char := padded 2 t.hour ++ ':' :: padded 2 t.minute

/-- Month and day with a sign between them. -/
def monthDay (separator : Char) (t : DateTime) : List Char :=
  padded 2 t.month ++ separator :: padded 2 t.day

end DateTime

/-- The text of an instant; instants without a date have an empty one. -/
def text (write : DateTime → List Char) (ms : Int) : String :=
  match ofMillis? ms with
  | some t => String.ofList (write t)
  | none => ""

/-- Month, day, hours and minutes, for a time axis. -/
def axisTime (ms : Int) : String := text (fun t => t.monthDay '-' ++ ' ' :: t.clock) ms

/-- Year, month, day, hours and minutes, for the head of a tooltip. -/
def tooltipTime (ms : Int) : String :=
  text (fun t => yearText t.year ++ '-' :: t.monthDay '-' ++ ' ' :: t.clock) ms

/-- The instant of a time stamp in seconds or milliseconds: up to `10 ^ 12` it counts seconds, which
become milliseconds in 64 bits. -/
def instant (ts : Int) : Except Decimal.Overflow Int :=
  if 1000000000000 < ts then .ok ts else Decimal.Width.signed64.multiply ts 1000

/-- Month, day, hours, minutes and seconds, for a card. -/
def cardText (ms : Int) : String :=
  text (fun t => t.monthDay '/' ++ ' ' :: t.clock ++ ':' :: padded 2 t.second) ms

/-- The text of a time stamp on a card; zero is no time stamp. -/
def cardTime (ts : Int) : Except Decimal.Overflow String :=
  if ts = 0 then .ok "" else cardText <$> instant ts

end EquityBoard.Calendar
