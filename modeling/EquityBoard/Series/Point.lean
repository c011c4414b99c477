import EquityBoard.Json.Basic

/-!
# Points and rows

A `Point` is one sample as the feed delivers it: a time in milliseconds and the account values that
some models have at that time. A `Row` is what the board keeps of the points of one time. A model
without a value in a row has no new value there; that is never zero.
-/

namespace EquityBoard

open Decimal

/-- One sample of the feed. -/
structure Point where
  timestamp : Int
  values : KeyMap Float

/-- What is known for one time; the values are finite. -/
structure Row where
  timestamp : Int
  values : KeyMap Float

/-- The value, if it is finite. -/
def finite? (x : Float) : Option Float := if x.isFinite then some x else none

/-! ## Points of the wire -/

/-- A time stamp on the wire: an integer of 64 bits, or a double without a fraction, which is held at
the bounds of 64 bits. -/
def Number.timestamp? : Number → Option Int
  | n => match n.integer? with
    | some t => some t
    | none =>
      let x := n.toFloat
      if x.isFinite && (Dyadic.ofFloat x).isWhole then some (truncate64 x) else none

namespace Point

/-- The point of an object: its `timestamp` is the time, and every other field with a finite number
is the value of the model of that name. -/
def ofJson? (j : Json) : Option Point :=
  match j.object? with
  | none => none
  | some fields =>
    match (fields.get? "timestamp").bind fun t => t.number?.bind Number.timestamp? with
    | none => none
    | some timestamp =>
      some ⟨timestamp, (fields.erase "timestamp").filterMap fun _ v => v.float?.bind finite?⟩

/-- The finite values of a point. -/
def finiteValues (p : Point) : KeyMap Float := p.values.filterMap fun _ v => finite? v

/-- The finite values of a point are its values without the others. -/
theorem get?_finiteValues (p : Point) (model : String) :
    p.finiteValues.get? model = (p.values.get? model).filter Float.isFinite := by
  rw [finiteValues, KeyMap.get?_filterMap]
  cases p.values.get? model with
  | none => rfl
  | some x => simp only [Option.bind_some, Option.filter_some, finite?]

end Point

/-! ## Rows -/

namespace Row

/-- The value of a model at the time of the row. -/
def get? (r : Row) (model : String) : Option Float := r.values.get? model

/-- The row of a point alone. -/
def ofPoint (p : Point) : Row := ⟨p.timestamp, p.finiteValues⟩

/-- The row with the values of the point laid over its own. -/
def overlay (r : Row) (p : Point) : Row := ⟨r.timestamp, r.values.overlay p.finiteValues⟩

/-- Whether a point tells the row anything: a value for a new model, or a number that differs from
the one in the row. -/
def isChangedBy (r : Row) (p : Point) : Bool :=
  p.finiteValues.entries.any fun e =>
    match r.get? e.1 with
    | some old => !(old == e.2)
    | none => true

@[simp] theorem timestamp_ofPoint (p : Point) : (ofPoint p).timestamp = p.timestamp := rfl

@[simp] theorem timestamp_overlay (r : Row) (p : Point) :
    (r.overlay p).timestamp = r.timestamp := rfl

@[simp] theorem get?_ofPoint (p : Point) (model : String) :
    (ofPoint p).get? model = (p.values.get? model).bind finite? := by
  simp [ofPoint, get?, Point.finiteValues]

/-- A finite value of the point replaces that of the row. -/
@[simp] theorem get?_overlay (r : Row) (p : Point) (model : String) :
    (r.overlay p).get? model = ((p.values.get? model).bind finite?).or (r.get? model) := by
  simp [overlay, get?, Point.finiteValues]

end Row

end EquityBoard
