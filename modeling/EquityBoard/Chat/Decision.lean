import EquityBoard.Decimal.Reading
import EquityBoard.Decimal.Shortest
import EquityBoard.Json.Basic
import EquityBoard.Text.Blank
import EquityBoard.Text.UpperCase

/-!
# Trading decisions

A model answers with an object that holds a decision for each coin. Numbers may arrive as texts.
-/

namespace EquityBoard.Chat

open Decimal

/-! ## Signals -/

/-- What to do with a coin. -/
inductive Signal where
  | hold
  | long
  | short
  | other (text : String)
deriving DecidableEq, Repr

namespace Signal

/-- The signal that a text names in either case, white space around it aside. -/
def parse (s : String) : Signal :=
  match Text.lower (Text.trim s) with
  | "hold" => .hold
  | "buy" | "long" => .long
  | "sell" | "short" => .short
  | _ => .other s

/-- The text of a signal; one that is not known stays as it came. -/
def label : Signal → String
  | .hold => "HOLD"
  | .long => "LONG"
  | .short => "SHORT"
  | .other text => text

end Signal

/-! ## Decisions -/

/-- The decision for a coin. -/
structure Decision where
  coin : String
  signal? : Option Signal
  leverage? : Option Float
  profitTarget? : Option Float
  stopLoss? : Option Float
  riskUsd? : Option Float
  invalidation? : Option String
  confidence? : Option Float
  quantity? : Option Float

/-- A number, or the number that a text writes. -/
def numeric? : Json → Option Float
  | .number n => some n.toFloat
  | .string s => float? (Text.trim s)
  | _ => none

namespace Decision

/-- The decision in a document. -/
def ofJson (coin : String) (j : Json) : Decision where
  coin
  signal? := ((j.field? "signal").bind Json.string?).map Signal.parse
  leverage? := (j.field? "leverage").bind numeric?
  profitTarget? := (j.field? "profit_target").bind numeric?
  stopLoss? := (j.field? "stop_loss").bind numeric?
  riskUsd? := (j.field? "risk_usd").bind numeric?
  invalidation? := (j.field? "invalidation_condition").bind Json.string?
  confidence? := (j.field? "confidence").bind numeric?
  quantity? := (j.field? "quantity").bind numeric?

/-- The decisions of an answer in ascending order of the coins. -/
def listOfJson (answer : Json) : List Decision :=
  match answer.object? with
  | none => []
  | some coins => coins.entries.map fun e => ofJson e.1 e.2

/-- The confidence as a whole percentage. -/
def confidenceText (confidence : Float) : String :=
  " " ++ intText (round64 (confidence * 100.0)) ++ "%"

/-- Coin, signal, confidence and quantity on one line. -/
def headline (d : Decision) : String :=
  Text.toUpperCase d.coin ++ " " ++ (d.signal?.map Signal.label).getD "--"
    ++ (d.confidence?.map confidenceText).getD ""
    ++ " qty=" ++ (d.quantity?.map (writeFloat plainStyle)).getD "--"

end Decision

end EquityBoard.Chat
