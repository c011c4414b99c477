import EquityBoard.Decimal.Reading
import EquityBoard.Json.Basic
import EquityBoard.Json.Written

/-!
# Reading documents

`Json.read?` gives the value of a text. Beyond the grammar it asks that no number overflows, that
escaped surrogates come in pairs, and that the nesting stays within a limit. The fields of an object
come out in ascending order of their names, one for each name.
-/

namespace EquityBoard.Json

open Decimal

/-! ## Numbers -/

/-- The value of a number: a whole number without a fraction, exponent or lost sign stays exact where
it fits 64 bits; a double too large to be finite is no value. -/
def Numeral.value? (n : Numeral) : Option Number :=
  let magnitude := value n.whole
  let exact : Option Number :=
    if n.fraction.isNone && n.exponent.isNone then
      let z : Int := if n.negative then -(magnitude : Int) else magnitude
      if n.negative && magnitude == 0 then none
      else if h : -0x8000000000000000 ≤ z ∧ z < 0x10000000000000000 then some (.whole z h)
      else none
    else none
  match exact with
  | some n => some n
  | none =>
    let fraction := n.fraction.getD []
    let exponent : Int := match n.exponent with
      | none => 0
      | some (negative, ds) => if negative then -(value ds : Int) else value ds
    let x := toFloat n.negative (value (n.whole ++ fraction)) (exponent - fraction.length)
    if x.isFinite then some (.double x) else none

/-! ## Trees -/

mutual

/-- The value of a tree. -/
def ofWritten? : Written → Option Json
  | .null => some .null
  | .bool b => some (.bool b)
  | .number n => n.value?.map .number
  | .string body => (Quoted.text? body).map fun cs => .string (String.ofList cs)
  | .array items => (itemsOfWritten? items).map .array
  | .object members =>
    (membersOfWritten? members).map fun fields => .object (KeyMap.ofList fields).entries

/-- The values of the items of an array. -/
def itemsOfWritten? : List Written → Option (List Json)
  | [] => some []
  | item :: items =>
    match ofWritten? item, itemsOfWritten? items with
    | some j, some js => some (j :: js)
    | _, _ => none

/-- The names and values of the members of an object. -/
def membersOfWritten? : List (List Quoted.Piece × Written) → Option (List (String × Json))
  | [] => some []
  | (name, item) :: members =>
    match Quoted.text? name, ofWritten? item, membersOfWritten? members with
    | some cs, some j, some js => some ((String.ofList cs, j) :: js)
    | _, _, _ => none

end

/-- How deep a document may be nested. -/
def deepest : Nat := 127

/-- The value of a text. -/
def read? (s : String) : Option Json :=
  match Written.read? s.toList with
  | some tree => if tree.depth ≤ deepest then ofWritten? tree else none
  | none => none

end EquityBoard.Json
