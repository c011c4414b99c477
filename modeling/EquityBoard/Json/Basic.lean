import EquityBoard.KeyMap
import EquityBoard.Decimal.Dyadic

/-!
# JSON documents

The value of a document, with the look-ups that the feeds use. A whole number that fits one of the
two 64-bit widths stays exact, every other number is a double. An object is its list of fields in
written order; `object?` is its view as a map, in which of two fields with one name the later counts.
-/

namespace EquityBoard

/-- A number of a document. -/
inductive Number where
  /-- A whole number of 64 bits, signed or not. -/
  | whole (n : Int) (fits : -0x8000000000000000 ≤ n ∧ n < 0x10000000000000000)
  | double (x : Float)

namespace Number

/-- The number as a signed 64-bit integer, if it is written as one. -/
def integer? : Number → Option Int
  | .whole n _ => if n < 0x8000000000000000 then some n else none
  | .double _ => none

/-- The double nearest to the number. -/
def toFloat : Number → Float
  | .whole n _ => Decimal.ofInteger n
  | .double x => x

end Number

/-- The value of a document. -/
inductive Json where
  | null
  | bool (b : Bool)
  | number (n : Number)
  | string (s : String)
  | array (items : List Json)
  | object (fields : List (String × Json))

namespace Json

instance : Inhabited Json := ⟨.null⟩

/-! ## Look-ups -/

/-- The items of an array. -/
def array? : Json → Option (List Json)
  | .array items => some items
  | _ => none

/-- The fields of an object as a map. -/
def object? : Json → Option (KeyMap Json)
  | .object fields => some (KeyMap.ofList fields)
  | _ => none

/-- The text of a string. -/
def string? : Json → Option String
  | .string s => some s
  | _ => none

/-- The number of a number. -/
def number? : Json → Option Number
  | .number n => some n
  | _ => none

/-- The double nearest to a number. -/
def float? (j : Json) : Option Float := j.number?.map Number.toFloat

/-- A field of an object; nothing for other documents. -/
def field? (j : Json) (name : String) : Option Json := j.object?.bind fun m => m.get? name

/-! ## Documents of plain values -/

/-- The document of an integer: exact if it fits 64 bits. -/
def ofInt (n : Int) : Json :=
  if h : -0x8000000000000000 ≤ n ∧ n < 0x10000000000000000 then .number (.whole n h)
  else .number (.double (Decimal.ofInteger n))

/-- The document of a natural number. -/
def ofNat (n : Nat) : Json := ofInt n

/-- The document of a double; one that is not finite has none and becomes null. -/
def ofFloat (x : Float) : Json := if x.isFinite then .number (.double x) else .null

/-- The document of a value that may be missing. -/
def ofOption {α : Type} (toJson : α → Json) : Option α → Json
  | none => .null
  | some a => toJson a

/-- The array of the documents of a list. -/
def ofList {α : Type} (toJson : α → Json) (l : List α) : Json := .array (l.map toJson)

mutual

/-- The document with the fields of all objects in ascending order of their names. -/
def ordered : Json → Json
  | .array items => .array (orderedItems items)
  | .object fields => .object (KeyMap.ofList (orderedFields fields)).entries
  | j => j

/-- The items of an array, each ordered. -/
def orderedItems : List Json → List Json
  | [] => []
  | item :: items => ordered item :: orderedItems items

/-- The fields of an object, each value ordered. -/
def orderedFields : List (String × Json) → List (String × Json)
  | [] => []
  | (name, item) :: fields => (name, ordered item) :: orderedFields fields

end

/-- The object of a map. -/
def ofMap (m : KeyMap Json) : Json := .object m.entries

end Json

end EquityBoard
