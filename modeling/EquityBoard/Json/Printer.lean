import EquityBoard.Decimal.Shortest
import EquityBoard.Json.Basic
import EquityBoard.Json.Quoted

/-!
# Writing documents

Two forms: `compact` without any white space, and `pretty` with one item or field on a line and two
spaces for each level. Both keep the order of the fields.
-/

namespace EquityBoard.Json

open Decimal

/-- Doubles in documents are positional for leading digits from `10 ^ -5` to `10 ^ 15`, and whole ones
keep a point and a zero. -/
def floatStyle : FloatStyle := ⟨.toEven, fun e => -5 ≤ e && e ≤ 15, true⟩

/-- The text of a number. -/
def writeNumber : Number → String
  | .whole n _ => intText n
  | .double x => if x.isFinite then writeFloat floatStyle x else "null"

/-- The text of a string with its quotes. -/
def writeString (s : String) : String := String.ofList (Quoted.quote s.toList)

/-! ## Compact form -/

mutual

/-- The text of a document without white space. -/
def compact : Json → String
  | .null => "null"
  | .bool b => if b then "true" else "false"
  | .number n => writeNumber n
  | .string s => writeString s
  | .array items => "[" ++ ",".intercalate (compactItems items) ++ "]"
  | .object fields => "\x7b" ++ ",".intercalate (compactFields fields) ++ "\x7d"

/-- The texts of the items of an array. -/
def compactItems : List Json → List String
  | [] => []
  | item :: items => compact item :: compactItems items

/-- The texts of the fields of an object. -/
def compactFields : List (String × Json) → List String
  | [] => []
  | (name, item) :: fields => (writeString name ++ ":" ++ compact item) :: compactFields fields

end

/-! ## Pretty form -/

/-- The spaces in front of a line. -/
def indent (level : Nat) : String := String.ofList (List.replicate (2 * level) ' ')

/-- Lays out parts on lines of their own between two brackets; without parts the brackets meet. -/
def block (level : Nat) (opening closing : String) (parts : List String) : String :=
  match parts with
  | [] => opening ++ closing
  | parts =>
    opening ++ "\n" ++ indent (level + 1)
      ++ (",\n" ++ indent (level + 1)).intercalate parts
      ++ "\n" ++ indent level ++ closing

mutual

/-- The text of a document whose first line stands at a level. -/
def prettyAt (level : Nat) : Json → String
  | .null => "null"
  | .bool b => if b then "true" else "false"
  | .number n => writeNumber n
  | .string s => writeString s
  | .array items => block level "[" "]" (prettyItems (level + 1) items)
  | .object fields => block level "\x7b" "\x7d" (prettyFields (level + 1) fields)

/-- The texts of the items of an array. -/
def prettyItems (level : Nat) : List Json → List String
  | [] => []
  | item :: items => prettyAt level item :: prettyItems level items

/-- The texts of the fields of an object. -/
def prettyFields (level : Nat) : List (String × Json) → List String
  | [] => []
  | (name, item) :: fields =>
    (writeString name ++ ": " ++ prettyAt level item) :: prettyFields level fields

end

/-- The text of a document with one item or field on a line. -/
def pretty (j : Json) : String := prettyAt 0 j

end EquityBoard.Json
