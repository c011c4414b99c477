import EquityBoard.Json.Quoted

/-!
# Documents as written

A `Written` is the tree of a document before its parts have values: numbers are their digits and
strings their pieces. Every text of the grammar has one, however large its numbers and however deep
its nesting; what the parts mean, and whether they mean anything, is a later question. So a reader
that skips a field checks no more than the grammar.
-/

namespace EquityBoard.Json

/-- The parts of a number. -/
structure Numeral where
  negative : Bool
  whole : List Char
  fraction : Option (List Char)
  /-- Whether the exponent has a minus sign, and its digits. -/
  exponent : Option (Bool × List Char)

/-- The tree of a document as written. -/
inductive Written where
  | null
  | bool (b : Bool)
  | number (n : Numeral)
  | string (body : List Quoted.Piece)
  | array (items : List Written)
  | object (members : List (List Quoted.Piece × Written))

namespace Written

open Decimal

/-! ## The grammar -/

/-- Drops the white space of documents: space, tab, line feed and carriage return. -/
def skipBlanks (cs : List Char) : List Char :=
  cs.dropWhile fun c => c == ' ' || c == '\t' || c == '\n' || c == '\r'

/-- The digits of a whole part: a zero alone, or digits that start with another one. -/
def readWhole (cs : List Char) : Option (List Char × List Char) :=
  match cs.span isDigit with
  | ([], _) => none
  | ('0' :: _ :: _, _) => none
  | (ds, rest) => some (ds, rest)

/-- A fraction: a point and at least one digit, or nothing. -/
def readFraction : List Char → Option (Option (List Char) × List Char)
  | '.' :: rest =>
    match rest.span isDigit with
    | ([], _) => none
    | (ds, rest) => some (some ds, rest)
  | cs => some (none, cs)

/-- The digits of an exponent after its mark and sign. -/
def readExponentDigits (negative : Bool) (cs : List Char) :
    Option (Option (Bool × List Char) × List Char) :=
  match cs.span isDigit with
  | ([], _) => none
  | (ds, rest) => some (some (negative, ds), rest)

/-- An exponent: a mark, an optional sign and at least one digit, or nothing. -/
def readExponent : List Char → Option (Option (Bool × List Char) × List Char)
  | mark :: rest =>
    if mark = 'e' ∨ mark = 'E' then
      match rest with
      | '-' :: rest => readExponentDigits true rest
      | '+' :: rest => readExponentDigits false rest
      | rest => readExponentDigits false rest
    else some (none, mark :: rest)
  | [] => some (none, [])

/-- A number. -/
def readNumeral (cs : List Char) : Option (Numeral × List Char) := do
  let (negative, cs) := match cs with
    | '-' :: rest => (true, rest)
    | cs => (false, cs)
  let (whole, cs) ← readWhole cs
  let (fraction, cs) ← readFraction cs
  let (exponent, cs) ← readExponent cs
  return (⟨negative, whole, fraction, exponent⟩, cs)

mutual

/-- A value with white space before it. -/
def readValue : Nat → List Char → Option (Written × List Char)
  | 0, _ => none
  | fuel + 1, cs =>
    match skipBlanks cs with
    | 'n' :: 'u' :: 'l' :: 'l' :: rest => some (.null, rest)
    | 't' :: 'r' :: 'u' :: 'e' :: rest => some (.bool true, rest)
    | 'f' :: 'a' :: 'l' :: 's' :: 'e' :: rest => some (.bool false, rest)
    | '"' :: rest => (Quoted.scan rest).map fun (body, rest) => (.string body, rest)
    | '[' :: rest =>
      match skipBlanks rest with
      | ']' :: rest => some (.array [], rest)
      | rest => (readItems fuel rest).map fun (items, rest) => (.array items, rest)
    | '{' :: rest =>
      match skipBlanks rest with
      | '}' :: rest => some (.object [], rest)
      | rest => (readMembers fuel rest).map fun (members, rest) => (.object members, rest)
    | rest => (readNumeral rest).map fun (n, rest) => (.number n, rest)

/-- At least one item, with commas between the items, up to the closing bracket. -/
def readItems : Nat → List Char → Option (List Written × List Char)
  | 0, _ => none
  | fuel + 1, cs =>
    match readValue fuel cs with
    | none => none
    | some (item, rest) =>
      match skipBlanks rest with
      | ',' :: rest => (readItems fuel rest).map fun (items, rest) => (item :: items, rest)
      | ']' :: rest => some ([item], rest)
      | _ => none

/-- At least one member, with commas between the members, up to the closing brace. -/
def readMembers : Nat → List Char → Option (List (List Quoted.Piece × Written) × List Char)
  | 0, _ => none
  | fuel + 1, cs =>
    match skipBlanks cs with
    | '"' :: rest =>
      match Quoted.scan rest with
      | none => none
      | some (name, rest) =>
        match skipBlanks rest with
        | ':' :: rest =>
          match readValue fuel rest with
          | none => none
          | some (item, rest) =>
            match skipBlanks rest with
            | ',' :: rest =>
              (readMembers fuel rest).map fun (members, rest) => ((name, item) :: members, rest)
            | '}' :: rest => some ([(name, item)], rest)
            | _ => none
        | _ => none
    | _ => none

end

/-- The tree of a whole text; two steps of fuel for each character are always enough. -/
def read? (cs : List Char) : Option Written :=
  match readValue (2 * cs.length + 2) cs with
  | some (tree, rest) => if (skipBlanks rest).isEmpty then some tree else none
  | none => none

/-! ## Nesting -/

mutual

/-- How many arrays and objects stand around the innermost value. -/
def depth : Written → Nat
  | .array items => depthItems items + 1
  | .object members => depthMembers members + 1
  | _ => 0

/-- The greatest depth of a list of items. -/
def depthItems : List Written → Nat
  | [] => 0
  | item :: items => max (depth item) (depthItems items)

/-- The greatest depth of a list of members. -/
def depthMembers : List (List Quoted.Piece × Written) → Nat
  | [] => 0
  | (_, item) :: members => max (depth item) (depthMembers members)

end

end Written

end EquityBoard.Json
