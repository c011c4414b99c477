/-!
# White space and the words between it

The white space of running text is the Unicode property of that name: twenty-five code points.
Documents and numbers have narrower notions of their own; this one is for what people type.
-/

namespace EquityBoard.Text

/-! ## The property -/

/-- Whether a character is white space. -/
def isBlank (c : Char) : Bool :=
  let n := c.toNat
  (9 ≤ n && n ≤ 13) || n == 0x20 || n == 0x85 || n == 0xA0 || n == 0x1680
    || (0x2000 ≤ n && n ≤ 0x200A) || n == 0x2028 || n == 0x2029 || n == 0x202F || n == 0x205F
    || n == 0x3000

/-! ## Trimming -/

/-- Drops white space at the front. -/
def trimStart (cs : List Char) : List Char := cs.dropWhile isBlank

/-- Drops white space at the end. -/
def trimEnd (cs : List Char) : List Char := (cs.reverse.dropWhile isBlank).reverse

/-- Drops white space at both ends. -/
def trimChars (cs : List Char) : List Char := trimEnd (trimStart cs)

/-- Drops white space at both ends of a text. -/
def trim (s : String) : String := String.ofList (trimChars s.toList)

/-! ## Cutting -/

/-- Cuts at every character that `isCut` names; the pieces are what stands between the cuts. -/
def cut (isCut : Char → Bool) : List Char → List (List Char)
  | [] => [[]]
  | c :: rest =>
    match cut isCut rest with
    | [] => [[c]]
    | piece :: pieces => if isCut c then [] :: piece :: pieces else (c :: piece) :: pieces

/-- The words of a line: its longest runs without white space. -/
def words (cs : List Char) : List (List Char) := (cut isBlank cs).filter fun w => !w.isEmpty

/-- The lines of a text without their ends; a line ends in a line feed, a carriage return before it
belongs to the end, and a last line may do without an end. -/
def lines (cs : List Char) : List (List Char) :=
  let pieces := cut (· == '\n') cs
  let terminated := pieces.dropLast.map fun piece =>
    if piece.getLast? = some '\r' then piece.dropLast else piece
  let unterminated := (pieces.getLast?.filter fun piece => !piece.isEmpty).toList
  terminated ++ unterminated

/-! ## Case of the letters A to Z -/

/-- The text with `A` to `Z` in lower case; other characters stay. -/
def lower (s : String) : String := String.ofList (s.toList.map Char.toLower)

/-- The text with `a` to `z` in upper case; other characters stay. -/
def upper (s : String) : String := String.ofList (s.toList.map Char.toUpper)

end EquityBoard.Text
