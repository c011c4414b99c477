import EquityBoard.Json.Printer
import EquityBoard.Json.Reader

/-!
# Text of the models

What the models write arrives in different states: as text, as text in which line breaks are still
escaped, or as a quoted string inside a string. `normalize` turns all of them into text to display.
-/

namespace EquityBoard.Chat.Markdown

/-! ## Escapes that were left over -/

/-- Puts a character in place of every backslash with a certain letter behind it. -/
def unescape (letter replacement : Char) : List Char → List Char
  | [] => []
  | [c] => [c]
  | a :: b :: rest =>
    if a = '\\' ∧ b = letter then replacement :: unescape letter replacement rest
    else a :: unescape letter replacement (b :: rest)

/-- Whether a backslash with a certain letter behind it occurs. -/
def hasEscape (letter : Char) : List Char → Bool
  | [] => false
  | [_] => false
  | a :: b :: rest => (a == '\\' && b == letter) || hasEscape letter (b :: rest)

/-- Whether an escaped line feed, tab or carriage return occurs. -/
def hasBreakEscape (cs : List Char) : Bool :=
  hasEscape 'n' cs || hasEscape 't' cs || hasEscape 'r' cs

/-! ## Quotes -/

/-- Whether a text of at least two characters starts and ends with a double quote. -/
def isQuoted (cs : List Char) : Bool :=
  2 ≤ cs.length && cs.head? == some '"' && cs.getLast? == some '"'

/-- Takes one pair of quotes off a quoted text. -/
def unquote (cs : List Char) : List Char := if isQuoted cs then cs.tail.dropLast else cs

/-- Decodes a quoted string with escaped breaks, if it is one. -/
def decodeQuoted (cs : List Char) : List Char :=
  if isQuoted cs && hasBreakEscape cs then
    match Json.read? (String.ofList cs) with
    | some (.string s) => s.toList
    | _ => cs
  else cs

/-- The text to display. -/
def normalizeChars (cs : List Char) : List Char :=
  unquote (unescape 'r' '\r' (unescape 't' '\t' (unescape 'n' '\n' (decodeQuoted cs))))

/-- The text to display. -/
def normalize (s : String) : String := String.ofList (normalizeChars s.toList)

/-- The reasoning of a model as text: strings are normalized, nothing is an empty object, and any
other document is laid out. -/
def reasoningText : Json → String
  | .string s => normalize s
  | .null => "\x7b\x7d"
  | j => j.pretty

end EquityBoard.Chat.Markdown
