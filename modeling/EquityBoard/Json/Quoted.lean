import EquityBoard.Decimal.Numeral

/-!
# Quoted text

The strings of a document stand between double quotes, with a backslash in front of what may not
stand there itself. `encode` writes the body of a string, `scan` takes a body apart into pieces, and
`text?` gives the text of the pieces. Only `text?` looks at surrogates: an escaped character above
the basic plane is a pair of them, and a half of a pair alone has no text.
-/

namespace EquityBoard.Json.Quoted

/-! ## Writing -/

/-- The lower-case hexadecimal digit below sixteen. -/
def hexDigit (d : Nat) : Char := if d < 10 then Char.ofNat (48 + d) else Char.ofNat (87 + d)

/-- One character inside quotes: the quote, the backslash and the control characters are escaped. -/
def escape (c : Char) : List Char :=
  match c with
  | '"' => ['\\', '"']
  | '\\' => ['\\', '\\']
  | '\x08' => ['\\', 'b']
  | '\x0c' => ['\\', 'f']
  | '\n' => ['\\', 'n']
  | '\r' => ['\\', 'r']
  | '\t' => ['\\', 't']
  | c =>
    if c.toNat < 0x20 then
      ['\\', 'u', '0', '0', hexDigit (c.toNat / 16), hexDigit (c.toNat % 16)]
    else [c]

/-- The body of a string. -/
def encode (cs : List Char) : List Char := cs.flatMap escape

/-- A string with its quotes. -/
def quote (cs : List Char) : List Char := '"' :: (encode cs ++ ['"'])

/-! ## Reading -/

/-- The value of a hexadecimal digit of either case. -/
def hexValue? (c : Char) : Option Nat :=
  if '0' ≤ c ∧ c ≤ '9' then some (c.toNat - 48)
  else if 'a' ≤ c ∧ c ≤ 'f' then some (c.toNat - 87)
  else if 'A' ≤ c ∧ c ≤ 'F' then some (c.toNat - 55)
  else none

/-- The sixteen-bit unit that four hexadecimal digits write. -/
def unit? (a b c d : Char) : Option Nat := do
  let a ← hexValue? a
  let b ← hexValue? b
  let c ← hexValue? c
  let d ← hexValue? d
  return ((a * 16 + b) * 16 + c) * 16 + d

/-- The character that a one-letter escape stands for. -/
def short? : Char → Option Char
  | '"' => some '"'
  | '\\' => some '\\'
  | '/' => some '/'
  | 'b' => some '\x08'
  | 'f' => some '\x0c'
  | 'n' => some '\n'
  | 'r' => some '\r'
  | 't' => some '\t'
  | _ => none

/-- A part of a body: a character, or a sixteen-bit unit that was written in digits. -/
inductive Piece where
  | char (c : Char)
  | unit (n : Nat)

/-- Takes the pieces of a body and its closing quote off the front. Control characters must be
escaped, and an escape must be complete. -/
def scan : List Char → Option (List Piece × List Char)
  | [] => none
  | '"' :: rest => some ([], rest)
  | '\\' :: 'u' :: a :: b :: c :: d :: rest =>
    match unit? a b c d with
    | some n => (scan rest).map fun (body, rest) => (.unit n :: body, rest)
    | none => none
  | '\\' :: e :: rest =>
    match short? e with
    | some c => (scan rest).map fun (body, rest) => (.char c :: body, rest)
    | none => none
  | c :: rest =>
    if c.toNat < 0x20 ∨ c = '\\' then none
    else (scan rest).map fun (body, rest) => (.char c :: body, rest)

/-- The character of a unit outside the surrogates. -/
def ofUnit? (n : Nat) : Option Char :=
  if 0xD800 ≤ n ∧ n < 0xE000 then none else some (Char.ofNat n)

/-- The character of a pair of surrogates. -/
def ofPair? (high low : Nat) : Option Char :=
  if (0xD800 ≤ high ∧ high < 0xDC00) ∧ (0xDC00 ≤ low ∧ low < 0xE000) then
    some (Char.ofNat (0x10000 + (high - 0xD800) * 0x400 + (low - 0xDC00)))
  else none

/-- The text of a body; nothing if it holds half of a surrogate pair. -/
def text? : List Piece → Option (List Char)
  | [] => some []
  | .char c :: rest => (text? rest).map (c :: ·)
  | .unit n :: rest =>
    match ofUnit? n with
    | some c => (text? rest).map (c :: ·)
    | none =>
      match rest with
      | .unit m :: rest =>
        match ofPair? n m with
        | some c => (text? rest).map (c :: ·)
        | none => none
      | _ => none

end EquityBoard.Json.Quoted
