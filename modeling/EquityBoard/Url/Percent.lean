import EquityBoard.Json.Quoted

/-!
# Percent encoding

Characters that an address may not hold at some place are written as their UTF-8 bytes, each as a
percent sign and two upper-case hexadecimal digits. Which characters these are depends on the place.
-/

namespace EquityBoard.Url

/-! ## Encoding -/

/-- The upper-case hexadecimal digit below sixteen. -/
def upperHexDigit (d : Nat) : Char := if d < 10 then Char.ofNat (48 + d) else Char.ofNat (55 + d)

/-- The UTF-8 bytes of a character. -/
def utf8 (c : Char) : List Nat := (String.utf8EncodeChar c).map UInt8.toNat

/-- The encoded form of a character. -/
def encodeChar (c : Char) : List Char :=
  (utf8 c).flatMap fun b => ['%', upperHexDigit (b / 16), upperHexDigit (b % 16)]

/-- Encodes the characters of a set; other characters stay. -/
def encode (set : Char → Bool) (cs : List Char) : List Char :=
  cs.flatMap fun c => if set c then encodeChar c else [c]

/-- Control characters and everything outside ASCII. -/
def controlSet (c : Char) : Bool := c.toNat < 0x20 || 0x7E < c.toNat

/-- What is encoded in a path. -/
def pathSet (c : Char) : Bool :=
  controlSet c || c ∈ [' ', '"', '#', '<', '>', '?', '`', '\x7b', '\x7d']

/-- What is encoded in user information. -/
def userSet (c : Char) : Bool :=
  pathSet c || c ∈ ['/', ':', ';', '=', '@', '[', '\\', ']', '^', '|']

/-! ## Decoding -/

/-- The bytes of a text with its percent triples decoded; an incomplete triple stays. -/
def decodeBytes : List Char → List UInt8
  | [] => []
  | '%' :: a :: b :: rest =>
    match Json.Quoted.hexValue? a, Json.Quoted.hexValue? b with
    | some x, some y => UInt8.ofNat (16 * x + y) :: decodeBytes rest
    | _, _ => 0x25 :: decodeBytes (a :: b :: rest)
  | c :: rest => String.utf8EncodeChar c ++ decodeBytes rest

/-- The decoded text; nothing if the bytes are no UTF-8. -/
def decode? (cs : List Char) : Option (List Char) :=
  (String.fromUTF8? ⟨(decodeBytes cs).toArray⟩).map String.toList

end EquityBoard.Url
