/-!
# The 256-bit secure hash

The digest of a byte string: the message is padded to blocks of sixty-four bytes, each block is spread
to sixty-four words, and eight words of state are mixed with them round by round.
-/

namespace EquityBoard.Sha256

/-! ## Constants -/

/-- The words that the rounds add: the fractions of the cube roots of the first primes. -/
def roundConstants : List UInt32 := [
  0x428a2f98, 0x71374491, 0xb5c0fbcf, 0xe9b5dba5, 0x3956c25b, 0x59f111f1, 0x923f82a4, 0xab1c5ed5,
  0xd807aa98, 0x12835b01, 0x243185be, 0x550c7dc3, 0x72be5d74, 0x80deb1fe, 0x9bdc06a7, 0xc19bf174,
  0xe49b69c1, 0xefbe4786, 0x0fc19dc6, 0x240ca1cc, 0x2de92c6f, 0x4a7484aa, 0x5cb0a9dc, 0x76f988da,
  0x983e5152, 0xa831c66d, 0xb00327c8, 0xbf597fc7, 0xc6e00bf3, 0xd5a79147, 0x06ca6351, 0x14292967,
  0x27b70a85, 0x2e1b2138, 0x4d2c6dfc, 0x53380d13, 0x650a7354, 0x766a0abb, 0x81c2c92e, 0x92722c85,
  0xa2bfe8a1, 0xa81a664b, 0xc24b8b70, 0xc76c51a3, 0xd192e819, 0xd6990624, 0xf40e3585, 0x106aa070,
  0x19a4c116, 0x1e376c08, 0x2748774c, 0x34b0bcb5, 0x391c0cb3, 0x4ed8aa4a, 0x5b9cca4f, 0x682e6ff3,
  0x748f82ee, 0x78a5636f, 0x84c87814, 0x8cc70208, 0x90befffa, 0xa4506ceb, 0xbef9a3f7, 0xc67178f2]

/-- The eight words of state. -/
structure State where
  a : UInt32
  b : UInt32
  c : UInt32
  d : UInt32
  e : UInt32
  f : UInt32
  g : UInt32
  h : UInt32

/-- The state before the first block: the fractions of the square roots of the first primes. -/
def State.initial : State :=
  ⟨0x6a09e667, 0xbb67ae85, 0x3c6ef372, 0xa54ff53a, 0x510e527f, 0x9b05688c, 0x1f83d9ab, 0x5be0cd19⟩

/-- The sum of two states, word by word. -/
def State.add (s t : State) : State :=
  ⟨s.a + t.a, s.b + t.b, s.c + t.c, s.d + t.d, s.e + t.e, s.f + t.f, s.g + t.g, s.h + t.h⟩

/-- Rotates a word to the right by less than its width. -/
def rotateRight (x : UInt32) (n : UInt32) : UInt32 := x >>> n ||| x <<< (32 - n)

/-! ## Rounds -/

/-- One round with a word of the block and its constant. -/
def State.round (s : State) (word constant : UInt32) : State :=
  let s1 := rotateRight s.e 6 ^^^ rotateRight s.e 11 ^^^ rotateRight s.e 25
  let choice := (s.e &&& s.f) ^^^ (~~~s.e &&& s.g)
  let t1 := s.h + s1 + choice + constant + word
  let s0 := rotateRight s.a 2 ^^^ rotateRight s.a 13 ^^^ rotateRight s.a 22
  let majority := (s.a &&& s.b) ^^^ (s.a &&& s.c) ^^^ (s.b &&& s.c)
  ⟨t1 + s0 + majority, s.a, s.b, s.c, s.d + t1, s.e, s.f, s.g⟩

/-- The word that follows the words of a schedule, of which the latest comes first. -/
def nextWord (latestFirst : List UInt32) : UInt32 :=
  let word (back : Nat) : UInt32 := latestFirst.getD (back - 1) 0
  let x := word 15
  let y := word 2
  let s0 := rotateRight x 7 ^^^ rotateRight x 18 ^^^ x >>> 3
  let s1 := rotateRight y 17 ^^^ rotateRight y 19 ^^^ y >>> 10
  word 16 + s0 + word 7 + s1

/-- Extends a schedule by a number of words. -/
def extend : Nat → List UInt32 → List UInt32
  | 0, latestFirst => latestFirst
  | n + 1, latestFirst => extend n (nextWord latestFirst :: latestFirst)

/-- The sixty-four words of a block of sixteen. -/
def schedule (block : List UInt32) : List UInt32 := (extend 48 block.reverse).reverse

/-- The state after a block. -/
def State.mix (s : State) (block : List UInt32) : State :=
  s.add (((schedule block).zip roundConstants).foldl (fun s (word, constant) => s.round word constant) s)

/-! ## Messages -/

/-- The bytes of a number, the first one most significant. -/
def bigEndian : Nat → Nat → List UInt8
  | 0, _ => []
  | count + 1, n => UInt8.ofNat (n / Nat.pow 256 count % 256) :: bigEndian count n

/-- The message with a one bit behind it, zeros, and its length in bits. -/
def padded (message : List UInt8) : List UInt8 :=
  let length := message.length
  message ++ 0x80 :: (List.replicate ((119 - length % 64) % 64) 0 ++ bigEndian 8 (8 * length))

/-- The words of four bytes each. -/
def words : List UInt8 → List UInt32
  | a :: b :: c :: d :: rest =>
    (a.toUInt32 <<< 24 ||| b.toUInt32 <<< 16 ||| c.toUInt32 <<< 8 ||| d.toUInt32) :: words rest
  | _ => []

/-- Mixes a number of blocks of sixteen words into a state. -/
def State.absorb : Nat → State → List UInt32 → State
  | 0, s, _ => s
  | blocks + 1, s, ws => absorb blocks (s.mix (ws.take 16)) (ws.drop 16)

/-- The digest of a message. -/
def digest (message : List UInt8) : List UInt8 :=
  let ws := words (padded message)
  let s := State.initial.absorb (ws.length / 16) ws
  [s.a, s.b, s.c, s.d, s.e, s.f, s.g, s.h].flatMap fun w => bigEndian 4 w.toNat

/-- The lower-case hexadecimal text of bytes. -/
def hex (bytes : List UInt8) : String :=
  let digit (d : Nat) : Char := if d < 10 then Char.ofNat (48 + d) else Char.ofNat (87 + d)
  String.ofList (bytes.flatMap fun b => [digit (b.toNat / 16), digit (b.toNat % 16)])

end EquityBoard.Sha256
