/-!
# Punycode

The letters of a domain label outside ASCII are written behind its ASCII letters, as the steps from
one inserted letter to the next in digits of base thirty-six. A step counts both the letters that are
skipped and the places in the label.
-/

namespace EquityBoard.Url.Punycode

/-! ## Digits -/

/-- The character of a digit below thirty-six. -/
def digitChar (d : Nat) : Char := if d < 26 then Char.ofNat (97 + d) else Char.ofNat (22 + d)

/-- The digit of a character. -/
def digitValue? (c : Char) : Option Nat :=
  if 'a' ≤ c ∧ c ≤ 'z' then some (c.toNat - 97)
  else if 'A' ≤ c ∧ c ≤ 'Z' then some (c.toNat - 65)
  else if '0' ≤ c ∧ c ≤ '9' then some (c.toNat - 22)
  else none

/-- The place from which on digits carry more than the least weight, after a step. -/
def adapt (delta points : Nat) (first : Bool) : Nat :=
  let delta := if first then delta / 700 else delta / 2
  reduce 64 (delta + delta / points) 0
where
  /-- Divides by thirty-five until the step is small. -/
  reduce : Nat → Nat → Nat → Nat
    | 0, delta, k => k + 36 * delta / (delta + 38)
    | fuel + 1, delta, k =>
      if 455 < delta then reduce fuel (delta / 35) (k + 36) else k + 36 * delta / (delta + 38)

/-- The threshold of a digit. -/
def threshold (k bias : Nat) : Nat := max 1 (min 26 (k - bias))

/-! ## Encoding -/

/-- The digits of a step. -/
def encodeStep : Nat → Nat → Nat → Nat → List Char
  | 0, _, _, _ => []
  | fuel + 1, q, k, bias =>
    let t := threshold k bias
    if q < t then [digitChar q]
    else digitChar (t + (q - t) % (36 - t)) :: encodeStep fuel ((q - t) / (36 - t)) (k + 36) bias

/-- What is carried from letter to letter. -/
structure State where
  delta : Nat
  bias : Nat
  handled : Nat
  /-- The digits so far. -/
  out : List Char

/-- Goes over the label once for the letter `n`, which is the next greater one. -/
def encodeLetter (basic n : Nat) (s : State) (label : List Nat) : State :=
  label.foldl
    (fun s c =>
      if c < n then { s with delta := s.delta + 1 }
      else if c = n then
        { delta := 0
          bias := adapt s.delta (s.handled + 1) (s.handled == basic)
          handled := s.handled + 1
          out := s.out ++ encodeStep 64 s.delta 36 s.bias }
      else s)
    s

/-- Encodes the letters of a list one after another, in ascending order. -/
def encodeLetters (basic : Nat) (label : List Nat) : List Nat → Nat → State → List Char
  | [], _, s => s.out
  | m :: rest, n, s =>
    let s := encodeLetter basic m { s with delta := s.delta + (m - n) * (s.handled + 1) } label
    encodeLetters basic label rest (m + 1) { s with delta := s.delta + 1 }

/-- The encoded form of a label. -/
def encode (label : List Char) : List Char :=
  let points := label.map Char.toNat
  let ascii := label.filter fun c => c.toNat < 128
  let letters := ((points.filter fun n => 128 ≤ n).mergeSort fun a b => a ≤ b).eraseReps
  let start := if ascii.isEmpty then [] else ascii ++ ['-']
  start ++ encodeLetters ascii.length points letters 128 ⟨0, 72, ascii.length, []⟩

/-! ## Decoding -/

/-- Reads the digits of a step: the step and the rest. -/
def decodeStep : List Char → Nat → Nat → Nat → Nat → Option (Nat × List Char)
  | [], _, _, _, _ => none
  | c :: rest, i, weight, k, bias =>
    match digitValue? c with
    | none => none
    | some d =>
      let i := i + d * weight
      let t := threshold k bias
      if 0x100000000 ≤ i then none
      else if d < t then some (i, rest)
      else decodeStep rest i (weight * (36 - t)) (k + 36) bias

/-- Inserts the letters that the steps describe. -/
def decodeLetters : Nat → List Char → Nat → Nat → Nat → List Nat → Option (List Nat)
  | 0, _, _, _, _, out => some out
  | _, [], _, _, _, out => some out
  | fuel + 1, cs, n, i, bias, out =>
    match decodeStep cs i 1 36 bias with
    | none => none
    | some (next, rest) =>
      let length := out.length + 1
      let bias := adapt (next - i) length (i == 0)
      let n := n + next / length
      let i := next % length
      if n.isValidChar then
        decodeLetters fuel rest n (i + 1) bias (out.take i ++ n :: out.drop i)
      else none

/-- The label of an encoded form. -/
def decode? (cs : List Char) : Option (List Char) :=
  let tail := (cs.reverse.takeWhile (· != '-')).reverse
  let ascii := cs.take (cs.length - tail.length - 1)
  if ascii.all fun c => c.toNat < 128 then
    (decodeLetters tail.length tail 128 0 72 (ascii.map Char.toNat)).map fun l => l.map Char.ofNat
  else none

end EquityBoard.Url.Punycode
