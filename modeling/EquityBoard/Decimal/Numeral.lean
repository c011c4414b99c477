/-!
# Whole numbers in decimal digits

Writing whole numbers (`digits`, `ofInt`) and reading them within the bounds of a fixed width
(`readInteger`). Reading goes from left to right and stops at the first fault, so a digit string
that leaves the width before a foreign character is reported as too large.
-/

namespace EquityBoard.Decimal

/-! ## Writing -/

/-- The character of a digit below ten. -/
def digitChar (d : Nat) : Char := Char.ofNat (48 + d)

/-- The decimal digits of a natural number, without leading zeros. -/
def digits (n : Nat) : List Char :=
  if n < 10 then [digitChar n] else digits (n / 10) ++ [digitChar (n % 10)]

/-- The decimal text of an integer: a minus sign in front of the digits of a negative one. -/
def ofInt : Int → List Char
  | .ofNat n => digits n
  | .negSucc n => '-' :: digits (n + 1)

/-- The text of a natural number. -/
def natText (n : Nat) : String := String.ofList (digits n)

/-- The text of an integer. -/
def intText (n : Int) : String := String.ofList (ofInt n)

/-! ## Reading -/

/-- The value of a decimal digit. -/
def digitValue? (c : Char) : Option Nat :=
  if '0' ≤ c ∧ c ≤ '9' then some (c.toNat - 48) else none

/-- Whether a character is one of the ten decimal digits. -/
def isDigit (c : Char) : Bool := (digitValue? c).isSome

/-- The value of a run of decimal digits, continuing from `acc`; other characters count nothing. -/
def valueFrom (acc : Nat) (cs : List Char) : Nat :=
  cs.foldl (fun n c => n * 10 + (digitValue? c).getD 0) acc

/-- The value of a run of decimal digits. -/
def value (cs : List Char) : Nat := valueFrom 0 cs

/-- Why a text is not an integer of a given width. -/
inductive IntegerError where
  | empty
  | invalidDigit
  | tooLarge
  | tooSmall
deriving DecidableEq, Repr

/-- The text that explains an integer error. -/
def IntegerError.message : IntegerError → String
  | .empty => "cannot parse integer from empty string"
  | .invalidDigit => "invalid digit found in string"
  | .tooLarge => "number too large to fit in target type"
  | .tooSmall => "number too small to fit in target type"

/-- The widths of the integers that the board reads. -/
inductive Width where
  | signed64
  | unsigned32
  | unsigned64
deriving DecidableEq, Repr

namespace Width

/-- The least integer of a width. -/
def least : Width → Int
  | .signed64 => -0x8000000000000000
  | .unsigned32 => 0
  | .unsigned64 => 0

/-- The greatest integer of a width. -/
def greatest : Width → Int
  | .signed64 => 0x7FFFFFFFFFFFFFFF
  | .unsigned32 => 0xFFFFFFFF
  | .unsigned64 => 0xFFFFFFFFFFFFFFFF

/-- Whether a width has negative integers, and with them a minus sign. -/
def isSigned (w : Width) : Bool := w.least < 0

end Width

/-- Appends the digits of a non-negative number that may not exceed `greatest`. -/
def readUp (greatest : Int) (acc : Int) : List Char → Except IntegerError Int
  | [] => .ok acc
  | c :: rest =>
    match digitValue? c with
    | none => .error .invalidDigit
    | some d =>
      if greatest < acc * 10 + d then .error .tooLarge else readUp greatest (acc * 10 + d) rest

/-- Appends the digits of a non-positive number that may not fall below `least`. -/
def readDown (least : Int) (acc : Int) : List Char → Except IntegerError Int
  | [] => .ok acc
  | c :: rest =>
    match digitValue? c with
    | none => .error .invalidDigit
    | some d =>
      if acc * 10 - d < least then .error .tooSmall else readDown least (acc * 10 - d) rest

/-- Reads an integer: an optional plus sign, or a minus sign where the width is signed, and at least
one digit. -/
def readInteger (w : Width) : List Char → Except IntegerError Int
  | [] => .error .empty
  | ['+'] => .error .invalidDigit
  | ['-'] => .error .invalidDigit
  | '+' :: rest => readUp w.greatest 0 rest
  | '-' :: rest => if w.isSigned then readDown w.least 0 rest else .error .invalidDigit
  | cs => readUp w.greatest 0 cs

/-- The integer that a text writes, if it is one of the width. -/
def integer? (w : Width) (s : String) : Option Int := (readInteger w s.toList).toOption

/-- The natural number that a text writes, if it is one of the width. -/
def natural? (w : Width) (s : String) : Option Nat := (integer? w s).map Int.toNat

end EquityBoard.Decimal
