import EquityBoard.Decimal.Numeral
import EquityBoard.Text.Blank
import EquityBoard.Text.UpperCase
import EquityBoard.Url.Percent
import EquityBoard.Url.Punycode

/-!
# Hosts

The host of an address is a domain, a number of the fourth or sixth version of the protocol, or, under
a scheme without rules of its own, any text. Each kind has one written form: domains in lower case with
foreign letters encoded, numbers in their usual notation.
-/

namespace EquityBoard.Url

/-- Why a text is no address. -/
inductive UrlError where
  | emptyHost
  | invalidDomain
  | invalidPort
  | invalidIpv4
  | invalidIpv6
  | forbiddenHostCharacter
  | relativeWithoutBase
  /-- An address without a hierarchy has nothing that another one could be relative to. -/
  | noHierarchy
deriving DecidableEq, Repr

/-- The text that explains an address error. -/
def UrlError.message : UrlError → String
  | .emptyHost => "empty host"
  | .invalidDomain => "invalid international domain name"
  | .invalidPort => "invalid port number"
  | .invalidIpv4 => "invalid IPv4 address"
  | .invalidIpv6 => "invalid IPv6 address"
  | .forbiddenHostCharacter => "invalid domain character"
  | .relativeWithoutBase => "relative URL without a base"
  | .noHierarchy => "relative URL with a cannot-be-a-base base"

/-! ## Four-part numbers -/

/-- The value of a run of digits of a base up to sixteen. -/
def ofBase? (base : Nat) (cs : List Char) : Option Nat :=
  cs.foldl
    (fun acc c =>
      match acc, Json.Quoted.hexValue? c with
      | some n, some d => if d < base then some (n * base + d) else none
      | _, _ => none)
    (some 0)

/-- A part of a number: decimal, octal behind a zero, or hexadecimal behind a zero and an `x`. -/
def ipv4Part? : List Char → Option Nat
  | [] => none
  | '0' :: 'x' :: rest => ofBase? 16 rest
  | '0' :: 'X' :: rest => ofBase? 16 rest
  | ['0'] => some 0
  | '0' :: rest => ofBase? 8 rest
  | cs => ofBase? 10 cs

/-- The parts between the points of a domain; a point at its end ends no part. -/
def parts (domain : List Char) : List (List Char) :=
  let l := Text.cut (· == '.') domain
  if 2 ≤ l.length ∧ l.getLast? = some [] then l.dropLast else l

/-- Whether a domain is read as a number: its last part is one. -/
def endsInNumber (domain : List Char) : Bool :=
  match (parts domain).getLast? with
  | none => false
  | some last => (!last.isEmpty && last.all Decimal.isDigit) || (ipv4Part? last).isSome

/-- The value of a number of up to four parts; the last part fills what the others leave. -/
def ipv4? (domain : List Char) : Option Nat :=
  match (parts domain).mapM ipv4Part? with
  | none => none
  | some numbers =>
    let count := numbers.length
    let leading := numbers.dropLast
    let last := numbers.getLast?.getD 0
    if 4 < count ∨ leading.any (255 < ·) ∨ Nat.pow 256 (5 - count) ≤ last then none
    else some (leading.zipIdx.foldl (fun n (x, i) => n + x * Nat.pow 256 (3 - i)) last)

/-- The four parts of a number, with points between them. -/
def writeIpv4 (n : Nat) : List Char :=
  Decimal.digits (n / 0x1000000) ++ '.' :: Decimal.digits (n / 0x10000 % 256)
    ++ '.' :: Decimal.digits (n / 256 % 256) ++ '.' :: Decimal.digits (n % 256)

/-! ## Eight-part numbers -/

/-- A part of up to four hexadecimal digits. -/
def ipv6Part? (cs : List Char) : Option Nat :=
  if cs.isEmpty ∨ 4 < cs.length then none else ofBase? 16 cs

/-- A strict four-part number as two parts of an eight-part one. -/
def embeddedIpv4? (cs : List Char) : Option (List Nat) :=
  let number? (part : List Char) : Option Nat :=
    if part.isEmpty ∨ 3 < part.length ∨ (part.head? = some '0' ∧ 1 < part.length) then none
    else (ofBase? 10 part).filter (· ≤ 255)
  match (Text.cut (· == '.') cs).mapM number? with
  | some [a, b, c, d] => some [a * 256 + b, c * 256 + d]
  | _ => none

/-- The parts of a run between colons; the last one may be a four-part number. -/
def ipv6Run? (cs : List Char) : Option (List Nat) :=
  if cs.isEmpty then some []
  else
    let l := Text.cut (· == ':') cs
    match l.dropLast.mapM ipv6Part?, l.getLast? with
    | some front, some last =>
      if '.' ∈ last then (embeddedIpv4? last).map (front ++ ·)
      else (ipv6Part? last).map fun x => front ++ [x]
    | _, _ => none

/-- Splits at the first two colons in a row. -/
def splitDoubleColon : List Char → Option (List Char × List Char)
  | [] => none
  | ':' :: ':' :: rest => some ([], rest)
  | c :: rest => (splitDoubleColon rest).map fun (a, b) => (c :: a, b)

/-- The eight parts of a number; two colons stand for as many zeros as are missing. -/
def ipv6? (cs : List Char) : Option (List Nat) :=
  match splitDoubleColon cs with
  | none => (ipv6Run? cs).filter fun l => l.length = 8
  | some (front, back) =>
    if '.' ∈ front then none
    else
      match ipv6Run? front, ipv6Run? back with
      | some a, some b =>
        if a.length + b.length ≤ 7 then
          some (a ++ List.replicate (8 - a.length - b.length) 0 ++ b)
        else none
      | _, _ => none

/-- The hexadecimal digits of a part. -/
def hexDigits (n : Nat) : List Char :=
  if n < 16 then [Json.Quoted.hexDigit n]
  else hexDigits (n / 16) ++ [Json.Quoted.hexDigit (n % 16)]

/-- The first longest run of zeros: where it starts and how long it is. -/
def longestZeros (l : List Nat) : Nat × Nat :=
  (List.range l.length).foldl
    (fun best i =>
      let length := ((l.drop i).takeWhile (· == 0)).length
      if best.2 < length then (i, length) else best)
    (0, 0)

/-- Parts with colons between them. -/
def colons (l : List Nat) : List Char :=
  [':'].intercalate (l.map hexDigits)

/-- An eight-part number in brackets, its longest run of at least two zeros as two colons. -/
def writeIpv6 (l : List Nat) : List Char :=
  let (start, length) := longestZeros l
  let body :=
    if length < 2 then colons l
    else colons (l.take start) ++ [':', ':'] ++ colons (l.drop (start + length))
  '[' :: body ++ [']']

/-! ## Domains -/

/-- The ASCII characters that a domain may not hold. -/
def isForbiddenInDomain (c : Char) : Bool :=
  c.toNat ≤ 0x20 || c.toNat == 0x7F
    || c ∈ ['%', '#', '/', ':', '<', '>', '?', '@', '[', '\\', ']', '^', '`', '|']

/-- The lower-case letter of an upper-case one. -/
def lowerCase (c : Char) : List Char :=
  let n := c.toNat
  let isUpperOf (r : Text.CaseRun) : Bool :=
    let source := (n : Int) - r.offset
    r.first ≤ source && source ≤ r.last && (source - r.first) % r.step == 0
  if n < 128 then [c.toLower]
  else if n == 0x1E9E then ['s', 's']
  else
    match Text.caseRuns.find? isUpperOf with
    | some r => [Char.ofNat ((n : Int) - r.offset).toNat]
    | none => [c]

/-- The letter that a domain has in place of a character: full-width forms are narrowed, the full stops
of other scripts are points, invisible joiners vanish, and capitals become small. -/
def domainLetter (c : Char) : List Char :=
  let n := c.toNat
  if 0xFF01 ≤ n ∧ n ≤ 0xFF5E then
    if n = 0xFF0E then ['.'] else [(Char.ofNat (n - 0xFEE0)).toLower]
  else if n = 0x3002 ∨ n = 0xFF61 then ['.']
  else if n = 0xAD ∨ n = 0x200B ∨ n = 0x2060 ∨ n = 0xFEFF then []
  else lowerCase c

/-- The written form of a label. -/
def label? (cs : List Char) : Option (List Char) :=
  if cs.take 4 = ['x', 'n', '-', '-'] then
    match Punycode.decode? (cs.drop 4) with
    | some decoded =>
      if decoded.any (fun c => 128 ≤ c.toNat) ∧ Punycode.encode decoded = cs.drop 4 then some cs
      else none
    | none => none
  else if cs.all fun c => c.toNat < 128 then some cs
  else some (['x', 'n', '-', '-'] ++ Punycode.encode cs)

/-- The written form of a domain. -/
def domain? (cs : List Char) : Option (List Char) := do
  let cs ← decode? cs
  let labels ← (Text.cut (· == '.') (cs.flatMap domainLetter)).mapM label?
  let domain := ['.'].intercalate labels
  if domain.any isForbiddenInDomain then none else some domain

/-! ## Hosts -/

/-- The host under a scheme with rules of its own. -/
def specialHost (cs : List Char) : Except UrlError (List Char) :=
  match cs with
  | [] => .error .emptyHost
  | '[' :: rest =>
    if rest.getLast? = some ']' then
      match ipv6? rest.dropLast with
      | some l => .ok (writeIpv6 l)
      | none => .error .invalidIpv6
    else .error .invalidIpv6
  | cs =>
    match domain? cs with
    | none => .error .invalidDomain
    | some [] => .error .emptyHost
    | some domain =>
      if endsInNumber domain then
        match ipv4? domain with
        | some n => .ok (writeIpv4 n)
        | none => .error .invalidIpv4
      else .ok domain

/-- The characters that no host may hold. -/
def isForbiddenInHost (c : Char) : Bool :=
  c.toNat == 0 || c ∈ ['\t', '\n', '\r', ' ', '#', '/', ':', '<', '>', '?', '@', '[', '\\', ']', '^',
    '|']

/-- The host under any other scheme. -/
def plainHost (cs : List Char) : Except UrlError (List Char) :=
  match cs with
  | '[' :: rest =>
    if rest.getLast? = some ']' then
      match ipv6? rest.dropLast with
      | some l => .ok (writeIpv6 l)
      | none => .error .invalidIpv6
    else .error .invalidIpv6
  | cs =>
    if cs.any isForbiddenInHost then .error .forbiddenHostCharacter
    else .ok (encode controlSet cs)

end EquityBoard.Url
