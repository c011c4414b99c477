import EquityBoard.Url.Host

/-!
# Addresses

An `Address` is what an absolute web address says about where to send a request: scheme, user, host,
port and path. Reading follows the common rules of browsers: white space around the address and line
breaks inside it are dropped, a port that the scheme implies is left out, and the path is brought into
its normal form. Query and fragment are dropped. Under an address that is a directory, `child` gives
the address of an entry.
-/

namespace EquityBoard.Url

/-! ## Parts -/

/-- The path of an address: the segments between its slashes, or a text without segments. -/
inductive Path where
  | flat (text : List Char)
  | segments (l : List (List Char))
deriving DecidableEq

/-- An absolute address. -/
structure Address where
  scheme : List Char
  /-- The encoded user information with the sign behind it. -/
  user : List Char
  /-- The host; missing where the scheme is not followed by two slashes. -/
  host? : Option (List Char)
  port? : Option Nat
  path : Path

/-- The port that a scheme implies. -/
def defaultPort? (scheme : String) : Option Nat :=
  match scheme with
  | "http" | "ws" => some 80
  | "https" | "wss" => some 443
  | "ftp" => some 21
  | _ => none

/-- Whether a scheme has rules of its own for its hosts and slashes. -/
def isSpecial (scheme : String) : Bool := (defaultPort? scheme).isSome || scheme == "file"

/-! ## Reading -/

/-- Drops control characters and blanks at both ends, and line breaks and tabs anywhere. -/
def clean (cs : List Char) : List Char :=
  let isOuter (c : Char) : Bool := c.toNat ≤ 0x20
  let inner := ((cs.dropWhile isOuter).reverse.dropWhile isOuter).reverse
  inner.filter fun c => c != '\t' && c != '\n' && c != '\r'

/-- Takes the scheme and its colon off the front. -/
def readScheme (cs : List Char) : Option (List Char × List Char) :=
  let isPart (c : Char) : Bool := c.isAlphanum || c == '+' || c == '-' || c == '.'
  match cs with
  | [] => none
  | first :: _ =>
    if first.isAlpha then
      match cs.span isPart with
      | (scheme, ':' :: rest) => some (scheme.map Char.toLower, rest)
      | _ => none
    else none

/-- Whether a character ends the part of an address that names the host. -/
def endsAuthority (special : Bool) (c : Char) : Bool :=
  c == '/' || c == '?' || c == '#' || (special && c == '\\')

/-- Splits at the last character of a kind, which belongs to neither part. -/
def splitLast (isSplit : Char → Bool) (cs : List Char) : Option (List Char × List Char) :=
  let back := cs.reverse.takeWhile fun c => !isSplit c
  if back.length = cs.length then none
  else some (cs.take (cs.length - back.length - 1), back.reverse)

/-- The encoded user information of the text before the sign: a name, and a password behind the first
colon unless it is empty. -/
def userInfo (cs : List Char) : List Char :=
  let name := encode userSet (cs.takeWhile (· != ':'))
  let password := (cs.dropWhile (· != ':')).drop 1
  let password := if password.isEmpty then [] else ':' :: encode userSet password
  if name.isEmpty && password.isEmpty then [] else name ++ password ++ ['@']

/-- Splits a host from the colon of its port; colons in brackets belong to the host. -/
def splitPort : Bool → List Char → List Char × Option (List Char)
  | _, [] => ([], none)
  | inside, c :: rest =>
    if c = ':' ∧ inside = false then ([], some rest)
    else
      let inside := if c = '[' then true else if c = ']' then false else inside
      let (host, port) := splitPort inside rest
      (c :: host, port)

/-- Reads a port: digits up to the greatest port, or nothing. -/
def readPort (cs : List Char) : Except UrlError (Option Nat) :=
  if cs.isEmpty then .ok none
  else if cs.all Decimal.isDigit ∧ Decimal.value cs ≤ 65535 then .ok (some (Decimal.value cs))
  else .error .invalidPort

/-! ## Paths -/

/-- Whether a segment stands for the directory above. -/
def isDoubleDot (segment : List Char) : Bool :=
  String.ofList (segment.map Char.toLower) ∈ ["..", ".%2e", "%2e.", "%2e%2e"]

/-- Whether a segment stands for the directory itself. -/
def isSingleDot (segment : List Char) : Bool :=
  String.ofList (segment.map Char.toLower) ∈ [".", "%2e"]

/-- Adds raw segments to a path: dots go up or stay, and a path that ends in dots ends in a slash. -/
def resolve (path : List (List Char)) : List (List Char) → List (List Char)
  | [] => path
  | segment :: rest =>
    let ending : List (List Char) := if rest.isEmpty then [[]] else []
    if isDoubleDot segment then resolve (path.dropLast ++ ending) rest
    else if isSingleDot segment then resolve (path ++ ending) rest
    else resolve (path ++ [encode pathSet segment]) rest

/-- The segments of the text behind the host. -/
def readPath (special : Bool) (cs : List Char) : List (List Char) :=
  let isSlash (c : Char) : Bool := c == '/' || (special && c == '\\')
  let cs := cs.takeWhile fun c => c != '?' && c != '#'
  match cs with
  | [] => if special then [[]] else []
  | c :: rest => resolve [] (Text.cut isSlash (if isSlash c then rest else c :: rest))

/-! ## Addresses -/

/-- Reads user, host and port, and gives the rest. -/
def readAuthority (scheme : List Char) (cs : List Char) :
    Except UrlError (List Char × List Char × Option Nat × List Char) := do
  let name := String.ofList scheme
  let special := isSpecial name
  let (authority, rest) := cs.span fun c => !endsAuthority special c
  let (user, hostPort, hasUser) := match splitLast (· == '@') authority with
    | none => ([], authority, false)
    | some (user, rest) => (userInfo user, rest, true)
  let (host, port) := splitPort false hostPort
  if host.isEmpty && (special || hasUser || port.isSome) then throw .emptyHost
  let host ← if special then specialHost host else plainHost host
  let port ← readPort (port.getD [])
  return (user, host, if port = defaultPort? name then none else port, rest)

/-- The host and path of the text behind the scheme of a file. -/
def readFile (cs : List Char) : Except UrlError (List Char × List (List Char)) := do
  let isSlash (c : Char) : Bool := c == '/' || c == '\\'
  match cs with
  | a :: b :: rest =>
    if isSlash a && isSlash b then
      let (host, rest) := rest.span fun c => !endsAuthority true c
      let host ← if host.isEmpty then pure [] else specialHost host
      return (if host = "localhost".toList then [] else host, readPath true rest)
    else return ([], readPath true cs)
  | cs => return ([], readPath true cs)

/-- The address of a text. -/
def parse (s : String) : Except UrlError Address :=
  match readScheme (clean s.toList) with
  | none => .error .relativeWithoutBase
  | some (scheme, rest) =>
    let name := String.ofList scheme
    if name = "file" then do
      let (host, path) ← readFile rest
      let path := path.dropLast.dropWhile List.isEmpty ++ path.getLast?.toList
      return ⟨scheme, [], some host, none, .segments path⟩
    else if isSpecial name then do
      let (user, host, port?, rest) ←
        readAuthority scheme (rest.dropWhile fun c => c == '/' || c == '\\')
      return ⟨scheme, user, some host, port?, .segments (readPath true rest)⟩
    else
      match rest with
      | '/' :: '/' :: rest => do
        let (user, host, port?, rest) ← readAuthority scheme rest
        return ⟨scheme, user, some host, port?, .segments (readPath false rest)⟩
      | '/' :: rest => .ok ⟨scheme, [], none, none, .segments (readPath false ('/' :: rest))⟩
      | rest =>
        let text := rest.takeWhile fun c => c != '?' && c != '#'
        .ok ⟨scheme, [], none, none, .flat (encode controlSet text)⟩

/-- The address of an entry of a directory: what follows the last slash counts as the name of the
directory. -/
def Address.child (a : Address) (names : List (List Char)) : Except UrlError Address :=
  match a.path with
  | .flat _ => .error .noHierarchy
  | .segments l =>
    let directory := if l.getLast? = some [] then l.dropLast else l
    .ok { a with path := .segments (directory ++ names) }

/-- The text of an address. A path that starts with two slashes and has no host before it is marked by
a dot, for else it would read as a host. -/
def Address.text (a : Address) : String :=
  let host := match a.host? with
    | none => []
    | some host => '/' :: '/' :: (a.user ++ host)
  let port := match a.port? with
    | none => []
    | some port => ':' :: Decimal.digits port
  let path := match a.path with
    | .flat text => text
    | .segments l =>
      let marker := if a.host?.isNone && 1 < l.length && l.head? = some [] then ['/', '.'] else []
      marker ++ l.flatMap fun segment => '/' :: segment
  String.ofList (a.scheme ++ ':' :: (host ++ port ++ path))

end EquityBoard.Url
