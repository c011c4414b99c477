import EquityBoard.Feed.Batch
import EquityBoard.Json.Reader
import EquityBoard.Sha256
import EquityBoard.Text.Blank

/-!
# Recorded feeds

A recording is a text file with one answer of the series feed on each line. Blank lines and lines that
start with a hash sign are skipped; a line that is no batch is counted as bad and disturbs no other.
-/

namespace EquityBoard.Feed

/-! ## Lines -/

/-- What a line holds. -/
inductive RecordedLine where
  | skipped
  | bad
  | batch (b : Batch)

/-- The batch that a text writes. -/
def Batch.read? (s : String) : Option Batch :=
  match Json.read? s with
  | none => none
  | some j => (Batch.ofJson j).toOption

/-- What a line holds, white space at its ends aside. -/
def RecordedLine.ofChars (line : List Char) : RecordedLine :=
  let trimmed := Text.trimChars line
  if trimmed.isEmpty || trimmed.head? == some '#' then .skipped
  else match Batch.read? (String.ofList trimmed) with
    | some b => .batch b
    | none => .bad

/-! ## Recordings -/

/-- The batches of a recording in the order of its lines. -/
structure Recording where
  batches : List Batch
  badLines : Nat

namespace Recording

/-- The recording of lines. -/
def ofLines (lines : List RecordedLine) : Recording where
  batches := lines.filterMap fun
    | .batch b => some b
    | _ => none
  badLines := lines.countP fun
    | .bad => true
    | _ => false

/-- The recording of a text. -/
def ofText (s : String) : Recording := ofLines ((Text.lines s.toList).map RecordedLine.ofChars)

/-- The number of points. -/
def pointCount (r : Recording) : Nat := r.batches.foldl (fun total b => total + b.points.length) 0

end Recording

/-! ## Files -/

/-- Why a recording cannot be loaded. -/
inductive RecordingError where
  /-- The file cannot be opened, for a reason of the system. -/
  | open (path reason : String)
  /-- The file cannot be read, for a reason of the system. -/
  | read (reason : String)
  | invalidText
deriving DecidableEq, Repr

namespace RecordingError

/-- The text that explains a recording error. -/
def message : RecordingError → String
  | .open path _ => "open " ++ path
  | .read reason => reason
  | .invalidText => "stream did not contain valid UTF-8"

/-- What caused the error. -/
def cause? : RecordingError → Option String
  | .open _ reason => some reason
  | _ => none

end RecordingError

/-- The recording of the bytes of a file. -/
def Recording.ofBytes (bytes : List UInt8) : Except RecordingError Recording :=
  match String.fromUTF8? ⟨bytes.toArray⟩ with
  | none => .error .invalidText
  | some s => .ok (ofText s)

/-- What identifies a recording and sums it up. -/
structure Manifest where
  path : String
  sha256 : String
  batches : Nat
  points : Nat
  badLines : Nat
deriving DecidableEq, Repr

/-- The manifest of a file. -/
def Recording.manifest (r : Recording) (path : String) (bytes : List UInt8) : Manifest where
  path
  sha256 := Sha256.hex (Sha256.digest bytes)
  batches := r.batches.length
  points := r.pointCount
  badLines := r.badLines

/-- The document of a manifest. -/
def Manifest.toJson (m : Manifest) : Json :=
  .object [
    ("path", .string m.path),
    ("sha256", .string m.sha256),
    ("batches", .ofNat m.batches),
    ("points", .ofNat m.points),
    ("bad_lines", .ofNat m.badLines)]

end EquityBoard.Feed
