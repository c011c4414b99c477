import EquityBoard.Chart.Document
import EquityBoard.Feed.Recording
import EquityBoard.Json.Printer
import EquityBoard.Settings

/-!
# Replaying a recording

The replay program takes a recording through the chart panel, batch by batch, and prints the frame at
the end: a summary for the operator and a document. Its arguments are the file and flags with values,
which override the settings of the environment.
-/

namespace EquityBoard.Replay

open Decimal

/-! ## Arguments -/

/-- What the program is asked to do. -/
structure Request where
  path : String
  selection : Selection
  /-- The time of the frame; the newest recorded time, unless given. -/
  now? : Option Int := none
  width : Nat

/-- Why there is no frame. -/
inductive ReplayError where
  | usage
  | missingValue (flag : String)
  | unknownMode (text : String)
  | badInteger (error : IntegerError)
  | unknownFlag (flag : String)
  | recording (error : Feed.RecordingError)
deriving DecidableEq, Repr

namespace ReplayError

/-- The text that explains a replay error. -/
def message : ReplayError → String
  | .usage => "usage: replay <file.jsonl> [flags]"
  | .missingValue flag => flag ++ " needs a value"
  | .unknownMode text => "unknown mode " ++ text
  | .badInteger error => error.message
  | .unknownFlag flag => "unknown flag " ++ flag
  | .recording error => error.message

/-- What caused the error. -/
def cause? : ReplayError → Option String
  | .recording error => error.cause?
  | _ => none

/-- What the operator reads about an error. -/
def report (e : ReplayError) : String :=
  "Error: " ++ e.message ++ (match e.cause? with
    | some cause => "\n\nCaused by:\n    " ++ cause
    | none => "")

end ReplayError

namespace Request

/-- Applies a flag with its value. -/
def setFlag (settings : Settings) (r : Request) (flag text : String) : Except ReplayError Request :=
  match flag with
  | "--range" => .ok { r with selection.range := settings.range text }
  | "--mode" =>
    match Mode.parse? text with
    | some m => .ok { r with selection.mode := m }
    | none => .error (.unknownMode text)
  | "--now" =>
    match readInteger .signed64 text.toList with
    | .ok now => .ok { r with now? := some now }
    | .error e => .error (.badInteger e)
  | "--width" =>
    match readInteger .unsigned32 text.toList with
    | .ok width => .ok { r with width := width.toNat }
    | .error e => .error (.badInteger e)
  | flag => .error (.unknownFlag flag)

/-- Applies flags with their values, one after another. -/
def setFlags (settings : Settings) (r : Request) : List String → Except ReplayError Request
  | [] => .ok r
  | [flag] => .error (.missingValue flag)
  | flag :: text :: rest =>
    match r.setFlag settings flag text with
    | .ok r => setFlags settings r rest
    | .error e => .error e

/-- The request of the arguments of the program. -/
def ofArguments (settings : Settings) : List String → Except ReplayError Request
  | [] => .error .usage
  | path :: flags =>
    setFlags settings { path, selection := settings.selection, width := settings.viewportWidth } flags

end Request

/-! ## The replay -/

/-- The panel that a request starts with. -/
def startPanel (settings : Settings) (r : Request) : Chart.Panel :=
  .new { settings.panel with selection := r.selection, viewportWidth := r.width }

/-- The panel after batches. -/
def takeBatches (p : Chart.Panel) (batches : List Feed.Batch) : Chart.Panel :=
  batches.foldl (fun p b => (p.takeBatch b.points b.declared).1) p

/-- The time of the frame of a panel. -/
def frameTime (r : Request) (p : Chart.Panel) : Int := (r.now?.or p.store.cursor?).getD 0

/-- What the program prints. -/
structure Report where
  frame : Chart.Frame
  /-- The document with its fields in ascending order. -/
  document : Json

/-- The report of a recording. -/
def ofRecording (settings : Settings) (r : Request) (recording : Feed.Recording)
    (manifest : Feed.Manifest) : Report :=
  let panel := takeBatches (startPanel settings r) recording.batches
  let now := frameTime r panel
  let frame := (panel.frame now).2
  let document : Json := .object [
    ("manifest", manifest.toJson),
    ("now_ms", .ofInt now),
    ("frame", frame.toJson)]
  ⟨frame, document.ordered⟩

/-- The report of the bytes of a file. -/
def ofBytes (settings : Settings) (r : Request) (bytes : List UInt8) : Except ReplayError Report :=
  match Feed.Recording.ofBytes bytes with
  | .error e => .error (.recording e)
  | .ok recording => .ok (ofRecording settings r recording (recording.manifest r.path bytes))

/-! ## The program -/

/-- Answers the arguments of the program, given a way to get the bytes of a file. -/
def answer {m : Type → Type} [Monad m] (settings : Settings)
    (bytesAt : String → m (Except Feed.RecordingError (List UInt8))) (arguments : List String) :
    m (Except ReplayError Report) :=
  match Request.ofArguments settings arguments with
  | .error e => return .error e
  | .ok r => do
    match ← bytesAt r.path with
    | .error e => return .error (.recording e)
    | .ok bytes => return ofBytes settings r bytes

/-- What the program leaves behind: its exit code, the text of its output and the lines for the
operator. -/
structure Outcome where
  code : UInt32
  output : String
  notices : List String

/-- The outcome of an answer. -/
def Outcome.ofAnswer : Except ReplayError Report → Outcome
  | .ok r => ⟨0, r.document.pretty ++ "\n", r.frame.summary⟩
  | .error e => ⟨1, "", [e.report]⟩

end EquityBoard.Replay
