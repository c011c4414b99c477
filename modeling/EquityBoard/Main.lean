import EquityBoard.Replay

/-!
# The command line

The replay program: it takes the settings from the variables of its environment, reads the recording
that its first argument names, and prints the frame at the end.
-/

namespace EquityBoard

/-- The variables that are set, of those that have a meaning to the board. -/
def readEnvironment : IO Environment :=
  Settings.variableNames.foldlM
    (fun env name => do
      match ← IO.getEnv name with
      | none => return env
      | some value => return env.insert name value)
    .empty

/-- What the system says about an error, with its number. -/
def systemReason (e : IO.Error) : String :=
  let reason (code : UInt32) (details : String) : String :=
    details ++ " (os error " ++ Decimal.natText code.toNat ++ ")"
  match e with
  | .noFileOrDirectory _ code details => reason code details
  | .permissionDenied _ code details => reason code details
  | .inappropriateType _ code details => reason code details
  | .invalidArgument _ code details => reason code details
  | .resourceExhausted _ code details => reason code details
  | .otherError code details => reason code details
  | e => toString e

/-- The bytes of a file. A file that is there and still cannot be read, such as a directory, fails for
another reason than one that cannot be opened. -/
def readRecording (path : String) : IO (Except Feed.RecordingError (List UInt8)) := do
  match ← (IO.FS.Handle.mk path .read).toBaseIO with
  | .error e => return .error (.open path (systemReason e))
  | .ok handle =>
    match ← handle.readBinToEnd.toBaseIO with
    | .error e => return .error (.read (systemReason e))
    | .ok bytes => return .ok bytes.toList

end EquityBoard

open EquityBoard in
/-- Replays a recording. -/
def main (args : List String) : IO UInt32 := do
  let settings := Settings.ofEnvironment (← readEnvironment)
  let outcome := Replay.Outcome.ofAnswer (← Replay.answer settings readRecording args)
  for line in outcome.notices do
    IO.eprintln line
  IO.print outcome.output
  return outcome.code
