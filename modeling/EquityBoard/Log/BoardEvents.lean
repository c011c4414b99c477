import EquityBoard.Log.Event
import EquityBoard.Series.Store

/-!
# The events of the board

What the board logs, one function for each kind of event.
-/

namespace EquityBoard.Log

/-- The board has started. -/
def startup (apiBase : String) (pollSeconds : Nat) (translates : Bool) : Event :=
  event .info .system "startup" [
    ("api_base", .string apiBase),
    ("poll_secs", .ofNat pollSeconds),
    ("translate", .bool translates)]

/-- A batch was merged; a merge that changed nothing is logged at a lower level. -/
def merge (report : MergeReport) (rows models : Nat) : Event :=
  event (if report.changed then .info else .debug) .series "merge" [
    ("appended", .ofNat report.appended),
    ("merged", .ofNat report.merged),
    ("stale", .ofNat report.stale),
    ("new_models", .ofList .string report.newModels),
    ("rows", .ofNat rows),
    ("models", .ofNat models)]

/-- Entries of a batch were no points. -/
def skippedPoints (count : Nat) : Event :=
  event .warn .feed "skipped_points" [("count", .ofNat count)]

/-- The conversations were polled. -/
def conversations (count : Nat) : Event :=
  event .debug .chat "conversations" [("count", .ofNat count)]

/-- A poll failed. -/
def fetchError (endpoint message : String) : Event :=
  event .warn .feed "fetch_error" [("endpoint", .string endpoint), ("msg", .string message)]

/-- An attempt failed and another one follows. -/
def retry (operation : String) (attempt maxAttempts delay : Nat) (message : String) : Event :=
  event .debug .feed "retry" [
    ("operation", .string operation),
    ("attempt", .ofNat attempt),
    ("max_attempts", .ofNat maxAttempts),
    ("delay_ms", .ofNat delay),
    ("msg", .string message)]

/-- A user changed what is shown. -/
def viewChange (what value : String) : Event :=
  event .info .view "selection" [("what", .string what), ("value", .string value)]

/-- A card was translated. -/
def translated (cardKey : String) (message? : Option String) : Event :=
  event .info .translate "translated" [
    ("card_key", .string cardKey),
    ("msg", .ofOption .string message?)]

/-- The rendition of a card failed. -/
def renditionFailed (cardKey : String) (message? : Option String) : Event :=
  event .error .translate "translation_failed" [
    ("card_key", .string cardKey),
    ("msg", .ofOption .string message?)]

/-- The board stops. -/
def shutdown (rows models : Nat) : Event :=
  event .info .system "shutdown" [("rows", .ofNat rows), ("models", .ofNat models)]

end EquityBoard.Log
