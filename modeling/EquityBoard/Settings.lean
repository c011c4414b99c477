import EquityBoard.Chart.Panel
import EquityBoard.Chat.Conversation
import EquityBoard.Environment

/-!
# Settings

The settings of the board come from its environment. A variable that is unset, or does not write a
number of the right width where one is needed, leaves the setting at its default.
-/

namespace EquityBoard

open Decimal

/-- The settings of the board. -/
structure Settings where
  apiBase : String
  pollSeconds : Nat
  windowHours : Int
  pointBudget : Nat
  chatApiBase : String
  /-- The access token of the chat service; without one nothing is translated. -/
  chatApiToken? : Option String
  chatModel : String
  /-- How many of the newest cards are translated by themselves. -/
  autoTranslate : Nat
  /-- The milliseconds after which a new viewport width is applied. -/
  resizeDelay : Nat
  viewportWidth : Nat
  rangeText : String
  modeText : String
  filterText : String
  httpTimeoutSeconds : Nat

namespace Settings

/-- The names of the variables that settings and log filter come from. -/
def variableNames : List String := [
  "BOARD_API_BASE", "POLL_SECS", "WINDOW_HOURS", "POINT_BUDGET", "CHAT_API_BASE", "CHAT_API_TOKEN",
  "CHAT_MODEL", "AUTO_TRANSLATE", "RESIZE_DEBOUNCE_MS", "VIEWPORT_WIDTH", "RANGE", "MODE",
  "MODEL_FILTER", "HTTP_TIMEOUT_SECS", "LOG_LEVEL", "LOG_DOMAINS"]

/-- The settings of an environment. -/
def ofEnvironment (env : Environment) : Settings :=
  let text (name absent : String) : String := (env.get? name).getD absent
  let natural (name : String) (w : Width) (absent : Nat) : Nat :=
    ((env.get? name).bind (natural? w)).getD absent
  { apiBase := text "BOARD_API_BASE" "http://localhost:3000/api/nof1"
    pollSeconds := natural "POLL_SECS" .unsigned64 5
    windowHours := ((env.get? "WINDOW_HOURS").bind (integer? .signed64)).getD 72
    pointBudget := natural "POINT_BUDGET" .unsigned64 defaultBudget
    chatApiBase := text "CHAT_API_BASE" "https://api.siliconflow.cn/v1"
    chatApiToken? := (env.get? "CHAT_API_TOKEN").filter fun t => !(Text.trim t).isEmpty
    chatModel := text "CHAT_MODEL" "Qwen/Qwen2.5-7B-Instruct"
    autoTranslate := natural "AUTO_TRANSLATE" .unsigned64 3
    resizeDelay := natural "RESIZE_DEBOUNCE_MS" .unsigned64 150
    viewportWidth := natural "VIEWPORT_WIDTH" .unsigned32 1280
    rangeText := text "RANGE" "ALL"
    modeText := text "MODE" "$"
    filterText := text "MODEL_FILTER" "ALL"
    httpTimeoutSeconds := natural "HTTP_TIMEOUT_SECS" .unsigned64 10 }

/-- The range of the configured window. -/
def window (s : Settings) : Range := Range.trailingHours s.windowHours

/-- The range that a text names: the configured window, a range, or else all. -/
def range (s : Settings) (text : String) : Range :=
  if Text.lower (Text.trim text) = "window" then s.window else (Range.parse? text).getD .all

/-- What is shown at first. -/
def selection (s : Settings) : Selection :=
  ⟨s.range s.rangeText, (Mode.parse? s.modeText).getD .absolute⟩

/-- The models whose conversations are listed at first. -/
def filter (s : Settings) : Chat.ModelFilter := .parse s.filterText

/-- The address of a path of the data service. -/
def endpoint (s : Settings) (path : String) : String :=
  let base := (s.apiBase.toList.reverse.dropWhile (· == '/')).reverse
  String.ofList (base ++ '/' :: path.toList.dropWhile (· == '/'))

/-- The path of the account values. -/
def seriesPath : String := "since-inception-values"

/-- The path of the account totals. -/
def totalsPath : String := "account-totals"

/-- The path of the conversations. -/
def conversationsPath : String := "conversations"

/-- The addresses that are shown as long as there is no chart. -/
def debugEndpoints (s : Settings) : List String :=
  [s.endpoint seriesPath, s.endpoint totalsPath]

/-- The seconds between polls. -/
def pollInterval (s : Settings) : Nat := max s.pollSeconds 1

/-- The seconds after which a request is given up. -/
def httpTimeout (s : Settings) : Nat := max s.httpTimeoutSeconds 1

/-- What the chart panel starts with. -/
def panel (s : Settings) : Chart.PanelSettings where
  budget := s.pointBudget
  pollSeconds := s.pollSeconds
  viewportWidth := s.viewportWidth
  selection := s.selection
  debugEndpoints := s.debugEndpoints

end Settings

end EquityBoard
