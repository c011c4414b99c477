import EquityBoard.Chart.Document
import EquityBoard.Chat.Service
import EquityBoard.Chat.Rendition
import EquityBoard.Command
import EquityBoard.Feed.Client
import EquityBoard.Json.Printer
import EquityBoard.Text.InQuotes

/-!
# The board

The board joins the chart, the chat and the two services. It polls, obeys commands and draws; what it
has to say goes to the log, to its output or to the operator's terminal. Polls and drawings stop with
an overflow that they run into.
-/

namespace EquityBoard

open Chat
open Decimal (Overflow Work)

/-- Something that the board says. -/
inductive Output where
  | logged (event : Log.Event)
  | printed (line : String)
  /-- A line for the operator. -/
  | notice (line : String)

/-- The state of the board. -/
structure Board where
  service : Feed.DataService
  /-- The chat service, if there is a token for it. -/
  translator? : Option ChatService
  panel : Chart.Panel
  feed : ConversationFeed := {}
  book : RenditionBook := .empty
  filter : ModelFilter

/-- What follows after a command. -/
inductive Reaction where
  | proceed
  | stop
  /-- Apply a viewport width once no other one has been asked for within the delay. -/
  | resizeLater (width : Nat)
deriving DecidableEq, Repr

/-- The text of a filter in log lines. -/
def Chat.ModelFilter.logText : ModelFilter → String
  | .all => "All"
  | .model id => "Model(" ++ Text.inQuotes id ++ ")"

namespace Board

variable {σ : Type}

/-- A board before its first poll. -/
def new (settings : Settings) (policy : Feed.RetryPolicy) : Except Url.UrlError Board := do
  let translator? ← match settings.chatApiToken? with
    | none => pure none
    | some token => some <$> ChatService.new settings.chatApiBase token settings.chatModel
  return {
    service := ⟨settings, policy⟩
    translator?
    panel := .new settings.panel
    filter := settings.filter }

/-- The settings of the board. -/
def settings (b : Board) : Settings := b.service.settings

/-! ## Polls -/

/-- The event of a poll that failed. -/
def fetchError (b : Board) (path : String) (failure : Feed.Failure) : Output :=
  .logged (Log.fetchError (b.settings.endpoint path) failure.message)

/-- Polls the account values. -/
def pollSeries (b : Board) (network : Http.Network σ) : Work σ (Board × List Output) := do
  let fetched ← b.service.fetchSeries network
  let attempts := fetched.events.map Output.logged
  match fetched.result with
  | .ok batch =>
    let (panel, report) := b.panel.takeBatch batch.points batch.declared
    let skipped := if 0 < batch.skipped then [.logged (Log.skippedPoints batch.skipped)] else []
    let merged := .logged (Log.merge report panel.store.size panel.store.models.size)
    return ({ b with panel }, attempts ++ skipped ++ [merged])
  | .error failure =>
    return ({ b with panel := b.panel.takeError },
      attempts ++ [b.fetchError Settings.seriesPath failure])

/-- Runs rendition jobs through the chat service. -/
def translate (b : Board) (network : Http.Network σ) (service : ChatService)
    (jobs : List RenditionBook.Job) : StateM σ (Board × List Output) := do
  let ask (text : String) : StateM σ (Except String String) := do
    return (← service.translate network text).mapError ServiceFailure.message
  let (book, reports) ← b.book.runJobs ask jobs
  return ({ b with book }, reports.map fun r => .logged r.event)

/-- Polls the conversations, and translates the newest ones. -/
def pollConversations (b : Board) (network : Http.Network σ) : Work σ (Board × List Output) := do
  let fetched ← b.service.fetchConversations network
  let attempts := fetched.events.map Output.logged
  match fetched.result with
  | .ok feed =>
    let b := { b with feed }
    let polled := [.logged (Log.conversations feed.items.length)]
    match b.translator? with
    | none => return (b, attempts ++ polled)
    | some service =>
      let jobs := b.book.pending (feed.list b.filter) b.settings.autoTranslate
      let (b, translated) ← b.translate network service jobs
      return (b, attempts ++ polled ++ translated)
  | .error failure =>
    return (b, attempts ++ [b.fetchError Settings.conversationsPath failure])

/-! ## Cards -/

/-- The newest card with a key. -/
def card? (b : Board) (key : String) : Option Conversation :=
  (b.feed.list .all).find? fun c => c.cardKey == key

/-- Switches a card between its text and its rendition, asking for the rendition if there is none
yet. -/
def toggleRendition (b : Board) (network : Http.Network σ) (key : String) :
    StateM σ (Board × List Output) := do
  let (book, switched) := b.book.toggle key
  if switched then return ({ b with book }, [])
  match b.translator? with
  | none => return (b, [.notice "translation disabled: set CHAT_API_TOKEN"])
  | some service =>
    match (b.card? key).bind fun c => if c.summary.isEmpty then none else some c.summary with
    | some text => b.translate network service [⟨key, text⟩]
    | none => return (b, [.notice ("no card " ++ key ++ " with content")])

/-- The first line of a text. -/
def firstLine (s : String) : String := String.ofList ((Text.lines s.toList).head?.getD [])

/-- The line of a card. -/
def cardLine (b : Board) (c : Conversation) : Except Overflow String := do
  let time ← Calendar.cardTime c.timestamp
  return "  [" ++ c.cardKey ++ "] " ++ time ++ " " ++ c.model ++ ": "
    ++ firstLine (b.book.display c.cardKey c.summary)

/-! ## Drawing -/

/-- The cards that are drawn, the newest ones that the filter accepts. -/
def drawnCards (b : Board) : List Conversation :=
  (b.feed.list b.filter).take (max b.settings.autoTranslate 3)

/-- Draws the chart and the newest cards for the operator. -/
def render (b : Board) (now : Int) : Except Overflow (Board × List Output) := do
  let (panel, frame) := b.panel.frame now
  let lines ← b.drawnCards.mapM b.cardLine
  return ({ b with panel }, (frame.summary ++ lines).map .notice)

/-- Draws the board after something was done and said. -/
def drawAfter (now : Int) (done : Board × List Output) :
    Except Overflow (Board × List Output × Reaction) := do
  let (b, outputs) ← done.1.render now
  return (b, done.2 ++ outputs, .proceed)

/-! ## Commands -/

/-- Obeys a command; most commands draw the board afterwards. -/
def handle (b : Board) (network : Http.Network σ) (now : Int) (command : Command) :
    Work σ (Board × List Output × Reaction) := do
  let view (what value : String) (panel : Chart.Panel) : Board × List Output :=
    ({ b with panel }, [.logged (Log.viewChange what value)])
  match command with
  | .range r => drawAfter now (view "range" r.label (b.panel.setRange r))
  | .mode m => drawAfter now (view "mode" m.symbol (b.panel.setMode m))
  | .toggle model => drawAfter now (view "legend" model (b.panel.toggle model))
  | .resize width => return (b, [], .resizeLater width)
  | .filter f =>
    drawAfter now ({ b with filter := f }, [.logged (Log.viewChange "filter" f.logText)])
  | .translate key => drawAfter now (← b.toggleRendition network key)
  | .totals =>
    let fetched ← b.service.fetchTotals network
    let attempts := fetched.events.map Output.logged
    match fetched.result with
    | .ok j => drawAfter now (b, attempts ++ [.notice j.pretty])
    | .error failure =>
      drawAfter now (b, attempts ++ [b.fetchError Settings.totalsPath failure])
  | .frame =>
    let (panel, frame) := b.panel.frame now
    return ({ b with panel }, [.printed frame.toJson.compact], .proceed)
  | .quit => return (b, [], .stop)

end Board

end EquityBoard
