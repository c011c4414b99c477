import EquityBoard.Chat.Conversation
import EquityBoard.Feed.Retry
import EquityBoard.Http
import EquityBoard.Json.Reader
import EquityBoard.Settings
import EquityBoard.Url.Address

/-!
# The data service

The data service answers three paths: the account values, the account totals and the conversations.
Requests are repeated by a policy, and every failed attempt that another one follows is reported.
-/

namespace EquityBoard.Feed

open Decimal (Work)

/-- How the data service is reached. -/
structure DataService where
  settings : Settings
  policy : RetryPolicy := {}

/-- What a request gave, and the failed attempts before. -/
structure Fetched (α : Type) where
  result : Except Failure α
  operation : String
  reports : List RetryReport

namespace Fetched

/-- The events of the failed attempts. -/
def events {α : Type} (f : Fetched α) : List Log.Event := f.reports.map (·.event f.operation)

/-- Turns what was received into something else. -/
def andThen {α β : Type} (f : Fetched α) (next : α → Except Failure β) : Fetched β :=
  { f with result := f.result.bind next }

end Fetched

/-- The document of a reply from an address. -/
def ofReply (url : String) : Http.Reply → Except Failure Json
  | .nothing => .error .noAnswer
  | .answer status body =>
    if Http.isSuccess status then
      match Json.read? body with
      | some j => .ok j
      | none => .error .undecodable
    else .error (.status status url)

namespace DataService

variable {σ : Type}

/-- One attempt to get the document at an address. -/
def attempt (network : Http.Network σ) (url : String) : StateM σ (Except Failure Json) :=
  match Url.parse url with
  | .error _ => return .error .badAddress
  | .ok _ => do return ofReply url (← network.send { method := .get, url })

/-- Gets the document at a path. -/
def fetch (service : DataService) (network : Http.Network σ) (path : String) :
    Work σ (Fetched Json) := do
  let (result, reports) ←
    service.policy.run network.draws (attempt network (service.settings.endpoint path))
  return ⟨result, path, reports⟩

/-- Gets the account values. -/
def fetchSeries (service : DataService) (network : Http.Network σ) : Work σ (Fetched Batch) := do
  let fetched ← service.fetch network Settings.seriesPath
  return fetched.andThen fun j => (Batch.ofJson j).mapError .badBatch

/-- Gets the account totals. -/
def fetchTotals (service : DataService) (network : Http.Network σ) : Work σ (Fetched Json) :=
  service.fetch network Settings.totalsPath

/-- Gets the conversations. -/
def fetchConversations (service : DataService) (network : Http.Network σ) :
    Work σ (Fetched Chat.ConversationFeed) := do
  let fetched ← service.fetch network Settings.conversationsPath
  return fetched.andThen fun j => .ok (.ofJson j)

end DataService

end EquityBoard.Feed
