import EquityBoard.Decimal.Reading
import EquityBoard.Json.Basic
import EquityBoard.Text.Blank

/-!
# Conversations

What the models said, one entry for each decision round. Entries of the feed may carry their time in
seconds or milliseconds and under two names, and their summary under two names as well. The chat lists
them newest first, for one model or for all.
-/

namespace EquityBoard.Chat

open Decimal

/-! ## Entries -/

/-- One entry of the chat. -/
structure Conversation where
  model : String
  /-- Seconds or milliseconds, as the feed sent it. -/
  timestamp : Int
  summary : String
  userPrompt : String
  /-- The model's reasoning: text or any other document. -/
  reasoning : Json
  /-- The model's answer: an object of decisions by coin. -/
  answer : Json

/-- The time stamp in a document: a number, or a text that writes one; fractions are dropped, and what
leaves 64 bits is held at the bound. -/
def timestamp? : Json → Option Int
  | .number n =>
    match n.integer? with
    | some t => some t
    | none => some (truncate64 n.toFloat)
  | .string s =>
    match float? (Text.trim s) with
    | some x => if x.isFinite then some (truncate64 x) else none
    | none => none
  | _ => none

namespace Conversation

/-- The first of some fields that has a usable value. -/
def firstField? {α : Type} (fields : KeyMap Json) (use : Json → Option α) (names : List String) :
    Option α :=
  names.findSome? fun name => (fields.get? name).bind use

/-- The text of a string, unless it is empty. -/
def nonEmpty? (j : Json) : Option String := j.string?.filter fun s => !s.isEmpty

/-- The entry of an object; an object without a model id is none. -/
def ofJson? (j : Json) : Option Conversation :=
  match j.object? with
  | none => none
  | some fields =>
    match firstField? fields nonEmpty? ["model_id"] with
    | none => none
    | some model =>
      some {
        model
        timestamp := (firstField? fields timestamp? ["timestamp", "inserted_at"]).getD 0
        summary := (firstField? fields nonEmpty? ["cot_trace_summary", "summary"]).getD ""
        userPrompt := (firstField? fields Json.string? ["user_prompt"]).getD ""
        reasoning := (fields.get? "cot_trace").getD .null
        answer := (fields.get? "llm_response").getD .null }

/-- The key of what is kept for an entry, such as its rendition. -/
def cardKey (c : Conversation) : String := c.model ++ ":" ++ intText c.timestamp

end Conversation

/-! ## Filters -/

/-- The models whose entries are listed. -/
inductive ModelFilter where
  | all
  | model (id : String)
deriving DecidableEq, Repr

namespace ModelFilter

/-- The filter that a text names: nothing or `all` in any case stands for all models. -/
def parse (s : String) : ModelFilter :=
  let s := Text.trim s
  if s.isEmpty || Text.lower s == "all" then .all else .model s

/-- Whether the entries of a model are listed. -/
def accepts (f : ModelFilter) (model : String) : Bool :=
  match f with
  | .all => true
  | .model id => id == model

end ModelFilter

/-! ## The feed -/

/-- The entries of the latest poll, in the order of delivery. -/
structure ConversationFeed where
  items : List Conversation := []

namespace ConversationFeed

/-- The feed of a list of entries, or of an object that holds the list; any other document is empty. -/
def ofJson (j : Json) : ConversationFeed :=
  let entries := match j with
    | .array entries => entries
    | j => ((j.field? "conversations").bind Json.array?).getD []
  ⟨entries.filterMap Conversation.ofJson?⟩

/-- The accepted entries, newest time stamp first, those of one time stamp in the order of delivery. -/
def list (feed : ConversationFeed) (filter : ModelFilter) : List Conversation :=
  (feed.items.filter fun c => filter.accepts c.model).mergeSort
    fun a b => b.timestamp ≤ a.timestamp

/-- The choices of a filter: all, and each model once in the order of delivery. -/
def modelOptions (feed : ConversationFeed) : List String :=
  feed.items.foldl (fun out c => if out.contains c.model then out else out ++ [c.model]) ["ALL"]

end ConversationFeed

end EquityBoard.Chat
