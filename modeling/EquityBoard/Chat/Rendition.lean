import EquityBoard.Chat.Conversation
import EquityBoard.Log.BoardEvents

/-!
# Renditions of the cards

A rendition is what the text of a card says in the reader's language. The book keeps, for each card
of the chat, its rendition and whether that is shown. A round of automatic renditions takes the newest
cards that have text and were never asked for; a card whose request failed shows its own text again
and waits for an explicit request.
-/

namespace EquityBoard.Chat

/-! ## The book -/

/-- What is known of the rendition of a card. -/
structure RenditionState where
  /-- The latest rendition that arrived. -/
  translated? : Option String := none
  /-- A request is on its way. -/
  translating : Bool := false
  /-- The latest request failed. -/
  failed : Bool := false
  /-- The rendition is displayed instead of the text. -/
  shown : Bool := false
deriving DecidableEq, Repr

/-- The states of the cards by their keys. -/
structure RenditionBook where
  states : KeyMap RenditionState

/-- What stands for a text that is empty. -/
def noSummary : String := "(no summary)"

namespace RenditionBook

/-- The book that knows no card. -/
def empty : RenditionBook := ⟨.empty⟩

instance : Inhabited RenditionBook := ⟨empty⟩

/-- The state of a card. -/
def state (b : RenditionBook) (key : String) : RenditionState := (b.states.get? key).getD {}

/-- Changes the state of a card. -/
def update (b : RenditionBook) (key : String) (change : RenditionState → RenditionState) :
    RenditionBook :=
  ⟨b.states.insert key (change (b.state key))⟩

/-- A request for a card is on its way. -/
def start (b : RenditionBook) (key : String) : RenditionBook :=
  b.update key fun s => { s with translating := true }

/-- A request succeeded: the rendition is shown. -/
def complete (b : RenditionBook) (key text : String) : RenditionBook :=
  b.update key fun _ => { translated? := some text, shown := true }

/-- A request failed. -/
def fail (b : RenditionBook) (key : String) : RenditionBook :=
  b.update key fun s => { s with translating := false, failed := true }

/-- Whether a card has a rendition to switch to. -/
def isTranslated (b : RenditionBook) (key : String) : Bool := (b.state key).translated?.isSome

/-- Switches between text and rendition, and says whether there was one. -/
def toggle (b : RenditionBook) (key : String) : RenditionBook × Bool :=
  if b.isTranslated key then (b.update key fun s => { s with shown := !s.shown }, true)
  else (b, false)

/-- What is displayed for a card with a text. -/
def display (b : RenditionBook) (key text : String) : String :=
  let s := b.state key
  match s.translated?, s.shown with
  | some rendition, true => rendition
  | _, _ => if text.isEmpty then noSummary else text

@[simp] theorem state_empty (key : String) : empty.state key = {} := rfl

/-- An update changes the state of its own key and of no other one. -/
@[simp] theorem state_update (b : RenditionBook) (key k : String)
    (change : RenditionState → RenditionState) :
    (b.update key change).state k = if k = key then change (b.state key) else b.state k := by
  unfold update state
  rw [KeyMap.get?_insert]
  split <;> rfl

/-! ## Jobs -/

/-- A text to translate, for a card. -/
structure Job where
  key : String
  text : String
deriving DecidableEq, Repr

/-- Whether a card was asked for: its request is on its way, failed or succeeded. -/
def wasRequested (b : RenditionBook) (key : String) : Bool :=
  let s := b.state key
  s.translating || s.failed || s.translated?.isSome

/-- The jobs for the newest `limit` cards, as far as they have text and were not asked for. -/
def pending (b : RenditionBook) (newestFirst : List Conversation) (limit : Nat) : List Job :=
  ((newestFirst.take limit).filter fun c => !c.summary.isEmpty && !b.wasRequested c.cardKey).map
    fun c => ⟨c.cardKey, c.summary⟩

/-- How a job ended. -/
structure JobReport where
  key : String
  outcome : Except String String

/-- The event of a job. -/
def JobReport.event (r : JobReport) : Log.Event :=
  match r.outcome with
  | .ok _ => Log.translated r.key none
  | .error message => Log.renditionFailed r.key (some message)

/-- Records how a job ended. -/
def record (b : RenditionBook) (r : JobReport) : RenditionBook :=
  match r.outcome with
  | .ok text => b.complete r.key text
  | .error _ => b.fail r.key

/-- Runs jobs one after another through a translator that may have a state of its own. -/
def runJobs {σ : Type} (translate : String → StateM σ (Except String String)) :
    RenditionBook → List Job → StateM σ (RenditionBook × List JobReport)
  | b, [] => return (b, [])
  | b, job :: jobs => do
    let outcome ← translate job.text
    let report : JobReport := ⟨job.key, outcome⟩
    let (b, reports) ← runJobs translate ((b.start job.key).record report) jobs
    return (b, report :: reports)

/-- The number of jobs that succeeded. -/
def successes (reports : List JobReport) : Nat :=
  reports.countP fun r => match r.outcome with
    | .ok _ => true
    | .error _ => false

end RenditionBook

end EquityBoard.Chat
