import EquityBoard.Board
import EquityBoard.Proofs.Chat.AutomaticJobs
import EquityBoard.Proofs.Chat.BookEntries

/-!
# Runs of the board

A board polls, obeys commands and draws, in any order and over any network, until an overflow stops
it. Whatever it does, it keeps its services, and its book of renditions changes by entries only
(`follows_apply`). So what holds of a book after any entries holds of the book of a board after any run
(`follows_run`).
-/

namespace EquityBoard

/-! ## Jobs as entries -/

namespace Chat.RenditionBook

/-- What a job enters into the book. -/
def JobReport.entries (r : JobReport) : List Entry :=
  [.started r.key,
    match r.outcome with
    | .ok text => .arrived r.key text
    | .error _ => .failed r.key]

theorem enterAll_append (b : RenditionBook) (first later : List Entry) :
    b.enterAll (first ++ later) = (b.enterAll first).enterAll later :=
  List.foldl_append

/-- The entries of a job are its start and its outcome. -/
theorem enterAll_entries (b : RenditionBook) (r : JobReport) :
    b.enterAll r.entries = (b.start r.key).record r := by
  unfold JobReport.entries record
  cases r.outcome <;> rfl

/-- To settle jobs is to make their entries. -/
theorem settle_eq_enterAll (b : RenditionBook) (reports : List JobReport) :
    b.settle reports = b.enterAll (reports.flatMap (·.entries)) := by
  induction reports generalizing b with
  | nil => rfl
  | cons r reports ih =>
    rw [List.flatMap_cons, enterAll_append, enterAll_entries, ← ih]
    rfl

end Chat.RenditionBook

namespace Board

open Chat (ChatService RenditionBook)
open Decimal (Overflow Work)

variable {σ : Type}

/-! ## Events and runs -/

/-- What can happen to a board. -/
inductive Op where
  | pollSeries
  | pollConversations
  | command (now : Int) (command : Command)
  /-- The width of a resize command is applied. -/
  | resize (now : Int) (width : Nat)
  | render (now : Int)

/-- The board after an event. -/
def apply (b : Board) (network : Http.Network σ) : Op → Work σ Board
  | .pollSeries => do return (← b.pollSeries network).1
  | .pollConversations => do return (← b.pollConversations network).1
  | .command now command => do return (← b.handle network now command).1
  | .resize now width => do return (← { b with panel := b.panel.resize width }.render now).1
  | .render now => do return (← b.render now).1

/-- The board after a run of events. -/
def run (b : Board) (network : Http.Network σ) : List Op → Work σ Board
  | [] => return b
  | op :: ops => do (← b.apply network op).run network ops

/-! ## One switch of a card -/

/-- The text that a switch of a card can ask a rendition for: that of the newest card with the key,
unless it is empty. -/
def textOf? (b : Board) (key : String) : Option String :=
  (b.card? key).bind fun c => if c.summary.isEmpty then none else some c.summary

/-- A card that has a rendition is switched, and nobody is asked. -/
theorem run_toggleRendition_of_isTranslated {b : Board} {key : String}
    (h : b.book.isTranslated key = true) (network : Http.Network σ) (st : σ) :
    (b.toggleRendition network key).run st =
      (({ b with book := (b.book.toggle key).1 }, []), st) := by
  unfold toggleRendition
  rw [RenditionBook.toggle_of_isTranslated h]
  rfl

/-- A card that has no rendition needs a translator and a text. -/
theorem toggleRendition_of_not_isTranslated {b : Board} {key : String}
    (h : ¬ b.book.isTranslated key = true) (network : Http.Network σ) :
    b.toggleRendition network key =
      match b.translator?, b.textOf? key with
      | none, _ => return (b, [.notice "translation disabled: set CHAT_API_TOKEN"])
      | some service, some text => b.translate network service [⟨key, text⟩]
      | some _, none => return (b, [.notice ("no card " ++ key ++ " with content")]) := by
  unfold toggleRendition textOf?
  rw [RenditionBook.toggle_of_not_isTranslated h]
  cases b.translator? with
  | none => rfl
  | some service =>
    cases (b.card? key).bind fun c => if c.summary.isEmpty then none else some c.summary <;> rfl

/-! ## What a board keeps -/

/-- Whether a board comes from an earlier one as boards do: it has the services of the earlier one,
and its book has more entries. -/
structure Follows (b b' : Board) : Prop where
  service_eq : b'.service = b.service
  translator?_eq : b'.translator? = b.translator?
  book_eq : ∃ entries, b'.book = b.book.enterAll entries

theorem follows_self (b : Board) : b.Follows b := ⟨rfl, rfl, [], rfl⟩

/-- What follows a board that follows another one follows that one. -/
theorem Follows.trans {b b' b'' : Board} (h : b.Follows b') (h' : b'.Follows b'') :
    b.Follows b'' := by
  obtain ⟨first, hfirst⟩ := h.book_eq
  obtain ⟨later, hlater⟩ := h'.book_eq
  refine ⟨h'.service_eq.trans h.service_eq, h'.translator?_eq.trans h.translator?_eq,
    first ++ later, ?_⟩
  rw [hlater, hfirst, RenditionBook.enterAll_append]

/-- Panel, feed and filter may be any others. -/
theorem follows_of_book_eq (b : Board) (panel : Chart.Panel) (feed : Chat.ConversationFeed)
    (filter : Chat.ModelFilter) : b.Follows { b with panel, feed, filter } := ⟨rfl, rfl, [], rfl⟩

/-- Rendition jobs change nothing but the book, by their entries. -/
theorem follows_translate (b : Board) (network : Http.Network σ) (service : ChatService)
    (jobs : List RenditionBook.Job) (st : σ) :
    b.Follows ((b.translate network service jobs).run st).1.1 := by
  let ask (text : String) : StateM σ (Except String String) :=
    return (← service.translate network text).mapError Chat.ServiceFailure.message
  have hbook : ((b.translate network service jobs).run st).1.1 =
      { b with book := ((b.book.runJobs ask jobs).run st).1.1 } := rfl
  rw [hbook, RenditionBook.runJobs_fst, RenditionBook.settle_eq_enterAll]
  exact ⟨rfl, rfl, _, rfl⟩

/-- A switch of a card changes nothing but the book, by entries. -/
theorem follows_toggleRendition (b : Board) (network : Http.Network σ) (key : String) (st : σ) :
    b.Follows ((b.toggleRendition network key).run st).1.1 := by
  by_cases h : b.book.isTranslated key = true
  · rw [run_toggleRendition_of_isTranslated h]
    exact ⟨rfl, rfl, [.switched key], rfl⟩
  · rw [toggleRendition_of_not_isTranslated h]
    cases b.translator? with
    | none => exact b.follows_self
    | some service =>
      cases b.textOf? key with
      | none => exact b.follows_self
      | some text => exact b.follows_translate network service _ st

/-- A drawing changes nothing but the panel. -/
theorem follows_render (b : Board) {now : Int} {drawn : Board × List Output}
    (h : b.render now = .ok drawn) : b.Follows drawn.1 := by
  obtain ⟨lines, -, hdrawn⟩ := Decimal.exists_of_bind_eq_ok h
  obtain rfl := Except.ok.inj hdrawn
  exact b.follows_of_book_eq _ b.feed b.filter

/-- A drawing does not undo what was done before it. -/
theorem follows_drawAfter {b : Board} {now : Int} {done : Board × List Output}
    {drawn : Board × List Output × Reaction} (h : drawAfter now done = .ok drawn)
    (hdone : b.Follows done.1) : b.Follows drawn.1 := by
  obtain ⟨rendered, hrender, hdrawn⟩ := Decimal.exists_of_bind_eq_ok h
  obtain rfl := Except.ok.inj hdrawn
  exact hdone.trans (done.1.follows_render hrender)

/-- A poll of the account values changes nothing but the panel. -/
theorem follows_pollSeries (b : Board) (network : Http.Network σ) :
    (b.pollSeries network).Ensures fun polled => b.Follows polled.1 := by
  refine (Work.ensures_true _).bind fun ⟨result, operation, reports⟩ _ => ?_
  cases result with
  | ok batch => exact Work.ensures_pure (b.follows_of_book_eq _ b.feed b.filter)
  | error failure => exact Work.ensures_pure (b.follows_of_book_eq _ b.feed b.filter)

/-- A poll of the conversations changes the feed and, by entries, the book. -/
theorem follows_pollConversations (b : Board) (network : Http.Network σ) :
    (b.pollConversations network).Ensures fun polled => b.Follows polled.1 := by
  refine (Work.ensures_true _).bind fun ⟨result, operation, reports⟩ _ => ?_
  cases result with
  | error failure => exact Work.ensures_pure b.follows_self
  | ok feed =>
    have hfed := b.follows_of_book_eq b.panel feed b.filter
    obtain ⟨service, translator?, panel, _, book, filter⟩ := b
    cases translator? with
    | none => exact Work.ensures_pure hfed
    | some translator =>
      refine (Work.ensures_lift fun st => ?_).bind fun translated h => Work.ensures_pure h
      exact hfed.trans (follows_translate _ network translator _ st)

/-- A command changes the book by entries only, and no service. -/
theorem follows_handle (b : Board) (network : Http.Network σ) (now : Int) (command : Command) :
    (b.handle network now command).Ensures fun handled => b.Follows handled.1 := by
  -- most commands end with a drawing
  have hdrawn : ∀ done : Board × List Output, b.Follows done.1 →
      (liftM (drawAfter now done) : Work σ _).Ensures fun handled => b.Follows handled.1 :=
    fun _ hdone => Work.ensures_except fun _ h => follows_drawAfter h hdone
  unfold handle
  cases command with
  | translate key =>
    have hswitched : (liftM (b.toggleRendition network key) : Work σ _).Ensures
        fun switched => b.Follows switched.1 :=
      Work.ensures_lift (b.follows_toggleRendition network key)
    exact hswitched.bind fun switched h => hdrawn _ h
  | totals =>
    refine (Work.ensures_true _).bind fun ⟨result, operation, reports⟩ _ => ?_
    cases result with
    | ok j => exact hdrawn _ b.follows_self
    | error failure => exact hdrawn _ b.follows_self
  | range _ | mode _ | toggle _ | filter _ => exact hdrawn _ (b.follows_of_book_eq _ b.feed _)
  | resize _ | frame | quit => exact Work.ensures_pure (b.follows_of_book_eq _ b.feed b.filter)

/-- So every event keeps the services and enters into the book. -/
theorem follows_apply (b : Board) (network : Http.Network σ) (op : Op) :
    (b.apply network op).Ensures b.Follows := by
  cases op with
  | pollSeries => exact (b.follows_pollSeries network).bind fun _ h => Work.ensures_pure h
  | pollConversations =>
    exact (b.follows_pollConversations network).bind fun _ h => Work.ensures_pure h
  | command now command =>
    exact (b.follows_handle network now command).bind fun _ h => Work.ensures_pure h
  | resize now width =>
    have hresized := b.follows_of_book_eq (b.panel.resize width) b.feed b.filter
    refine (Work.ensures_except fun drawn h => ?_).bind fun _ h => Work.ensures_pure h
    exact hresized.trans (follows_render _ h)
  | render now =>
    exact (Work.ensures_except fun drawn h => b.follows_render h).bind fun _ h =>
      Work.ensures_pure h

/-- So does every run that nothing stops. -/
theorem follows_run (b : Board) (network : Http.Network σ) (ops : List Op) :
    (b.run network ops).Ensures b.Follows := by
  induction ops generalizing b with
  | nil => exact Work.ensures_pure b.follows_self
  | cons op ops ih =>
    refine (b.follows_apply network op).bind fun b' h => ?_
    intro st b'' st' hrun
    exact h.trans (ih b' st b'' st' hrun)

end Board

end EquityBoard
