import EquityBoard.Proofs.Board.Runs
import EquityBoard.Proofs.Chat.SharedKeys
import EquityBoard.Proofs.Feed.Responses

/-!
# Switches of cards

A reader switches a card of the board between its text and its rendition. As long as there is no
rendition the chat service is asked for one, once for a switch, and a failed request may be repeated
by a further switch. What is asked is told by a network that keeps its exchanges
(`Http.Network.observed`). A switch concerns its own card and nothing else of the board. Main
statement: `toggleRendition_run`.
-/

namespace EquityBoard

/-! ## Requests -/

/-- A network that keeps what it was asked and what it replied. -/
def Http.Network.observed {σ : Type} (network : Http.Network σ) :
    Http.Network (σ × List (Http.Request × Http.Reply)) where
  send request := fun (st, sent) =>
    let (reply, st) := (network.send request).run st
    (reply, st, sent ++ [(request, reply)])
  draws := network.draws

namespace Chat.RenditionBook

/-- How a request for a rendition ended. -/
def reportOf (key : String) (reply : Http.Reply) : JobReport :=
  ⟨key, (renditionOfReply reply).mapError ServiceFailure.message⟩

/-- The first rendition of a card is shown when it arrives; a failure is all that is known of a card
before. -/
theorem HasShown.state_record {book : RenditionBook} (h : book.HasShown) {key : String}
    (hkey : (book.state key).translated? = none) (reply : Http.Reply) :
    ((book.start key).record (reportOf key reply)).state key =
      match renditionOfReply reply with
      | .ok rendition => { translated? := some rendition, shown := true }
      | .error _ => { failed := true } := by
  have hhidden : (book.state key).shown = false := by
    rw [Bool.eq_false_iff]
    intro hshown
    have hsome := h key hshown
    rw [hkey] at hsome
    cases hsome
  refine (RenditionBook.state_record book (reportOf key reply) key).trans ?_
  unfold reportOf
  cases renditionOfReply reply <;>
    simp [Except.mapError, Except.toOption, Except.isOk, Except.toBool, hkey, hhidden]

end Chat.RenditionBook

namespace Board

open Chat (Conversation ChatService RenditionBook)
open Chat.RenditionBook (reportOf)

variable {σ : Type} {b : Board} {key : String}

/-! ## The newest card -/

/-- Whether a card is the newest one with a key: it comes first of them in the list of all cards. -/
def IsNewest (b : Board) (key : String) (c : Conversation) : Prop :=
  c.cardKey = key ∧ ∃ newer older, b.feed.list .all = newer ++ c :: older ∧
    ∀ d ∈ newer, d.cardKey ≠ key

/-- What is looked up for a key is its newest card. -/
theorem card?_eq_some_iff (c : Conversation) : b.card? key = some c ↔ b.IsNewest key c := by
  unfold card? IsNewest
  rw [List.find?_eq_some_iff_append]
  simp

/-- A rendition is asked for the text of the newest card, if it has one. -/
theorem textOf?_eq_some_iff (text : String) :
    b.textOf? key = some text ↔ ∃ c, b.IsNewest key c ∧ c.summary ≠ "" ∧ c.summary = text := by
  unfold textOf?
  simp only [Option.bind_eq_some_iff, card?_eq_some_iff, Option.ite_none_left_eq_some,
    Option.some.injEq, String.isEmpty_iff]

/-! ## One switch -/

/-- Without a translator or a text nobody is asked, and nothing changes. -/
theorem run_toggleRendition_of_unasked (h : ¬ b.book.isTranslated key = true)
    (hnone : b.translator? = none ∨ b.textOf? key = none) :
    ∃ outputs, ∀ {σ : Type} (network : Http.Network σ) (st : σ),
      (b.toggleRendition network key).run st = ((b, outputs), st) := by
  cases htranslator : b.translator? with
  | none =>
    refine ⟨[.notice "translation disabled: set CHAT_API_TOKEN"], fun network st => ?_⟩
    rw [toggleRendition_of_not_isTranslated h, htranslator]
    rfl
  | some service =>
    refine ⟨[.notice ("no card " ++ key ++ " with content")], fun network st => ?_⟩
    have htext : b.textOf? key = none := hnone.resolve_left (by rw [htranslator]; nofun)
    rw [toggleRendition_of_not_isTranslated h, htranslator, htext]
    rfl

/-- Otherwise a request is sent once, and how it ended is recorded. -/
theorem run_toggleRendition_of_asked (h : ¬ b.book.isTranslated key = true)
    {service : ChatService} {text : String} (hservice : b.translator? = some service)
    (htext : b.textOf? key = some text) (network : Http.Network σ) (st : σ) :
    let reply := (network.send (service.request text)).run st
    let report := reportOf key reply.1
    (b.toggleRendition network key).run st =
      (({ b with book := (b.book.start key).record report }, [.logged report.event]), reply.2) := by
  have htranslate : b.toggleRendition network key = b.translate network service [⟨key, text⟩] := by
    rw [toggleRendition_of_not_isTranslated h, hservice, htext]
  rw [htranslate]
  rfl

/-! ## What a switch may do -/

/-- What a board displays for a card. -/
def displayed (b : Board) (c : Conversation) : String := b.book.display c.cardKey c.summary

/-- What a switch of a card makes of a board, and which exchanges it has with the chat service. -/
structure SwitchesCard (b b' : Board) (key : String) (sent : List (Http.Request × Http.Reply)) :
    Prop where
  /-- There is an exchange exactly if there is a chat service, the card has no rendition, and the
  newest card with the key has a text. -/
  sent_iff : sent ≠ [] ↔ b.translator?.isSome ∧ (b.book.state key).translated? = none ∧
    ∃ c, b.IsNewest key c ∧ c.summary ≠ ""
  /-- There is only one, and it is about that text. -/
  asked : ∀ exchange ∈ sent, sent = [exchange] ∧ ∃ service ∈ b.translator?,
    ∃ c, b.IsNewest key c ∧ exchange.1 = service.request c.summary
  /-- A card with the key displays the rendition that the reply brings, and else its text. -/
  replied : ∀ exchange ∈ sent, match Chat.renditionOfReply exchange.2 with
    | .ok rendition => b'.book.state key = { translated? := some rendition, shown := true } ∧
        ∀ c : Conversation, c.cardKey = key → b'.displayed c = rendition
    | .error _ => b'.book.state key = { failed := true } ∧
        ∀ c : Conversation, c.cardKey = key → b'.displayed c = c.ownText
  /-- A rendition that there is takes turns with the text. -/
  switched : ∀ rendition ∈ (b.book.state key).translated?,
    b'.book.state key = { b.book.state key with shown := !(b.book.state key).shown } ∧
      ∀ c : Conversation, c.cardKey = key →
        if (b.book.state key).shown then b.displayed c = rendition ∧ b'.displayed c = c.ownText
        else b.displayed c = c.ownText ∧ b'.displayed c = rendition
  /-- Otherwise nothing changes. -/
  unchanged : sent = [] → (b.book.state key).translated? = none → b' = b
  /-- In any case nothing changes but the book, and of the book the state of the card. -/
  eq_with_book : b' = { b with book := b'.book }
  state_of_ne : ∀ k, k ≠ key → b'.book.state k = b.book.state k

theorem isTranslated_of_mem {book : RenditionBook} {rendition : String}
    (h : rendition ∈ (book.state key).translated?) : book.isTranslated key = true :=
  Option.isSome_iff_exists.2 ⟨rendition, h⟩

/-- A card displays its rendition while that is shown, and its own text otherwise. -/
theorem displayed_eq_ite {c : Conversation} (hkey : c.cardKey = key) :
    b.displayed c = if (b.book.state key).shown then (b.book.state key).translated?.getD c.ownText
      else c.ownText := by
  unfold displayed
  rw [RenditionBook.display_eq, hkey]
  unfold RenditionBook.shown?
  split <;> rfl

theorem translated?_eq_none_iff (book : RenditionBook) :
    (book.state key).translated? = none ↔ ¬ book.isTranslated key = true := by
  unfold RenditionBook.isTranslated
  rw [Bool.not_eq_true, Option.isSome_eq_false_iff, Option.isNone_iff_eq_none]

/-- A card with a rendition is switched without an exchange. -/
theorem switchesCard_of_isTranslated (h : b.book.isTranslated key = true) :
    b.SwitchesCard { b with book := (b.book.toggle key).1 } key [] where
  sent_iff := by
    refine iff_of_false (fun hne => hne rfl) fun hasked => ?_
    exact (translated?_eq_none_iff b.book).1 hasked.2.1 h
  asked := nofun
  replied := nofun
  switched rendition hrendition := by
    have hstate : (b.book.toggle key).1.state key =
        { b.book.state key with shown := !(b.book.state key).shown } := by
      rw [RenditionBook.toggle_of_isTranslated h, RenditionBook.state_update, if_pos rfl]
    refine ⟨hstate, fun c hc => ?_⟩
    simp only [displayed_eq_ite hc, hstate, Option.mem_def.1 hrendition]
    cases (b.book.state key).shown <;> exact ⟨rfl, rfl⟩
  unchanged _ hnone := absurd h ((translated?_eq_none_iff b.book).1 hnone)
  eq_with_book := rfl
  state_of_ne k hk := by
    rw [RenditionBook.toggle_of_isTranslated h, RenditionBook.state_update, if_neg hk]

/-- Where nobody is asked, nothing changes. -/
theorem switchesCard_of_unasked (h : ¬ b.book.isTranslated key = true)
    (hnone : b.translator? = none ∨ b.textOf? key = none) : b.SwitchesCard b key [] where
  sent_iff := by
    refine iff_of_false (fun hne => hne rfl) ?_
    rintro ⟨hservice, -, c, hnewest, htext⟩
    have hsome : b.textOf? key = some c.summary :=
      (textOf?_eq_some_iff c.summary).2 ⟨c, hnewest, htext, rfl⟩
    rcases hnone with hnone | hnone
    · rw [hnone] at hservice
      cases hservice
    · rw [hnone] at hsome
      cases hsome
  asked := nofun
  replied := nofun
  switched _ hrendition := absurd (isTranslated_of_mem hrendition) h
  unchanged _ _ := rfl
  eq_with_book := rfl
  state_of_ne _ _ := rfl

/-- A request for a rendition is the only one, and its reply is entered into the book. -/
theorem switchesCard_of_asked (hshown : b.book.HasShown) (h : ¬ b.book.isTranslated key = true)
    {service : ChatService} {text : String} (hservice : b.translator? = some service)
    (htext : b.textOf? key = some text) (reply : Http.Reply) :
    b.SwitchesCard { b with book := (b.book.start key).record (reportOf key reply) } key
      [(service.request text, reply)] where
  sent_iff := by
    obtain ⟨c, hnewest, hne, -⟩ := (textOf?_eq_some_iff text).1 htext
    have htranslator : b.translator?.isSome = true := by
      rw [hservice]
      rfl
    exact iff_of_true (List.cons_ne_nil _ _)
      ⟨htranslator, (translated?_eq_none_iff b.book).2 h, c, hnewest, hne⟩
  asked exchange hexchange := by
    obtain rfl := List.mem_singleton.1 hexchange
    obtain ⟨c, hnewest, -, rfl⟩ := (textOf?_eq_some_iff text).1 htext
    exact ⟨rfl, service, hservice, c, hnewest, rfl⟩
  replied exchange hexchange := by
    obtain rfl := List.mem_singleton.1 hexchange
    have hstate := hshown.state_record ((translated?_eq_none_iff b.book).2 h) reply
    cases hreply : Chat.renditionOfReply reply with
    | ok rendition =>
      rw [hreply] at hstate
      refine ⟨hstate, fun c hc => ?_⟩
      rw [displayed_eq_ite hc, hstate]
      rfl
    | error failure =>
      rw [hreply] at hstate
      refine ⟨hstate, fun c hc => ?_⟩
      rw [displayed_eq_ite hc, hstate]
      rfl
  switched _ hrendition := absurd (isTranslated_of_mem hrendition) h
  unchanged hnil := by cases hnil
  eq_with_book := rfl
  state_of_ne k hk :=
    (RenditionBook.state_record b.book (reportOf key reply) k).trans (if_neg hk.symm)

/-! ## Switches in a run -/

/-- To observe the network changes nothing for a switch, and tells what is asked. -/
theorem toggleRendition_observed (hshown : b.book.HasShown) (network : Http.Network σ) (st : σ)
    (key : String) :
    let switched := (b.toggleRendition network.observed key).run (st, [])
    (switched.1, switched.2.1) = (b.toggleRendition network key).run st ∧
      b.SwitchesCard switched.1.1 key switched.2.2 := by
  intro switched
  by_cases htranslated : b.book.isTranslated key = true
  · rw [show switched = _ from run_toggleRendition_of_isTranslated htranslated _ _,
      run_toggleRendition_of_isTranslated htranslated]
    exact ⟨rfl, switchesCard_of_isTranslated htranslated⟩
  · by_cases hnone : b.translator? = none ∨ b.textOf? key = none
    · obtain ⟨outputs, hrun⟩ := run_toggleRendition_of_unasked htranslated hnone
      rw [show switched = _ from hrun _ _, hrun]
      exact ⟨rfl, switchesCard_of_unasked htranslated hnone⟩
    · rw [not_or] at hnone
      obtain ⟨service, hservice⟩ := Option.ne_none_iff_exists'.1 hnone.1
      obtain ⟨text, htext⟩ := Option.ne_none_iff_exists'.1 hnone.2
      rw [show switched = _ from run_toggleRendition_of_asked htranslated hservice htext _ _,
        run_toggleRendition_of_asked htranslated hservice htext]
      exact ⟨rfl, switchesCard_of_asked hshown htranslated hservice htext _⟩

/-- A new board has an empty book, and a chat service if there is a token. -/
theorem of_new {settings : Settings} {policy : Feed.RetryPolicy} {b₀ : Board}
    (h : new settings policy = .ok b₀) :
    b₀.book = .empty ∧ b₀.translator?.isSome = settings.chatApiToken?.isSome := by
  unfold new at h
  cases htoken : settings.chatApiToken? with
  | none =>
    rw [htoken] at h
    cases h
    exact ⟨rfl, rfl⟩
  | some token =>
    simp only [htoken] at h
    cases hservice : ChatService.new settings.chatApiBase token settings.chatModel with
    | error e =>
      rw [hservice] at h
      cases h
    | ok service =>
      rw [hservice] at h
      cases h
      exact ⟨rfl, rfl⟩

/-- The book of a board that has run is one of entries, so every card that shows a rendition has
one. -/
theorem Follows.hasShown {settings : Settings} {policy : Feed.RetryPolicy} {b₀ b : Board}
    (hnew : new settings policy = .ok b₀) (h : b₀.Follows b) : b.book.HasShown := by
  obtain ⟨entries, hentries⟩ := h.book_eq
  rw [hentries, (of_new hnew).1]
  exact RenditionBook.hasShown_enterAll entries

/-- What a switch of a card does to the board that any run of polls and commands leaves, over any
network; a run that an overflow has stopped leaves no board. The chat service is asked exactly if
there is a token for it, the card has no rendition, and the newest card with the key has a text; then
it is asked once, for that text. The cards with the key display the rendition that comes back, and
their own texts if none does. A rendition that there is takes turns with the text, and nobody is
asked. Nothing else of the board changes. -/
theorem toggleRendition_run (network : Http.Network σ) {settings : Settings}
    {policy : Feed.RetryPolicy} {b₀ b : Board} (h : new settings policy = .ok b₀) (ops : List Op)
    {st st' : σ} (hrun : (b₀.run network ops).run.run st = (.ok b, st')) (key : String) :
    let switched := (b.toggleRendition network.observed key).run (st', [])
    (switched.1, switched.2.1) = (b.toggleRendition network key).run st' ∧
      b.SwitchesCard switched.1.1 key switched.2.2 ∧
      b.translator?.isSome = settings.chatApiToken?.isSome := by
  intro switched
  have hfollows := b₀.follows_run network ops st b st' hrun
  obtain ⟨hobserved, hswitches⟩ :=
    toggleRendition_observed (hfollows.hasShown h) network st' key
  refine ⟨hobserved, hswitches, ?_⟩
  rw [hfollows.translator?_eq]
  exact (of_new h).2

theorem eq_ok_of_toOption {ε α : Type} {result : Except ε α} {a : α}
    (h : result.toOption = some a) : result = .ok a := by
  cases result with
  | ok a' => exact congrArg Except.ok (Option.some.inj h)
  | error e => cases h

/-- The first request for a card fails, and the card displays its text. A further switch asks once
more, and the card displays the rendition. -/
theorem toggleRendition_run_of_retry :
    let settings := Settings.ofEnvironment
      (.ofList [("AUTO_TRANSLATE", "0"), ("CHAT_API_TOKEN", "token")])
    let replies := [
      "[\x7b\"model_id\": \"a\", \"timestamp\": 1, \"summary\": \"one\"\x7d]", "busy",
      "\x7b\"choices\": [\x7b\"message\": [\"assistant\", \"eins\"]\x7d]\x7d"]
    let ops : List Op := [.pollConversations, .command 0 (.translate "a:1")]
    let card : Conversation := ⟨"a", 1, "one", "", .null, .null⟩
    ∃ b₀ b rest, new settings {} = .ok b₀ ∧
      (b₀.run Http.inTurn ops).run.run replies = (.ok b, rest) ∧
      let switched := (b.toggleRendition Http.inTurn.observed "a:1").run (rest, [])
      b.book.state "a:1" = { failed := true } ∧ b.displayed card = "one" ∧
        switched.2.2.length = 1 ∧ switched.1.1.displayed card = "eins" := by
  intro settings replies ops card
  let facts (b₀ : Board) :=
    let ran := (b₀.run Http.inTurn ops).run.run replies
    ran.1.toOption.map fun b =>
      let switched := (b.toggleRendition Http.inTurn.observed "a:1").run (ran.2, [])
      (b.textOf? "a:1", b.book.state "a:1", b.displayed card, switched.1.1.displayed card)
  have hfacts : (new settings {}).toOption.bind facts =
      some (some "one", { failed := true }, "one", "eins") := by
    decide +kernel
  obtain ⟨b₀, hnew, hran⟩ := Option.bind_eq_some_iff.1 hfacts
  obtain ⟨b, hb, hstates⟩ := Option.map_eq_some_iff.1 hran
  simp only [Prod.mk.injEq] at hstates
  obtain ⟨htext, hstate, hbefore, hafter⟩ := hstates
  have hnew := eq_ok_of_toOption hnew
  have hrun : (b₀.run Http.inTurn ops).run.run replies = (.ok b, _) :=
    Prod.ext (eq_ok_of_toOption hb) rfl
  refine ⟨b₀, b, _, hnew, hrun, hstate, hbefore, ?_, hafter⟩
  obtain ⟨-, hswitches, hconfigured⟩ := toggleRendition_run Http.inTurn hnew ops hrun "a:1"
  obtain ⟨c, hnewest, hne, -⟩ := (textOf?_eq_some_iff "one").1 htext
  have hsent := hswitches.sent_iff.2 ⟨hconfigured, by rw [hstate], c, hnewest, hne⟩
  obtain ⟨exchange, hexchange⟩ := List.exists_mem_of_ne_nil _ hsent
  rw [(hswitches.asked exchange hexchange).1]
  rfl

end Board

end EquityBoard
